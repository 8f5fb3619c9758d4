import Mathlib.Data.Option.Basic
import Parcel.Memory.Shared
import Parcel.Proofs.Bytes
import Parcel.Proofs.Runs

/-!
# Mappings of one file

All mappings of a file are windows on the same bytes, each from the start of the file up
to its own length. `turn` puts the two things that can be done to them under one roof: to map
the file once more, which is asked for with a mapping at hand, and to write through one.

What there is to be read is said without any file: it is the byte that was written last at
that position, by whichever mapping, and zero if none was (`lastByte`). `Coherent` says that
the file holds just these bytes and that no mapping is longer than the file. Every turn keeps
it (`coherent_turn`). A mapping is measured against the file, so that the length of the one
at hand has no part in it (`map_ok_iff`, `map_of_misfit`), and a refusal changes nothing.
-/

namespace Parcel.SharedMemory

/-! ## Runs -/

inductive Op
  | map (handle : Nat) (size : UInt64)
  | write (handle offset : Nat) (payload : List UInt8)

/-- What the caller of an operation sees. A write is carried out or it is not. -/
inductive Event
  | mapped (handle : Nat) (size : UInt64) (answer : Except Fault Unit)
  | wrote (handle offset : Nat) (payload : List UInt8) (done : Bool)

def turn (m : SharedMemory) : Op → Turn SharedMemory Event
  | .map handle size =>
    match m.map handle size with
    | .error fault => ⟨.mapped handle size (.error fault), m, []⟩
    | .ok m' => ⟨.mapped handle size (.ok ()), m', []⟩
  | .write handle offset payload =>
    match m.write? handle offset payload with
    | none => ⟨.wrote handle offset payload false, m, []⟩
    | some m' => ⟨.wrote handle offset payload true, m', []⟩

def run (m : SharedMemory) (ops : List Op) : Run SharedMemory Event := Turn.run turn m ops

/-- The byte that an event has left at a position, if it is a write that reached it. -/
def Event.byteAt? (p : Nat) : Event → Option UInt8
  | .wrote _ offset payload true => if offset ≤ p then payload[p - offset]? else none
  | .wrote _ _ _ false | .mapped _ _ _ => none

/-- The byte that was written last at a position. New files are all zero. -/
def lastByte (events : List Event) (p : Nat) : UInt8 :=
  (events.reverse.findSome? (Event.byteAt? p)).getD 0

theorem lastByte_concat (events : List Event) (e : Event) (p : Nat) :
    lastByte (events ++ [e]) p = (e.byteAt? p).getD (lastByte events p) := by
  rw [lastByte, List.reverse_append, List.reverse_singleton, List.singleton_append,
    List.findSome?_cons]
  cases e.byteAt? p with
  | none => rfl
  | some _ => rfl

/-! ## Mapping and writing -/

variable {m m' : SharedMemory} {handle : Nat}

theorem map_of_fits {size : UInt64} (hhandle : handle < m.mappings.length)
    (hpos : 1 ≤ size.toNat) (hfits : size.toNat ≤ m.file.length)
    (hmappable : m.file.length ≤ m.limits.mappingSize) :
    m.map handle size =
      .ok { m with mappings := m.mappings ++ [{ name := none, size := size.toNat }] } := by
  have hne : size ≠ 0 := fun h => by rw [h] at hpos; cases hpos
  rw [map, if_neg hne, if_neg (Nat.not_le_of_lt hhandle), if_neg (Nat.not_lt_of_le hfits),
    if_neg (Nat.not_lt_of_le (Nat.le_trans hfits hmappable))]

/-- A size that is no part of the file is refused as such. -/
theorem map_of_misfit {size : UInt64} (hhandle : handle < m.mappings.length)
    (h : ¬ (1 ≤ size.toNat ∧ size.toNat ≤ m.file.length)) :
    ∃ cause, m.map handle size = .error (.segment cause) := by
  by_cases hzero : size = 0
  · exact ⟨_, by rw [map, if_pos hzero]⟩
  · have hpos : 1 ≤ size.toNat := by
      rw [Nat.one_le_iff_ne_zero]
      exact fun h => hzero (UInt64.toNat_inj.1 h)
    have hlong : m.file.length < size.toNat := by omega
    exact ⟨_, by rw [map, if_neg hzero, if_neg (Nat.not_le_of_lt hhandle), if_pos hlong]⟩

theorem map_ok_iff {size : UInt64} (hhandle : handle < m.mappings.length)
    (hmappable : m.file.length ≤ m.limits.mappingSize) :
    m.map handle size = .ok m' ↔ (1 ≤ size.toNat ∧ size.toNat ≤ m.file.length) ∧
      m' = { m with mappings := m.mappings ++ [{ name := none, size := size.toNat }] } := by
  by_cases h : 1 ≤ size.toNat ∧ size.toNat ≤ m.file.length
  · rw [map_of_fits hhandle h.1 h.2 hmappable, Except.ok.injEq, and_iff_right h]
    exact eq_comm
  · obtain ⟨cause, hmap⟩ := map_of_misfit hhandle h
    rw [hmap]
    exact ⟨fun hok => (by cases hok), fun hok => absurd hok.1 h⟩

/-- It takes a mapping to get at the file. -/
theorem handle_lt_of_map {size : UInt64} (h : m.map handle size = .ok m') :
    handle < m.mappings.length := by
  rw [map] at h
  split at h
  · cases h
  · split at h
    · cases h
    · next hhandle => exact Nat.lt_of_not_le hhandle

theorem write?_eq_some_iff {offset : Nat} {payload : List UInt8} :
    m.write? handle offset payload = some m' ↔
      ∃ mapping, m.mappings[handle]? = some mapping ∧ offset + payload.length ≤ mapping.size ∧
        m' = { m with file := splice m.file offset payload } := by
  simp only [write?, Option.bind_eq_bind, Option.bind_eq_some_iff, Option.guard_eq_some',
    exists_const, Option.pure_def, Option.some.injEq, @eq_comm _ _ m']

/-! ## Coherence -/

/-- The file is as long as it was made, no mapping is longer, and each byte of it is the one
that was written there last. The system put up with a mapping of all of it when it was made. -/
structure Coherent (size : Nat) (events : List Event) (m : SharedMemory) : Prop where
  length : m.file.length = size
  mappable : m.file.length ≤ m.limits.mappingSize
  mapped : ∀ mapping ∈ m.mappings, mapping.size ≤ size
  bytes : ∀ p < size, m.file[p]? = some (lastByte events p)

variable {size : Nat} {events : List Event}

/-- An event that writes nothing is of no consequence to the bytes. -/
theorem Coherent.silent (h : Coherent size events m) {e : Event} (he : ∀ p, e.byteAt? p = none)
    {mappings : List Mapping} (hmappings : ∀ mapping ∈ mappings, mapping.size ≤ size) :
    Coherent size (events ++ [e]) { m with mappings } where
  length := h.length
  mappable := h.mappable
  mapped := hmappings
  bytes p hp := by rw [lastByte_concat, he]; exact h.bytes p hp

theorem Coherent.write (h : Coherent size events m) {offset : Nat} {payload : List UInt8}
    (hfits : offset + payload.length ≤ size) :
    Coherent size (events ++ [.wrote handle offset payload true])
      { m with file := splice m.file offset payload } where
  length := (length_splice (by rw [h.length]; exact hfits)).trans h.length
  mappable := by
    rw [length_splice (by rw [h.length]; exact hfits)]
    exact h.mappable
  mapped := h.mapped
  bytes p hp := by
    have hoffset : offset ≤ m.file.length := by rw [h.length]; omega
    rw [lastByte_concat]
    show (splice m.file offset payload)[p]? =
      some ((if offset ≤ p then payload[p - offset]? else none).getD (lastByte events p))
    rw [getElem?_splice payload hoffset, h.bytes p hp]
    cases (if offset ≤ p then payload[p - offset]? else none) with
    | none => rfl
    | some _ => rfl

theorem coherent_turn (h : Coherent size events m) (op : Op) :
    Coherent size (events ++ [(m.turn op).event]) (m.turn op).state := by
  cases op with
  | map handle requested =>
      rw [turn]
      split
      · exact h.silent (fun _ => rfl) h.mapped
      · next m' hmap =>
          obtain ⟨⟨-, hfits⟩, rfl⟩ := (map_ok_iff (handle_lt_of_map hmap) h.mappable).1 hmap
          refine h.silent (fun _ => rfl) fun mapping hmapping => ?_
          rcases List.mem_append.1 hmapping with hold | hnew
          · exact h.mapped mapping hold
          · rw [List.mem_singleton.1 hnew, ← h.length]
            exact hfits
  | write handle offset payload =>
      rw [turn]
      split
      · exact h.silent (fun _ => rfl) h.mapped
      · next m' hwrite =>
          obtain ⟨mapping, hmapping, hfits, rfl⟩ := write?_eq_some_iff.1 hwrite
          exact h.write (Nat.le_trans hfits (h.mapped mapping (List.mem_of_getElem? hmapping)))

theorem coherent_create {name : String} {size : UInt64} {limits : SystemLimits}
    (h : create name size limits = .ok m) :
    Coherent size.toNat [] m ∧ m.mappings = [{ name := some name, size := size.toNat }] := by
  rw [create] at h
  cases hfile : newFile name size limits with
  | error fault => rw [hfile] at h; cases h
  | ok file =>
      rw [hfile] at h
      cases h
      obtain ⟨rfl, hmappable⟩ := eq_of_newFile hfile
      have hlength : (List.replicate size.toNat (0 : UInt8)).length = size.toNat :=
        List.length_replicate
      refine ⟨⟨hlength, Nat.le_trans (Nat.le_of_eq hlength) hmappable,
        fun mapping hmapping => ?_, fun p hp => ?_⟩, by rw [hlength]⟩
      · rw [List.mem_singleton.1 hmapping]
        exact Nat.le_of_eq hlength
      · show (List.replicate size.toNat (0 : UInt8))[p]? = some 0
        rw [List.getElem?_replicate, if_pos hp]

theorem coherent_run (h : Coherent size [] m) (ops : List Op) :
    Coherent size (m.run ops).events (m.run ops).state :=
  Turn.run_trail (O := fun _ => True) (P := fun _ events m => Coherent size events m) h
    (fun _ op _ h => coherent_turn h op) (fun _ _ => trivial)

theorem Coherent.slice (h : Coherent size events m) {offset length : Nat}
    (hfits : offset + length ≤ size) :
    slice m.file offset length = (List.range' offset length).map (lastByte events) := by
  have hlength : (Parcel.slice m.file offset length).length = length :=
    length_slice (by rw [h.length]; exact hfits)
  refine List.ext_getElem? fun i => ?_
  by_cases hi : i < length
  · rw [Parcel.slice, List.getElem?_take_of_lt hi, List.getElem?_drop, h.bytes _ (by omega),
      List.getElem?_map, List.getElem?_range' hi, Nat.one_mul, Option.map_some]
  · rw [List.getElem?_eq_none (by omega),
      List.getElem?_eq_none (by rw [List.length_map, List.length_range']; omega)]

/-- What a mapping shows is what was written last, through whichever mapping. -/
theorem Coherent.read? (h : Coherent size events m) {mapping : Mapping} {offset length : Nat}
    (hmapping : m.mappings[handle]? = some mapping) (hfits : offset + length ≤ mapping.size) :
    m.read? handle offset length = some ((List.range' offset length).map (lastByte events)) := by
  have hsize := h.mapped mapping (List.mem_of_getElem? hmapping)
  rw [← h.slice (Nat.le_trans hfits hsize)]
  simp only [SharedMemory.read?, Option.bind_eq_bind, Option.bind_eq_some_iff,
    Option.guard_eq_some', exists_const, Option.pure_def]
  exact ⟨mapping, hmapping, hfits, trivial⟩

/-- However often a file is mapped, from whichever mapping, and whatever is written through
any of them: it can be mapped with just the sizes from one up to its own, a refusal is one of
the segment and changes nothing, no mapping is ever longer than the file, and each mapping
shows at each of its positions the byte that was written there last, through whichever
mapping, or zero. What lies inside a mapping can be written through it. That holds whatever
the limits of the system are, for it put up with the longest of the mappings at the start. -/
theorem mappings_coherent {name : String} {size : UInt64} {limits : SystemLimits}
    (hm : create name size limits = .ok m) (ops : List Op) :
    let r := m.run ops
    m.mappings = [{ name := some name, size := size.toNat }] ∧
    (∀ handle requested, handle < r.state.mappings.length →
      ((∃ m', r.state.map handle requested = .ok m') ↔
        1 ≤ requested.toNat ∧ requested.toNat ≤ size.toNat) ∧
      (∀ m', r.state.map handle requested = .ok m' →
        m' = { r.state with
          mappings := r.state.mappings ++ [{ name := none, size := requested.toNat }] }) ∧
      (¬ (1 ≤ requested.toNat ∧ requested.toNat ≤ size.toNat) →
        ∃ cause, r.state.turn (.map handle requested) =
          ⟨.mapped handle requested (.error (.segment cause)), r.state, []⟩)) ∧
    (∀ handle mapping offset payload, r.state.mappings[handle]? = some mapping →
      offset + payload.length ≤ mapping.size →
      ∃ m', r.state.turn (.write handle offset payload) =
        ⟨.wrote handle offset payload true, m', []⟩ ∧ m'.mappings = r.state.mappings) ∧
    (∀ mapping ∈ r.state.mappings, mapping.size ≤ size.toNat) ∧
    ∀ handle mapping offset length, r.state.mappings[handle]? = some mapping →
      offset + length ≤ mapping.size →
      r.state.read? handle offset length =
        some ((List.range' offset length).map (lastByte r.events)) := by
  intro r
  obtain ⟨hnew, hfirst⟩ := coherent_create hm
  have hcoherent : Coherent size.toNat r.events r.state := coherent_run hnew ops
  refine ⟨hfirst, fun handle requested hhandle => ⟨?_, fun m' hmap => ?_, fun hmisfit => ?_⟩,
    fun handle mapping offset payload hmapping hfits => ?_, hcoherent.mapped,
    fun handle mapping offset length => hcoherent.read?⟩
  · simp only [map_ok_iff hhandle hcoherent.mappable, hcoherent.length, exists_and_left,
      exists_eq, and_true]
  · exact ((map_ok_iff hhandle hcoherent.mappable).1 hmap).2
  · rw [← hcoherent.length] at hmisfit
    obtain ⟨cause, hmap⟩ := map_of_misfit hhandle hmisfit
    exact ⟨cause, by rw [turn, hmap]⟩
  · have hwrite := write?_eq_some_iff.2 ⟨mapping, hmapping, hfits, rfl⟩
    exact ⟨{ r.state with file := splice r.state.file offset payload }, by rw [turn, hwrite], rfl⟩

/-- A file of six bytes. The second mapping shows half of it, the third one, made from the
second, all of it. Each byte is the last one of those written there through the three. -/
theorem mappings_coherent_overlapping :
    ∃ m, create "ferry" 6 = .ok m ∧
      let r := m.run [.map 0 3, .write 0 1 [1, 2, 3, 4], .write 1 2 [9], .map 1 6, .map 1 7,
        .write 2 5 [7], .write 1 2 [8, 8]]
      r.state.mappings.map Mapping.size = [6, 3, 6] ∧
      (∃ cause, (r.state.turn (.map 1 7)).event = .mapped 1 7 (.error (.segment cause))) ∧
      r.state.read? 2 0 6 = some [0, 1, 9, 3, 4, 7] ∧ r.state.read? 1 0 3 = some [0, 1, 9] := by
  obtain ⟨m, hm⟩ : ∃ m, create "ferry" 6 = .ok m := ⟨_, rfl⟩
  refine ⟨m, hm, ?_⟩
  intro r
  obtain ⟨-, hmaps, -, -, hreads⟩ := mappings_coherent hm [.map 0 3, .write 0 1 [1, 2, 3, 4],
    .write 1 2 [9], .map 1 6, .map 1 7, .write 2 5 [7], .write 1 2 [8, 8]]
  cases hm
  obtain ⟨cause, hrefused⟩ := (hmaps 1 7 (by decide)).2.2 (by decide)
  exact ⟨rfl, ⟨cause, congrArg Turn.event hrefused⟩,
    hreads 2 ⟨none, 6⟩ 0 6 rfl (by decide), hreads 1 ⟨none, 3⟩ 0 3 rfl (by decide)⟩

end Parcel.SharedMemory
