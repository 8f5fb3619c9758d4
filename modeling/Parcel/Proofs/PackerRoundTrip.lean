import Parcel.Proofs.PackerRun
import Parcel.Proofs.Reading

/-!
# A written payload is found after the flush

The address that a write answers with is of use only after the next flush, and
in between the packer goes on: it fills the same segment further, closes it,
starts others, fails. What makes the address good all the same is `Holds`: the
packer's own lists already resolve the address to the payload, and nothing is
written in front of the cursor any more.

A successful write establishes `Holds` for its own payload (`holds_written`),
and every write, successful or not, keeps it for the payloads written before
(`Holds.write`). A flush hands over the lists as they are, so that the address
resolves in what it hands over (`written_payload_resolves`).
-/

namespace Parcel.Packer

variable {α : Type}

/-- The packer has put `payload` where the address `a` says, and goes on
writing behind it. -/
structure Holds (p : Packer α) (a : Address) (payload : List UInt8) : Prop where
  names : p.segments.Names a payload
  behind : a.length ≠ 0 → a.cls = .small → a.index.toNat = p.filled.length →
    a.stop ≤ p.cursor

theorem Holds.resolve {p : Packer α} {a : Address} {payload : List UInt8}
    (h : p.Holds a payload) : p.segments.resolve a = .ok payload :=
  Segments.resolve_eq_ok_iff.2 h.names

theorem holds_empty (p : Packer α) : p.Holds .empty [] where
  names := .empty rfl
  behind hlength := absurd rfl hlength

theorem Holds.allocator {p : Packer α} {a : Address} {payload : List UInt8}
    (h : p.Holds a payload) (allocator : α) : Holds { p with allocator } a payload where
  names := h.names
  behind := h.behind

/-- A small address lies in a closed segment, or in the current chunk in front
of the cursor. -/
theorem Holds.small_cases {p : Packer α} {a : Address} {payload : List UInt8}
    {chunk : Chunk} {segment : Segment} (h : p.Holds a payload) (hlength : a.length ≠ 0)
    (hcls : a.cls = .small) (hchunk : p.current = some chunk)
    (hindex : p.small[a.index.toNat]? = some segment) :
    p.filled[a.index.toNat]? = some segment ∨
      a.index.toNat = p.filled.length ∧ segment = chunk.segment ∧ a.stop ≤ chunk.used := by
  rw [small_of_current hchunk] at hindex
  rcases getElem?_concat_cases hindex with hclosed | ⟨hlast, rfl⟩
  · exact .inl hclosed
  · have hbehind := h.behind hlength hcls hlast
    rw [cursor_of_current hchunk] at hbehind
    exact .inr ⟨hlast, rfl, hbehind⟩

/-- Filling the current chunk further keeps all that lies in front of its
cursor, and so all that the packer holds. -/
theorem Holds.refill {p : Packer α} {a : Address} {payload : List UInt8}
    {chunk chunk' : Chunk} (h : p.Holds a payload) (hchunk : p.current = some chunk)
    (hsize : chunk'.segment.size = chunk.segment.size) (hused : chunk.used ≤ chunk'.used)
    (hfront : ∀ start length, start + length ≤ chunk.used →
      slice chunk'.segment.bytes start length = slice chunk.segment.bytes start length) :
    Holds { p with current := some chunk' } a payload := by
  constructor
  · cases h.names with
    | empty hempty => exact .empty hempty
    | small segment hlength hcls hindex hstop =>
        rcases h.small_cases hlength hcls hchunk hindex with hclosed | ⟨hlast, rfl, hbehind⟩
        · refine .small segment hlength hcls ?_ hstop
          have hbound := (List.getElem?_eq_some_iff.1 hclosed).1
          show (p.filled ++ [chunk'.segment])[a.index.toNat]? = some segment
          rw [List.getElem?_append_left hbound, hclosed]
        · rw [← hfront a.offset.toNat a.length.toNat hbehind]
          refine .small chunk'.segment hlength hcls ?_ (by rw [hsize]; exact hstop)
          show (p.filled ++ [chunk'.segment])[a.index.toNat]? = some chunk'.segment
          rw [hlast, List.getElem?_concat_length]
    | large segment hlength hcls hindex hoffset hlarge =>
        exact .large segment hlength hcls hindex hoffset hlarge
  · intro hlength hcls hindex
    have hbehind := h.behind hlength hcls hindex
    rw [cursor_of_current hchunk] at hbehind
    exact Nat.le_trans hbehind hused

/-- Closing the current chunk keeps what the packer holds: the fresh chunk takes
an index that no address names yet. -/
theorem Holds.rotate {p : Packer α} {a : Address} {payload : List UInt8}
    (h : p.Holds a payload) (allocator : α) (fresh : Chunk) :
    Holds { p with allocator, filled := p.small, current := some fresh } a payload := by
  constructor
  · cases h.names with
    | empty hempty => exact .empty hempty
    | small segment hlength hcls hindex hstop =>
        refine .small segment hlength hcls ?_ hstop
        have hbound := (List.getElem?_eq_some_iff.1 hindex).1
        exact (List.getElem?_append_left hbound).trans hindex
    | large segment hlength hcls hindex hoffset hlarge =>
        exact .large segment hlength hcls hindex hoffset hlarge
  · -- No address names the fresh chunk yet, for its index is the length of the old list.
    intro hlength hcls hlast
    exfalso
    have hbound : a.index.toNat < p.small.length := by
      cases h.names with
      | empty hempty => exact absurd hempty hlength
      | small _ _ _ hindex _ => exact (List.getElem?_eq_some_iff.1 hindex).1
      | large _ _ hlarge _ _ _ => rw [hcls] at hlarge; cases hlarge
    exact Nat.ne_of_lt hbound hlast

/-- Another large segment takes an index that no address names yet. -/
theorem Holds.store {p : Packer α} {a : Address} {payload : List UInt8}
    (h : p.Holds a payload) (allocator : α) (segment : Segment) :
    Holds { p with allocator, large := p.large ++ [segment] } a payload := by
  refine ⟨?_, h.behind⟩
  cases h.names with
  | empty hempty => exact .empty hempty
  | small segment hlength hcls hindex hstop =>
      exact .small segment hlength hcls hindex hstop
  | large found hlength hcls hindex hoffset hlarge =>
      refine .large found hlength hcls ?_ hoffset hlarge
      have hbound := (List.getElem?_eq_some_iff.1 hindex).1
      exact (List.getElem?_append_left hbound).trans hindex

variable [Allocator α]

theorem Holds.opens {p p' : Packer α} {a : Address} {payload : List UInt8} {n : Nat}
    {chunk : Chunk} {entries : List Entry} (h : p.Holds a payload)
    (hopen : Opens p n p' chunk entries) : p'.Holds a payload := by
  cases hopen with
  | roomy _ _ _ => exact h
  | fresh segment allocator _ _ _ _ => exact h.rotate allocator ⟨segment, 0⟩

/-- A write, however it ends, keeps what was written before. -/
theorem Holds.write {p : Packer α} {a : Address} {payload : List UInt8} (hp : p.Wf)
    (h : p.Holds a payload) (other : List UInt8) :
    (p.write other).state.Holds a payload := by
  have hwrites := write_writes p other
  generalize p.write other = o at hwrites
  cases hwrites with
  | empty _ => exact h
  | refused _ allocator _ _ _ => exact h.allocator allocator
  | placed p' chunk _ _ hfit hopen _ =>
      obtain ⟨hp', hchunk, hroom⟩ := hopen.wf hp hfit
      have hlong := hp'.current_size hchunk
      have hfits : chunk.used + other.length ≤ chunk.segment.size := by omega
      refine (h.opens hopen).refill hchunk (size_filled hfits) (Nat.le_add_right ..) ?_
      intro start length hfront
      exact slice_splice_front hfront (Nat.le_trans (Nat.le_add_right ..) hfits)
  | withdrawn p' chunk _ _ hfit hopen _ =>
      obtain ⟨_, hchunk, _⟩ := hopen.wf hp hfit
      exact (h.opens hopen).refill hchunk rfl (Nat.le_refl _) (fun _ _ _ => rfl)
  | stored segment allocator _ _ _ _ _ _ => exact h.store allocator _

/-- A write that succeeds leaves its payload where its answer says. -/
theorem holds_written {p : Packer α} (hp : p.Wf) {payload : List UInt8} {a : Address}
    (ha : (p.write payload).answer = .ok a) : (p.write payload).state.Holds a payload := by
  have hwrites := write_writes p payload
  generalize p.write payload = o at hwrites ha
  cases hwrites with
  | empty hempty =>
      cases ha
      rw [hempty]
      exact holds_empty p
  | refused _ _ _ _ _ => cases ha
  | withdrawn _ _ _ _ _ _ _ => cases ha
  | placed p' chunk _ hne hfit hopen _ =>
      cases ha
      obtain ⟨hp', hchunk, hroom⟩ := hopen.wf hp hfit
      have haddressable := p'.chunkSize.addressable
      have hlong := hp'.current_size hchunk
      have hfits : chunk.used + payload.length ≤ chunk.segment.size := by omega
      have hoffset : chunk.used ≤ chunk.segment.bytes.length :=
        Nat.le_trans (Nat.le_add_right ..) hfits
      constructor
      · -- Nothing is lost in the words of the address: the chunk is in the list, and both
        -- the place and the payload lie in the chunk.
        refine Segments.names_inSmall List.getElem?_concat_length (hp'.filled_lt hchunk)
          (by omega) (by omega) ?_ (slice_splice hoffset)
        show _ ≤ (chunk.segment.requestAccess.2.overwrite chunk.used payload).size
        rw [size_filled hfits]
        exact hfits
      · intro _ _ _
        show (UInt32.ofNat chunk.used).toNat + (UInt32.ofNat payload.length).toNat ≤
          chunk.used + payload.length
        rw [UInt32.toNat_ofNat', UInt32.toNat_ofNat']
        exact Nat.add_le_add (Nat.mod_le ..) (Nat.mod_le ..)
  | stored segment allocator _ hlong hshort hindex hacquire _ =>
      cases ha
      have hfits : 0 + payload.length ≤ segment.size := by
        rw [Nat.zero_add]
        exact size_of_acquire_ok hacquire
      constructor
      · refine Segments.names_inLarge List.getElem?_concat_length hindex hshort ?_ ?_
        · rw [size_filled hfits]
          exact size_of_acquire_ok hacquire
        · show slice (splice segment.bytes 0 payload) 0 payload.length = payload
          exact slice_splice (Nat.zero_le _)
      · intro _ hcls
        cases hcls

/-! ## Runs -/

/-- Writes alone, however many and however they end, keep what was written. -/
theorem Holds.run {p : Packer α} {a : Address} {payload : List UInt8} {ops : List Op}
    (hp : p.Wf) (h : p.Holds a payload) (hwrites : ∀ e ∈ (p.run ops).events, e.IsWrite) :
    (p.run ops).state.Holds a payload := by
  rw [Packer.run] at hwrites ⊢
  refine (Turn.run_keeps (P := fun p => p.Wf ∧ p.Holds a payload) ?_ hwrites ⟨hp, h⟩).2
  rintro p op hwrite ⟨hp, h⟩
  obtain ⟨other, hother⟩ := payload?_of_isWrite hwrite
  refine ⟨wf_turn hp op, ?_⟩
  rw [turn_of_payload hother]
  exact h.write hp other

/-- The round trip. A payload that was written is read back from the segments
of the next flush, and from any copy of them, whatever was written in between,
with whatever success, and whatever is done afterwards. -/
theorem written_payload_resolves {allocator : α} {size : UInt64} {p : Packer α}
    {ops : List Op} {before between after : List Event} {payload : List UInt8}
    {a : Address} {s t : Segments} (hp : ofSize allocator size = .ok p)
    (hrun : (p.run ops).events =
      before ++ .wrote payload (.ok a) :: (between ++ .flushed s :: after))
    (hbetween : ∀ e ∈ between, e.IsWrite) (hcopy : s.SameBytes t) :
    t.resolve a = .ok payload ∧ t.read a = (.ok payload, []) ∧
      ∀ buffer, t.readOnto a buffer = ⟨.ok (), buffer ++ payload, []⟩ := by
  rw [run] at hrun
  obtain ⟨ops₁, op, ops₂, -, -, hwrote, hrest⟩ := Turn.run_split hrun
  have hp₁ : (Turn.run turn p ops₁).state.Wf := wf_run (wf_ofSize hp) ops₁
  generalize (Turn.run turn p ops₁).state = p₁ at hp₁ hwrote hrest
  have hpayload := payload?_of_event hwrote
  rw [turn_of_payload hpayload] at hwrote hrest
  simp only [Event.wrote.injEq, true_and] at hwrote
  -- The payload is held from the write on, and up to the flush there are only writes.
  have hholds := holds_written hp₁ hwrote
  obtain ⟨ops₃, op', ops₄, -, hshown, hflushed, -⟩ := Turn.run_split hrest
  rw [← hshown] at hbetween
  have hlast := hholds.run (wf_write hp₁ payload) hbetween
  have hresolve : t.resolve a = .ok payload := by
    rw [← Segments.resolve_congr hcopy, segments_of_flushed hflushed]
    exact hlast.resolve
  exact ⟨hresolve, Segments.read_of_resolve hresolve, Segments.readOnto_of_resolve hresolve⟩

/-- Answers the second request with a fault, and every other one with a segment
that is two bytes longer than asked for and full of sevens. -/
def stuttering : Scripted where
  answer call size :=
    if call = 1 then .error (.allocation (.other "none left"))
    else .ok (.ofBytes (List.replicate (size.toNat + 2) 7))

theorem ofBytes_of_stuttering {call : Nat} {size : UInt64} {segment : Segment}
    (h : stuttering.answer call size = .ok segment) : ∃ bytes, segment = .ofBytes bytes := by
  simp only [stuttering] at h
  split at h
  · cases h
  · cases h
    exact ⟨_, rfl⟩

/-- The first payload outlives a failed write, a chunk that is closed and a
large segment. -/
theorem written_payload_resolves_stuttering :
    ∃ p s, ofSize stuttering 4 = .ok p ∧
      (p.run [.write [1, 2, 3], .write [4, 5], .writeValues [(6 : UInt16)],
          .write [8, 8, 8, 8, 8], .flush, .write [9]]).events =
        [.wrote [1, 2, 3] (.ok (.inSmall 0 0 3)),
          .wrote [4, 5] (.error (.allocation (.other "none left"))),
          .wrote [6, 0] (.ok (.inSmall 1 0 2)),
          .wrote [8, 8, 8, 8, 8] (.ok (.inLarge 0 5)), .flushed s,
          .wrote [9] (.ok (.inSmall 0 0 1))] ∧
      s.copy.resolve (.inSmall 0 0 3) = .ok [1, 2, 3] := by
  obtain ⟨p, s, hp, hrun⟩ : ∃ p s, ofSize stuttering 4 = .ok p ∧
      (p.run [.write [1, 2, 3], .write [4, 5], .writeValues [(6 : UInt16)],
          .write [8, 8, 8, 8, 8], .flush, .write [9]]).events =
        [.wrote [1, 2, 3] (.ok (.inSmall 0 0 3)),
          .wrote [4, 5] (.error (.allocation (.other "none left"))),
          .wrote [6, 0] (.ok (.inSmall 1 0 2)),
          .wrote [8, 8, 8, 8, 8] (.ok (.inLarge 0 5)), .flushed s,
          .wrote [9] (.ok (.inSmall 0 0 1))] := ⟨_, _, rfl, rfl⟩
  have hwrites : ∀ e ∈ ([.wrote [4, 5] (.error (.allocation (.other "none left"))),
      .wrote [6, 0] (.ok (.inSmall 1 0 2)),
      .wrote [8, 8, 8, 8, 8] (.ok (.inLarge 0 5))] : List Event), e.IsWrite := by
    simp [Event.IsWrite]
  have hcopy := Segments.sameBytes_copy s
  exact ⟨p, s, hp, hrun,
    (@written_payload_resolves _ _ _ _ _ _ [] _ [_] _ _ _ _ hp hrun hwrites hcopy).1⟩

end Parcel.Packer
