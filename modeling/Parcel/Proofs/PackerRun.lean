import Parcel.Proofs.Bytes
import Parcel.Proofs.PackerStep

/-!
# Packers stay well formed

`turn` puts the four operations of a packer under one roof, so that a run can
interleave them in any order, and `Wf` is what holds of a packer all the time:
the chunk that is being filled has room for all that is said to be in it, every
segment is as long as the payloads in it need, and every segment has an index
that fits in an address.

The allocator plays no part in `Wf`. Whatever it answers, and whenever a
segment stops granting access, a write keeps the invariant (`wf_write`), and so
does every run (`wf_run`).
-/

namespace Parcel.Packer

variable {α : Type}

inductive Op : Type 1
  | write (payload : List UInt8)
  | writeValues {β : Type} [Packed β] (values : List β)
  | flush
  | clear

/-- What the caller of an operation sees. -/
inductive Event
  | wrote (payload : List UInt8) (answer : Except Fault Address)
  | flushed (segments : Segments)
  | cleared

/-- The bytes that an operation writes, if it writes. -/
def Op.payload? : Op → Option (List UInt8)
  | .write payload => some payload
  | @Op.writeValues _ _ values => some (Packed.packAll values)
  | .flush | .clear => none

theorem Op.kinds (op : Op) :
    (∃ payload, op.payload? = some payload) ∨ op = .flush ∨ op = .clear := by
  cases op with
  | write payload => exact .inl ⟨payload, rfl⟩
  | writeValues values => exact .inl ⟨Packed.packAll values, rfl⟩
  | flush => exact .inr (.inl rfl)
  | clear => exact .inr (.inr rfl)

def Event.IsWrite : Event → Prop
  | .wrote .. => True
  | .flushed _ | .cleared => False

def turn [Allocator α] (p : Packer α) : Op → Turn (Packer α) Event
  | .write payload =>
    let o := p.write payload
    ⟨.wrote payload o.answer, o.state, o.entries⟩
  | @Op.writeValues _ _ values =>
    let o := p.writeValues values
    ⟨.wrote (Packed.packAll values) o.answer, o.state, o.entries⟩
  | .flush => ⟨.flushed p.flush.1, p.flush.2.1, p.flush.2.2⟩
  | .clear => ⟨.cleared, p.clear.1, p.clear.2⟩

def run [Allocator α] (p : Packer α) (ops : List Op) : Run (Packer α) Event :=
  Turn.run turn p ops

/-- Writing values is writing their bytes. -/
theorem turn_of_payload [Allocator α] {p : Packer α} {op : Op} {payload : List UInt8}
    (h : op.payload? = some payload) :
    p.turn op = ⟨.wrote payload (p.write payload).answer, (p.write payload).state,
      (p.write payload).entries⟩ := by
  cases op with
  | write _ => cases h; rfl
  | writeValues values => cases h; rfl
  | flush => cases h
  | clear => cases h

/-- A turn that shows a write wrote just that payload. -/
theorem payload?_of_event [Allocator α] {p : Packer α} {op : Op} {payload : List UInt8}
    {answer : Except Fault Address} (h : (p.turn op).event = .wrote payload answer) :
    op.payload? = some payload := by
  cases op with
  | write _ => cases h; rfl
  | writeValues values => cases h; rfl
  | flush => cases h
  | clear => cases h

/-- A turn that shows no write leaves the packer empty. -/
theorem state_of_no_payload [Allocator α] {p : Packer α} {op : Op}
    (h : op.payload? = none) : (p.turn op).state = p.emptied := by
  cases op with
  | write _ => cases h
  | writeValues _ => cases h
  | flush => rfl
  | clear => rfl

/-- A turn that shows a write is a write. -/
theorem payload?_of_isWrite [Allocator α] {p : Packer α} {op : Op}
    (h : (p.turn op).event.IsWrite) : ∃ payload, op.payload? = some payload := by
  cases op with
  | write payload => exact ⟨payload, rfl⟩
  | writeValues values => exact ⟨Packed.packAll values, rfl⟩
  | flush => cases h
  | clear => cases h

/-- A flush hands over the lists as they are. -/
theorem segments_of_flushed [Allocator α] {p : Packer α} {op : Op} {s : Segments}
    (h : (p.turn op).event = .flushed s) : s = p.segments := by
  cases op with
  | write _ => cases h
  | writeValues _ => cases h
  | flush => cases h; rfl
  | clear => cases h

/-! ## The lists while a chunk is open -/

theorem small_of_current {p : Packer α} {chunk : Chunk} (h : p.current = some chunk) :
    p.small = p.filled ++ [chunk.segment] := by
  simp [small, h]

/-- An element of a list that one was put behind. -/
theorem getElem?_concat_cases {β : Type} {l : List β} {a b : β} {i : Nat}
    (h : (l ++ [a])[i]? = some b) : l[i]? = some b ∨ i = l.length ∧ b = a := by
  rcases Nat.lt_or_ge i l.length with hold | hlast
  · rw [List.getElem?_append_left hold] at h
    exact .inl h
  · have hbound := (List.getElem?_eq_some_iff.1 h).1
    rw [List.length_append, List.length_singleton] at hbound
    have heq : i = l.length := by omega
    rw [heq, List.getElem?_concat_length] at h
    cases h
    exact .inr ⟨heq, rfl⟩

theorem getElem?_small_current {p : Packer α} {chunk : Chunk} (h : p.current = some chunk) :
    p.small[p.filled.length]? = some chunk.segment := by
  rw [small_of_current h, List.getElem?_concat_length]

theorem cursor_of_current {p : Packer α} {chunk : Chunk} (h : p.current = some chunk) :
    p.cursor = chunk.used := by
  simp [cursor, h]

/-- Asking for access and laying a payload down that fits changes no length. -/
theorem size_filled {segment : Segment} {offset : Nat} {payload : List UInt8}
    (h : offset + payload.length ≤ segment.size) :
    (segment.requestAccess.2.overwrite offset payload).size = segment.size :=
  (Segment.size_overwrite h).trans (Segment.size_requestAccess segment)

/-! ## The invariant -/

structure Wf (p : Packer α) : Prop where
  cursor_le : p.cursor ≤ p.chunkSize.bytes
  small_size : ∀ segment ∈ p.small, p.chunkSize.bytes ≤ segment.size
  large_size : ∀ segment ∈ p.large, p.chunkSize.bytes < segment.size
  small_count : p.small.length ≤ UInt32.size
  large_count : p.large.length ≤ UInt32.size

theorem wf_emptied (p : Packer α) : p.emptied.Wf where
  cursor_le := Nat.zero_le _
  small_size segment h := by cases h
  large_size segment h := by cases h
  small_count := Nat.zero_le _
  large_count := Nat.zero_le _

/-- A new packer holds nothing, and its chunks are as long as was asked for. -/
theorem eq_of_ofSize {allocator : α} {size : UInt64} {p : Packer α}
    (h : ofSize allocator size = .ok p) :
    ∃ chunkSize : ChunkSize, chunkSize.bytes = size.toNat ∧ p = { allocator, chunkSize } := by
  rw [ofSize] at h
  cases hsize : ChunkSize.ofSize size with
  | error fault => rw [hsize] at h; cases h
  | ok chunkSize =>
      rw [hsize] at h
      rw [ChunkSize.ofSize] at hsize
      split at hsize
      · split at hsize
        · cases hsize
          cases h
          exact ⟨_, rfl, rfl⟩
        · cases hsize
      · cases hsize

/-- A new packer is as an emptied one. -/
theorem emptied_of_ofSize {allocator : α} {size : UInt64} {p : Packer α}
    (h : ofSize allocator size = .ok p) : p.emptied = p := by
  obtain ⟨_, _, rfl⟩ := eq_of_ofSize h
  rfl

theorem chunkSize_of_ofSize {allocator : α} {size : UInt64} {p : Packer α}
    (h : ofSize allocator size = .ok p) : p.chunkSize.bytes = size.toNat := by
  obtain ⟨_, hsize, rfl⟩ := eq_of_ofSize h
  exact hsize

theorem allocator_of_ofSize {allocator : α} {size : UInt64} {p : Packer α}
    (h : ofSize allocator size = .ok p) : p.allocator = allocator := by
  obtain ⟨_, _, rfl⟩ := eq_of_ofSize h
  rfl

theorem wf_ofSize {allocator : α} {size : UInt64} {p : Packer α}
    (h : ofSize allocator size = .ok p) : p.Wf := by
  rw [← emptied_of_ofSize h]
  exact wf_emptied p

/-- The allocator plays no part. -/
theorem Wf.allocator {p : Packer α} (h : p.Wf) (allocator : α) :
    Wf { p with allocator } where
  cursor_le := h.cursor_le
  small_size := h.small_size
  large_size := h.large_size
  small_count := h.small_count
  large_count := h.large_count

/-- The segment of the current chunk is as long as a chunk. -/
theorem Wf.current_size {p : Packer α} (h : p.Wf) {chunk : Chunk}
    (hchunk : p.current = some chunk) : p.chunkSize.bytes ≤ chunk.segment.size :=
  h.small_size _ (by simp [small_of_current hchunk])

/-- The index of the current chunk fits in an address. -/
theorem Wf.filled_lt {p : Packer α} (h : p.Wf) {chunk : Chunk}
    (hchunk : p.current = some chunk) : p.filled.length < UInt32.size := by
  have hcount := h.small_count
  rw [small_of_current hchunk, List.length_append, List.length_singleton] at hcount
  omega

/-- Filling the current chunk further, or asking its segment for access. -/
theorem Wf.refill {p : Packer α} (h : p.Wf) {chunk chunk' : Chunk}
    (hchunk : p.current = some chunk) (hsize : chunk'.segment.size = chunk.segment.size)
    (hused : chunk'.used ≤ p.chunkSize.bytes) : Wf { p with current := some chunk' } where
  cursor_le := hused
  small_size segment hmem := by
    rcases List.mem_append.1 hmem with hfilled | hlast
    · exact h.small_size segment (List.mem_append_left _ hfilled)
    · rw [List.mem_singleton.1 hlast, hsize]
      exact h.current_size hchunk
  large_size := h.large_size
  small_count := by
    have hcount := h.small_count
    rw [small_of_current hchunk] at hcount
    simpa [small] using hcount
  large_count := h.large_count

section

variable [Allocator α]

/-- Opening a chunk leaves a well-formed packer with that chunk as its current
one and with room in it, and touches neither the large list nor the chunk size. -/
theorem Opens.wf {p p' : Packer α} {n : Nat} {chunk : Chunk} {entries : List Entry}
    (h : Opens p n p' chunk entries) (hp : p.Wf) (hn : n ≤ p.chunkSize.bytes) :
    p'.Wf ∧ p'.current = some chunk ∧ chunk.used + n ≤ p'.chunkSize.bytes := by
  cases h with
  | roomy _ hchunk hroom =>
      have hcursor := hp.cursor_le
      rw [cursor_of_current hchunk] at hcursor
      exact ⟨hp, hchunk, by omega⟩
  | fresh segment allocator _ _ hindex hacquire =>
      have hsize : p.chunkSize.bytes ≤ segment.size := size_of_acquire_ok hacquire
      refine ⟨⟨Nat.zero_le _, ?_, hp.large_size, ?_, hp.large_count⟩, rfl, by simpa using hn⟩
      · intro s hmem
        rcases List.mem_append.1 hmem with hold | hnew
        · exact hp.small_size s hold
        · rw [List.mem_singleton.1 hnew]
          exact hsize
      · show (p.small ++ [segment]).length ≤ UInt32.size
        rw [List.length_append, List.length_singleton]
        omega

/-- A write keeps the invariant, however it ends. -/
theorem wf_write {p : Packer α} (hp : p.Wf) (payload : List UInt8) :
    (p.write payload).state.Wf := by
  have h := write_writes p payload
  generalize p.write payload = o at h
  cases h with
  | empty _ => exact hp
  | refused _ allocator _ _ _ => exact hp.allocator allocator
  | placed p' chunk _ _ hfit hopen _ =>
      obtain ⟨hp', hchunk, hroom⟩ := hopen.wf hp hfit
      have hlong := hp'.current_size hchunk
      exact hp'.refill hchunk (size_filled (by omega)) hroom
  | withdrawn p' chunk _ _ hfit hopen _ =>
      obtain ⟨hp', hchunk, hroom⟩ := hopen.wf hp hfit
      exact hp'.refill hchunk rfl (by show chunk.used ≤ _; omega)
  | stored segment allocator _ hlong _ hindex hacquire _ =>
      have hsize : payload.length ≤ segment.size := size_of_acquire_ok hacquire
      refine ⟨hp.cursor_le, hp.small_size, ?_, hp.small_count, ?_⟩
      · intro s hmem
        rcases List.mem_append.1 hmem with hold | hnew
        · exact hp.large_size s hold
        · rw [List.mem_singleton.1 hnew, size_filled (by omega)]
          exact Nat.lt_of_lt_of_le hlong hsize
      · show (p.large ++ [_]).length ≤ UInt32.size
        rw [List.length_append, List.length_singleton]
        omega

theorem wf_turn {p : Packer α} (hp : p.Wf) (op : Op) : (p.turn op).state.Wf := by
  cases hpayload : op.payload? with
  | none =>
      rw [state_of_no_payload hpayload]
      exact wf_emptied p
  | some payload =>
      rw [turn_of_payload hpayload]
      exact wf_write hp payload

theorem Opens.chunkSize {p p' : Packer α} {n : Nat} {chunk : Chunk} {entries : List Entry}
    (h : Opens p n p' chunk entries) : p'.chunkSize = p.chunkSize := by
  cases h with
  | roomy _ _ _ => rfl
  | fresh _ _ _ _ _ _ => rfl

theorem Opens.large {p p' : Packer α} {n : Nat} {chunk : Chunk} {entries : List Entry}
    (h : Opens p n p' chunk entries) : p'.large = p.large := by
  cases h with
  | roomy _ _ _ => rfl
  | fresh _ _ _ _ _ _ => rfl

/-- The chunk size is settled once and for all. -/
theorem chunkSize_write (p : Packer α) (payload : List UInt8) :
    (p.write payload).state.chunkSize = p.chunkSize := by
  have h := write_writes p payload
  generalize p.write payload = o at h
  cases h with
  | empty _ => rfl
  | refused _ _ _ _ _ => rfl
  | placed _ _ _ _ _ hopen _ => exact hopen.chunkSize
  | withdrawn _ _ _ _ _ hopen _ => exact hopen.chunkSize
  | stored _ _ _ _ _ _ _ _ => rfl

theorem chunkSize_turn (p : Packer α) (op : Op) : (p.turn op).state.chunkSize = p.chunkSize := by
  cases hpayload : op.payload? with
  | none => rw [state_of_no_payload hpayload]; rfl
  | some payload => rw [turn_of_payload hpayload]; exact chunkSize_write p payload

theorem chunkSize_run (p : Packer α) (ops : List Op) :
    (p.run ops).state.chunkSize = p.chunkSize := by
  rw [run]
  exact Turn.run_invariant (P := fun q => q.chunkSize = p.chunkSize) (s := p)
    (fun q op h => (chunkSize_turn q op).trans h) rfl ops

theorem wf_run {p : Packer α} (hp : p.Wf) (ops : List Op) : (p.run ops).state.Wf := by
  rw [run]
  exact Turn.run_invariant (P := Wf) (fun _ op h => wf_turn h op) hp ops

end

end Parcel.Packer
