import Parcel.Proofs.AllocatorReach
import Parcel.Proofs.PackerRoundTrip

/-!
# Access that is granted once and for all

A segment may grant access when it is obtained and refuse it when it is to be
filled. The packer notices that, but only after the segment has joined the list.
Memory of the usual kinds does no such thing: it can be written for ever or not
at all, and it can be known from the first answer which of the two it is
(`Segment.Steady`).

An allocator is steady if all that it will ever answer with is, whatever requests
it has met by then. What a packer over such an allocator has been granted once it
can go on filling, and that is an invariant (`Writable`). Two ways for a write
to end are thereby closed: no payload is withdrawn from the chunk that was opened
for it, and no large segment is let go. A write that fails then fails before the
lists are touched (`Writable.write_error`), and if it complains of a segment, it
passes on what the allocator said (`Writable.write_segment_fault`).
-/

namespace Parcel

namespace Segment

variable {s : Segment}

/-- From now on every request is answered like the next one, whatever the segment holds by
then. -/
def Steady (s : Segment) : Prop :=
  ∀ n bytes, s.asked ≤ n → s.grants n bytes = s.grants s.asked s.bytes

/-- From now on every request is granted. -/
def Writable (s : Segment) : Prop := ∀ n bytes, s.asked ≤ n → s.grants n bytes = true

theorem Steady.writable (h : s.Steady) (hgrant : s.requestAccess.1 = true) : s.Writable := by
  intro n bytes hn
  rw [h n bytes hn]
  exact hgrant

theorem Writable.not_refused (h : s.Writable) : s.requestAccess.1 ≠ false :=
  Bool.ne_false_iff.2 (h s.asked s.bytes (Nat.le_refl _))

theorem Writable.requestAccess (h : s.Writable) : s.requestAccess.2.Writable :=
  fun n bytes hn => h n bytes (Nat.le_of_succ_le hn)

/-- Access is not a matter of the bytes. -/
theorem Writable.overwrite (h : s.Writable) (offset : Nat) (payload : List UInt8) :
    (s.overwrite offset payload).Writable := h

theorem steady_ofBytes (bytes : List UInt8) : (ofBytes bytes).Steady :=
  fun _ _ _ => rfl

end Segment

/-- All segments that the allocator will ever answer with stay as they are. -/
def Allocator.Steady {α : Type} [Allocator α] (a : α) : Prop := Yields Segment.Steady a

/-! ## Packers over a steady allocator -/

namespace Packer

/-- An allocator may refuse, and be steady in what it gives. -/
theorem steady_stuttering : Allocator.Steady stuttering := by
  refine Scripted.yields fun call size segment hanswer => ?_
  obtain ⟨bytes, rfl⟩ := ofBytes_of_stuttering hanswer
  exact Segment.steady_ofBytes bytes

variable {α : Type} [Allocator α]

/-- The current chunk can be filled for as long as it has room, and so can every
chunk that comes after it. -/
structure Writable (p : Packer α) : Prop where
  allocator : Allocator.Steady p.allocator
  current : ∀ chunk, p.current = some chunk → chunk.segment.Writable

variable {p p' : Packer α} {chunk : Chunk} {payload : List UInt8}

theorem writable_emptied (h : Allocator.Steady p.allocator) : p.emptied.Writable where
  allocator := h
  current chunk hchunk := by cases hchunk

/-- A segment was obtained because it granted access, and it will not go back on it. -/
theorem Writable.acquired (h : p.Writable) {cls : SegmentClass} {size : Nat}
    {segment : Segment} {entries : List Entry}
    (hacquire : p.acquire cls size = ⟨.ok segment, p', entries⟩) : segment.Writable := by
  obtain ⟨answered, _, hanswer, _, hgrant, rfl, _, _⟩ := acquire_ok hacquire
  have hsteady := h.allocator _ _ answered .refl (congrArg Prod.fst hanswer)
  exact (hsteady.writable hgrant).requestAccess

theorem Writable.opens (h : p.Writable) {n : Nat} {entries : List Entry}
    (hopen : Opens p n p' chunk entries) : chunk.segment.Writable := by
  cases hopen with
  | roomy _ hchunk _ => exact h.current chunk hchunk
  | fresh segment allocator _ _ _ hacquire => exact h.acquired hacquire

/-- Neither does a large segment refuse what it has granted. So a refusal is made before
anything is asked for, or it is a request that fails. -/
theorem Writable.refuses (h : p.Writable) {fault : Fault} {allocator : α}
    {entries : List Entry} (hrefuses : Refuses p payload fault allocator entries) :
    (entries = [] ∧ ∀ cause, fault ≠ .segment cause) ∨
      ∃ cls size, p.acquire cls size = ⟨.error fault, { p with allocator }, entries⟩ := by
  cases hrefuses with
  | tooLong _ => exact .inl ⟨rfl, by simp⟩
  | smallIndex _ _ _ => exact .inl ⟨rfl, by simp⟩
  | largeIndex _ _ => exact .inl ⟨rfl, by simp⟩
  | smallSegment _ _ _ _ _ _ hacquire => exact .inr ⟨_, _, hacquire⟩
  | largeSegment _ _ _ _ _ _ hacquire => exact .inr ⟨_, _, hacquire⟩
  | largeAccess segment _ _ _ _ _ hacquire hgrant =>
      exact absurd hgrant (h.acquired hacquire).not_refused

theorem Writable.refuses_segment (h : p.Writable) {cause : SegmentFault} {allocator : α}
    {entries : List Entry} (hrefuses : Refuses p payload (.segment cause) allocator entries) :
    ∃ cls size, entries = [.allocationFailed cls size (.segment cause)] := by
  rcases h.refuses hrefuses with ⟨-, hfault⟩ | ⟨cls, size, hacquire⟩
  · exact absurd rfl (hfault cause)
  · have hacquires := acquire_acquires p cls size
    rw [hacquire] at hacquires
    cases hacquires with
    | failed _ _ _ => exact ⟨cls, size, rfl⟩

/-- A write that fails has not got as far as the lists. -/
theorem Writable.write_error (h : p.Writable) {fault : Fault}
    (hfailed : (p.write payload).answer = .error fault) :
    ∃ allocator entries, Refuses p payload fault allocator entries ∧
      p.write payload = ⟨.error fault, { p with allocator }, entries⟩ := by
  have hwrites := write_writes p payload
  generalize p.write payload = o at hwrites hfailed
  cases hwrites with
  | empty _ => cases hfailed
  | refused _ allocator entries _ hrefuses =>
      cases hfailed
      exact ⟨allocator, entries, hrefuses, rfl⟩
  | placed _ _ _ _ _ _ _ => cases hfailed
  | withdrawn p' chunk _ _ _ hopen hgrant =>
      exact absurd hgrant (h.opens hopen).not_refused
  | stored _ _ _ _ _ _ _ _ => cases hfailed

/-- A segment that the packer has been given never lets it down. If a write
complains of a segment all the same, these are the words of the allocator. -/
theorem Writable.write_segment_fault (h : p.Writable) {cause : SegmentFault}
    (hfailed : (p.write payload).answer = .error (.segment cause)) :
    ∃ cls size, (p.write payload).entries = [.allocationFailed cls size (.segment cause)] := by
  obtain ⟨allocator, entries, hrefuses, hwrite⟩ := h.write_error hfailed
  rw [hwrite]
  exact h.refuses_segment hrefuses

theorem writable_write (h : p.Writable) (payload : List UInt8) :
    (p.write payload).state.Writable := by
  refine ⟨h.allocator.reaches (reaches_write p payload), fun chunk' hchunk' => ?_⟩
  have hwrites := write_writes p payload
  generalize p.write payload = o at hwrites hchunk'
  cases hwrites with
  | empty _ => exact h.current chunk' hchunk'
  | refused _ _ _ _ _ => exact h.current chunk' hchunk'
  | placed p' chunk _ _ _ hopen _ =>
      cases hchunk'
      exact (h.opens hopen).requestAccess.overwrite _ _
  | withdrawn p' chunk _ _ _ hopen _ =>
      cases hchunk'
      exact (h.opens hopen).requestAccess
  | stored _ _ _ _ _ _ _ _ => exact h.current chunk' hchunk'

end Packer

end Parcel
