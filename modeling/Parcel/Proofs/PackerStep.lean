import Parcel.Memory.Packer
import Parcel.Proofs.Runs

/-!
# What a packer can do

Every statement about packers follows from what a single write can come to, so
that is said once, here. `Writes p payload o` lists the outcomes of writing
`payload`, each with the guards that lead to it, and `write_writes` says that
the list is complete. No later proof opens the definition of `write`.

There are five outcomes. An empty payload costs nothing. A payload is *refused*
when something fails before the lists are touched; only the allocator has moved
on then. A small payload is *placed* in the chunk that is open for it, or
*withdrawn* when that chunk no longer grants access. A large payload is *stored*
in a segment of its own.

The chunk that is open for a small payload is the current one, or a fresh one if
there is too little room (`Opens`). A fresh one has joined the list before
anybody asks whether it still grants access, which is why being withdrawn is not
the same as being refused.
-/

namespace Parcel.Packer

variable {α : Type}

/-- There is no chunk with room for `n` more bytes. -/
def NeedsChunk (p : Packer α) (n : Nat) : Prop :=
  ∀ chunk, p.current = some chunk → p.chunkSize.bytes - chunk.used < n

theorem needsChunk_of_none {p : Packer α} (h : p.current = none) (n : Nat) :
    p.NeedsChunk n := by
  intro chunk hchunk
  rw [h] at hchunk
  cases hchunk

theorem needsChunk_of_full {p : Packer α} {chunk : Chunk} {n : Nat}
    (hchunk : p.current = some chunk) (hfull : ¬ n ≤ p.chunkSize.bytes - chunk.used) :
    p.NeedsChunk n := by
  intro chunk' hchunk'
  rw [hchunk] at hchunk'
  cases hchunk'
  omega

variable [Allocator α]

/-- What a request for a segment comes to. In every case the packer keeps all
that it holds, and only the allocator has moved on. -/
inductive Acquires (p : Packer α) (cls : SegmentClass) (size : Nat) :
    Outcome (Packer α) Segment → Prop
  | failed (fault : Fault) (allocator : α)
      (hanswer : Allocator.allocate p.allocator (.ofNat size) = (.error fault, allocator)) :
      Acquires p cls size
        ⟨.error fault, { p with allocator }, [.allocationFailed cls size fault]⟩
  | undersized (segment : Segment) (allocator : α)
      (hanswer : Allocator.allocate p.allocator (.ofNat size) = (.ok segment, allocator))
      (hsize : segment.size < size) :
      Acquires p cls size
        ⟨.error (.allocation (.undersized cls segment.size size)), { p with allocator },
          [.segmentRejected cls]⟩
  | readOnly (segment : Segment) (allocator : α)
      (hanswer : Allocator.allocate p.allocator (.ofNat size) = (.ok segment, allocator))
      (hsize : size ≤ segment.size) (hgrant : segment.requestAccess.1 = false) :
      Acquires p cls size
        ⟨.error (.allocation (.readOnly cls)), { p with allocator }, [.segmentRejected cls]⟩
  | granted (segment : Segment) (allocator : α)
      (hanswer : Allocator.allocate p.allocator (.ofNat size) = (.ok segment, allocator))
      (hsize : size ≤ segment.size) (hgrant : segment.requestAccess.1 = true) :
      Acquires p cls size
        ⟨.ok segment.requestAccess.2, { p with allocator },
          [.allocated cls size segment.size]⟩

theorem acquire_acquires (p : Packer α) (cls : SegmentClass) (size : Nat) :
    Acquires p cls size (p.acquire cls size) := by
  rw [acquire]
  split
  · next fault allocator hanswer => exact .failed fault allocator hanswer
  · next segment allocator hanswer =>
      split
      · next hsize => exact .undersized segment allocator hanswer hsize
      · next hsize =>
          have hsize' : size ≤ segment.size := Nat.le_of_not_lt hsize
          show Acquires p cls size (if segment.requestAccess.1 = true then _ else _)
          split
          · next hgrant => exact .granted segment allocator hanswer hsize' hgrant
          · next hgrant =>
              exact .readOnly segment allocator hanswer hsize' (Bool.eq_false_iff.2 hgrant)

/-- A segment was obtained: it is what the allocator answered, it is long enough,
and it granted access once. -/
theorem acquire_ok {p p' : Packer α} {cls : SegmentClass} {size : Nat}
    {segment : Segment} {entries : List Entry}
    (h : p.acquire cls size = ⟨.ok segment, p', entries⟩) :
    ∃ answered allocator,
      Allocator.allocate p.allocator (.ofNat size) = (.ok answered, allocator) ∧
      size ≤ answered.size ∧ answered.requestAccess.1 = true ∧
      segment = answered.requestAccess.2 ∧ p' = { p with allocator } ∧
      entries = [.allocated cls size answered.size] := by
  have hcases := acquire_acquires p cls size
  rw [h] at hcases
  cases hcases with
  | granted answered allocator hanswer hsize hgrant =>
      exact ⟨answered, allocator, hanswer, hsize, hgrant, rfl, rfl, rfl⟩

theorem size_of_acquire_ok {p p' : Packer α} {cls : SegmentClass} {size : Nat}
    {segment : Segment} {entries : List Entry}
    (h : p.acquire cls size = ⟨.ok segment, p', entries⟩) : size ≤ segment.size := by
  obtain ⟨answered, _, _, hsize, _, rfl, _, _⟩ := acquire_ok h
  exact hsize

/-- Whatever comes of it, a request leaves what the packer holds alone. -/
theorem acquire_state (p : Packer α) (cls : SegmentClass) (size : Nat) :
    ∃ allocator, (p.acquire cls size).state = { p with allocator } := by
  have h := acquire_acquires p cls size
  generalize p.acquire cls size = o at h
  cases h <;> exact ⟨_, rfl⟩

/-- The packer `p'` that a small payload of `n` bytes meets, and the chunk open
for it there. -/
inductive Opens (p : Packer α) (n : Nat) : Packer α → Chunk → List Entry → Prop
  | roomy (chunk : Chunk) (hchunk : p.current = some chunk)
      (hroom : n ≤ p.chunkSize.bytes - chunk.used) : Opens p n p chunk []
  | fresh (segment : Segment) (allocator : α) (entries : List Entry)
      (hneeds : p.NeedsChunk n) (hindex : p.small.length < UInt32.size)
      (hacquire : p.acquire .small p.chunkSize.bytes =
        ⟨.ok segment, { p with allocator }, entries⟩) :
      Opens p n { p with allocator, filled := p.small, current := some ⟨segment, 0⟩ }
        ⟨segment, 0⟩ entries

/-- What can go wrong before the lists are touched. The last cause is a large
segment that no longer grants access when it is to be filled: it is let go. -/
inductive Refuses (p : Packer α) (payload : List UInt8) : Fault → α → List Entry → Prop
  | tooLong (hlong : UInt32.size ≤ payload.length) :
      Refuses p payload (.allocation (.payloadTooLong payload.length)) p.allocator []
  | smallIndex (hfit : payload.length ≤ p.chunkSize.bytes)
      (hneeds : p.NeedsChunk payload.length) (hindex : ¬ p.small.length < UInt32.size) :
      Refuses p payload (.allocation .indexTooLarge) p.allocator []
  | largeIndex (hlong : p.chunkSize.bytes < payload.length)
      (hindex : ¬ p.large.length < UInt32.size) :
      Refuses p payload (.allocation .indexTooLarge) p.allocator []
  | smallSegment (fault : Fault) (allocator : α) (entries : List Entry)
      (hfit : payload.length ≤ p.chunkSize.bytes)
      (hneeds : p.NeedsChunk payload.length) (hindex : p.small.length < UInt32.size)
      (hacquire : p.acquire .small p.chunkSize.bytes =
        ⟨.error fault, { p with allocator }, entries⟩) :
      Refuses p payload fault allocator entries
  | largeSegment (fault : Fault) (allocator : α) (entries : List Entry)
      (hlong : p.chunkSize.bytes < payload.length) (hshort : payload.length < UInt32.size)
      (hindex : p.large.length < UInt32.size)
      (hacquire : p.acquire .large payload.length =
        ⟨.error fault, { p with allocator }, entries⟩) :
      Refuses p payload fault allocator entries
  | largeAccess (segment : Segment) (allocator : α) (entries : List Entry)
      (hlong : p.chunkSize.bytes < payload.length) (hshort : payload.length < UInt32.size)
      (hindex : p.large.length < UInt32.size)
      (hacquire : p.acquire .large payload.length =
        ⟨.ok segment, { p with allocator }, entries⟩)
      (hgrant : segment.requestAccess.1 = false) :
      Refuses p payload (.segment (.readOnly .large)) allocator entries

/-- The outcomes of a write. -/
inductive Writes (p : Packer α) (payload : List UInt8) : Outcome (Packer α) Address → Prop
  | empty (hempty : payload = []) : Writes p payload ⟨.ok .empty, p, []⟩
  | refused (fault : Fault) (allocator : α) (entries : List Entry)
      (hne : payload ≠ []) (hrefuses : Refuses p payload fault allocator entries) :
      Writes p payload ⟨.error fault, { p with allocator }, entries⟩
  | placed (p' : Packer α) (chunk : Chunk) (entries : List Entry)
      (hne : payload ≠ []) (hfit : payload.length ≤ p.chunkSize.bytes)
      (hopen : Opens p payload.length p' chunk entries)
      (hgrant : chunk.segment.requestAccess.1 = true) :
      Writes p payload
        ⟨.ok (.inSmall (.ofNat p'.filled.length) (.ofNat chunk.used) (.ofNat payload.length)),
          { p' with
            current := some
              ⟨chunk.segment.requestAccess.2.overwrite chunk.used payload,
                chunk.used + payload.length⟩ },
          entries ++ [.written .small payload.length]⟩
  | withdrawn (p' : Packer α) (chunk : Chunk) (entries : List Entry)
      (hne : payload ≠ []) (hfit : payload.length ≤ p.chunkSize.bytes)
      (hopen : Opens p payload.length p' chunk entries)
      (hgrant : chunk.segment.requestAccess.1 = false) :
      Writes p payload
        ⟨.error (.segment (.readOnly .small)),
          { p' with current := some ⟨chunk.segment.requestAccess.2, chunk.used⟩ }, entries⟩
  | stored (segment : Segment) (allocator : α) (entries : List Entry)
      (hlong : p.chunkSize.bytes < payload.length) (hshort : payload.length < UInt32.size)
      (hindex : p.large.length < UInt32.size)
      (hacquire : p.acquire .large payload.length =
        ⟨.ok segment, { p with allocator }, entries⟩)
      (hgrant : segment.requestAccess.1 = true) :
      Writes p payload
        ⟨.ok (.inLarge (.ofNat p.large.length) (.ofNat payload.length)),
          { p with
            allocator, large := p.large ++ [segment.requestAccess.2.overwrite 0 payload] },
          entries ++ [.written .large payload.length]⟩

omit [Allocator α] in
theorem place_of_grant {p : Packer α} {chunk : Chunk} {payload : List UInt8}
    (h : chunk.segment.requestAccess.1 = true) :
    p.place chunk payload =
      ⟨.ok (.inSmall (.ofNat p.filled.length) (.ofNat chunk.used) (.ofNat payload.length)),
        { p with
          current := some
            ⟨chunk.segment.requestAccess.2.overwrite chunk.used payload,
              chunk.used + payload.length⟩ },
        [.written .small payload.length]⟩ :=
  if_pos h

omit [Allocator α] in
theorem place_of_refusal {p : Packer α} {chunk : Chunk} {payload : List UInt8}
    (h : chunk.segment.requestAccess.1 = false) :
    p.place chunk payload =
      ⟨.error (.segment (.readOnly .small)),
        { p with current := some ⟨chunk.segment.requestAccess.2, chunk.used⟩ }, []⟩ :=
  if_neg (Bool.eq_false_iff.1 h)

/-- Placing a payload in the chunk that is open for it. -/
theorem writes_place {p p' : Packer α} {payload : List UInt8} {chunk : Chunk}
    {entries : List Entry} (hne : payload ≠ [])
    (hfit : payload.length ≤ p.chunkSize.bytes)
    (hopen : Opens p payload.length p' chunk entries) :
    Writes p payload
      ((Outcome.mk (.ok chunk) p' entries).andThen fun chunk p => p.place chunk payload) := by
  cases hgrant : chunk.segment.requestAccess.1 with
  | false =>
      rw [Outcome.andThen_ok, place_of_refusal hgrant]
      simp only [List.append_nil]
      exact .withdrawn p' chunk entries hne hfit hopen hgrant
  | true =>
      rw [Outcome.andThen_ok, place_of_grant hgrant]
      exact .placed p' chunk entries hne hfit hopen hgrant

theorem writes_rotate {p : Packer α} {payload : List UInt8} (hne : payload ≠ [])
    (hfit : payload.length ≤ p.chunkSize.bytes) (hneeds : p.NeedsChunk payload.length) :
    Writes p payload (p.rotate.andThen fun chunk p => p.place chunk payload) := by
  rw [rotate, checkIndex]
  by_cases hindex : p.small.length < UInt32.size
  · rw [if_pos hindex]
    obtain ⟨allocator, hstate⟩ := acquire_state p .small p.chunkSize.bytes
    rcases hacquire : p.acquire .small p.chunkSize.bytes with ⟨answer, state, entries⟩
    rw [hacquire] at hstate
    subst hstate
    cases answer with
    | error fault =>
        exact .refused fault allocator entries hne
          (.smallSegment fault allocator entries hfit hneeds hindex hacquire)
    | ok segment =>
        simp only [Outcome.andThen_ok, List.append_nil]
        exact writes_place hne hfit
          (.fresh segment allocator entries hneeds hindex hacquire)
  · rw [if_neg hindex]
    exact .refused _ p.allocator [] hne (.smallIndex hfit hneeds hindex)

theorem writes_small {p : Packer α} {payload : List UInt8} (hne : payload ≠ [])
    (hfit : payload.length ≤ p.chunkSize.bytes) :
    Writes p payload (p.writeSmall payload) := by
  rw [writeSmall]
  split
  · next hnone => exact writes_rotate hne hfit (needsChunk_of_none hnone _)
  · next chunk hchunk =>
      split
      · next hroom =>
          have hplace := writes_place hne hfit (.roomy chunk hchunk hroom)
          rwa [Outcome.andThen_ok, List.nil_append] at hplace
      · next hfull => exact writes_rotate hne hfit (needsChunk_of_full hchunk hfull)

theorem writes_large {p : Packer α} {payload : List UInt8}
    (hlong : p.chunkSize.bytes < payload.length) (hshort : payload.length < UInt32.size) :
    Writes p payload (p.writeLarge payload) := by
  have hne : payload ≠ [] := by
    rintro rfl
    exact Nat.not_lt_zero _ hlong
  rw [writeLarge, checkIndex]
  by_cases hindex : p.large.length < UInt32.size
  · rw [if_pos hindex]
    obtain ⟨allocator, hstate⟩ := acquire_state p .large payload.length
    rcases hacquire : p.acquire .large payload.length with ⟨answer, state, entries⟩
    rw [hacquire] at hstate
    subst hstate
    cases answer with
    | error fault =>
        exact .refused fault allocator entries hne
          (.largeSegment fault allocator entries hlong hshort hindex hacquire)
    | ok segment =>
        cases hgrant : segment.requestAccess.1 with
        | false =>
            have hrefused := Writes.refused _ allocator entries hne
              (.largeAccess segment allocator entries hlong hshort hindex hacquire hgrant)
            simpa [hgrant] using hrefused
        | true =>
            have hstored := Writes.stored segment allocator entries hlong hshort hindex
              hacquire hgrant
            simpa [hgrant] using hstored
  · rw [if_neg hindex]
    exact .refused _ p.allocator [] hne (.largeIndex hlong hindex)

/-- The list of outcomes is complete. -/
theorem write_writes (p : Packer α) (payload : List UInt8) :
    Writes p payload (p.write payload) := by
  rw [write]
  split
  · next hempty => exact .empty (List.isEmpty_iff.1 hempty)
  · next hempty =>
      have hne : payload ≠ [] := fun h => hempty (List.isEmpty_iff.2 h)
      split
      · next hlong => exact .refused _ p.allocator [] hne (.tooLong hlong)
      · next hshort =>
          split
          · next hlong => exact writes_large hlong (Nat.lt_of_not_le hshort)
          · next hfit => exact writes_small hne (Nat.le_of_not_lt hfit)

end Parcel.Packer
