import Parcel.Proofs.PackerRun

/-!
# Failed writes

A write that fails should leave the lists and the cursor as they were, and on
almost every path it does: whatever is checked is checked before the lists are
touched, and a large segment joins its list only when it has been filled.

One path is different. A fresh chunk joins the small list before it is asked for
access a second time. If its segment has granted access once and refuses now,
the write fails and leaves the empty chunk behind, with the cursor at its start
and the room in the chunk before it lost. `Strands` is that situation, and
`failed_write_unchanged_iff` says that it is the only one.
-/

namespace Parcel.Packer

variable {α : Type}

/-- The same segments with the same bytes, and the same place for the next
small payload. -/
structure Unchanged (p q : Packer α) : Prop where
  small : q.small.map Segment.bytes = p.small.map Segment.bytes
  large : q.large = p.large
  cursor : q.cursor = p.cursor

theorem Unchanged.refl (p : Packer α) : p.Unchanged p := ⟨rfl, rfl, rfl⟩

theorem unchanged_allocator (p : Packer α) (allocator : α) :
    p.Unchanged { p with allocator } := ⟨rfl, rfl, rfl⟩

/-- Asking the current chunk for access changes no bytes. -/
theorem unchanged_asked {p : Packer α} {chunk : Chunk} (h : p.current = some chunk) :
    p.Unchanged { p with current := some ⟨chunk.segment.requestAccess.2, chunk.used⟩ } where
  small := by
    rw [small_of_current h]
    simp [Packer.small]
  large := rfl
  cursor := (cursor_of_current h).symm

variable [Allocator α]

/-- A small payload needs a fresh chunk, and the segment that the allocator
answers with grants access once and then refuses it. -/
structure Strands (p : Packer α) (payload : List UInt8) (segment : Segment) : Prop where
  nonempty : payload ≠ []
  fits : payload.length ≤ p.chunkSize.bytes
  needs : p.NeedsChunk payload.length
  index : p.small.length < UInt32.size
  answer : (Allocator.allocate p.allocator (.ofNat p.chunkSize.bytes)).1 = .ok segment
  long : p.chunkSize.bytes ≤ segment.size
  first : segment.grants segment.asked segment.bytes = true
  second : segment.grants (segment.asked + 1) segment.bytes = false

/-- The segment is obtained, as far as the packer can tell. -/
theorem Strands.acquire {p : Packer α} {payload : List UInt8} {segment : Segment}
    (h : p.Strands payload segment) :
    (p.acquire .small p.chunkSize.bytes).answer = .ok segment.requestAccess.2 := by
  have hanswer := h.answer
  have hacquires := acquire_acquires p .small p.chunkSize.bytes
  generalize p.acquire .small p.chunkSize.bytes = o at hacquires
  cases hacquires with
  | failed fault allocator hallocate =>
      rw [hallocate] at hanswer
      cases hanswer
  | undersized found allocator hallocate hsize =>
      rw [hallocate] at hanswer
      cases hanswer
      exact absurd h.long (Nat.not_le_of_lt hsize)
  | readOnly found allocator hallocate hsize hgrant =>
      rw [hallocate] at hanswer
      cases hanswer
      exact absurd h.first (Bool.eq_false_iff.1 hgrant)
  | granted found allocator hallocate hsize hgrant =>
      rw [hallocate] at hanswer
      cases hanswer
      rfl

/-- A fresh chunk that refuses access was stranded. -/
theorem strands_of_withdrawn {p : Packer α} {payload : List UInt8} {segment : Segment}
    {allocator : α} {entries : List Entry} (hne : payload ≠ [])
    (hfit : payload.length ≤ p.chunkSize.bytes) (hneeds : p.NeedsChunk payload.length)
    (hindex : p.small.length < UInt32.size)
    (hacquire : p.acquire .small p.chunkSize.bytes =
      ⟨.ok segment, { p with allocator }, entries⟩)
    (hrefusal : segment.requestAccess.1 = false) :
    ∃ answered, p.Strands payload answered := by
  obtain ⟨answered, _, hanswer, hsize, hgrant, rfl, _, _⟩ := acquire_ok hacquire
  exact ⟨answered, hne, hfit, hneeds, hindex, congrArg Prod.fst hanswer, hsize, hgrant,
    hrefusal⟩

/-- Unless its chunk is stranded, a write that fails changes nothing. -/
theorem unchanged_of_failed {p : Packer α} {payload : List UInt8} {fault : Fault}
    (hfailed : (p.write payload).answer = .error fault)
    (hstrands : ¬ ∃ segment, p.Strands payload segment) :
    p.Unchanged (p.write payload).state := by
  have hwrites := write_writes p payload
  generalize p.write payload = o at hwrites hfailed
  cases hwrites with
  | empty _ => exact .refl p
  | refused _ allocator _ _ _ => exact unchanged_allocator p allocator
  | placed _ _ _ _ _ _ _ => cases hfailed
  | stored _ _ _ _ _ _ _ _ => cases hfailed
  | withdrawn p' chunk entries hne hfit hopen hrefusal =>
      cases hopen with
      | roomy _ hchunk _ => exact unchanged_asked hchunk
      | fresh segment allocator _ hneeds hindex hacquire =>
          exact absurd (strands_of_withdrawn hne hfit hneeds hindex hacquire hrefusal) hstrands

/-- A stranded chunk: the write fails, and the chunk stays. -/
theorem write_of_strands {p : Packer α} {payload : List UInt8} {segment : Segment}
    (h : p.Strands payload segment) :
    (p.write payload).answer = .error (.segment (.readOnly .small)) ∧
      (p.write payload).state.small.map Segment.bytes =
        p.small.map Segment.bytes ++ [segment.bytes] ∧
      (p.write payload).state.large = p.large ∧ (p.write payload).state.cursor = 0 := by
  have hanswer := h.acquire
  have hfit := h.fits
  have haddressable := p.chunkSize.addressable
  have hwrites := write_writes p payload
  generalize p.write payload = o at hwrites
  cases hwrites with
  | empty hempty => exact absurd hempty h.nonempty
  | refused fault allocator entries _ hrefuses =>
      exfalso
      cases hrefuses with
      | tooLong hlong => omega
      | smallIndex _ _ hindex => exact hindex h.index
      | largeIndex hlong _ => omega
      | smallSegment _ _ _ _ _ _ hacquire => rw [hacquire] at hanswer; cases hanswer
      | largeSegment _ _ _ hlong _ _ _ => omega
      | largeAccess _ _ _ hlong _ _ _ _ => omega
  | stored _ _ _ hlong _ _ _ _ => omega
  | placed p' chunk entries _ _ hopen hgrant =>
      exfalso
      cases hopen with
      | roomy _ hchunk hroom => exact absurd (h.needs _ hchunk) (Nat.not_lt_of_le hroom)
      | fresh found allocator _ _ _ hacquire =>
          rw [hacquire] at hanswer
          cases hanswer
          exact Bool.eq_false_iff.1 h.second hgrant
  | withdrawn p' chunk entries _ _ hopen _ =>
      cases hopen with
      | roomy _ hchunk hroom => exact absurd (h.needs _ hchunk) (Nat.not_lt_of_le hroom)
      | fresh found allocator _ _ _ hacquire =>
          rw [hacquire] at hanswer
          cases hanswer
          refine ⟨rfl, ?_, rfl, rfl⟩
          simp [Packer.small]

/-- A write that fails leaves everything as it was, unless it strands a chunk.
If it does, the fault says that the segment is read-only, the list has grown by
that segment as the allocator delivered it, and the cursor is at its start. -/
theorem failed_write_unchanged_iff {p : Packer α} {op : Op} {payload : List UInt8}
    (hop : op.payload? = some payload) :
    (∀ fault, (p.turn op).event = .wrote payload (.error fault) →
      (p.Unchanged (p.turn op).state ↔ ¬ ∃ segment, p.Strands payload segment)) ∧
    ∀ segment, p.Strands payload segment →
      (p.turn op).event = .wrote payload (.error (.segment (.readOnly .small))) ∧
      (p.turn op).state.small.map Segment.bytes =
        p.small.map Segment.bytes ++ [segment.bytes] ∧
      (p.turn op).state.large = p.large ∧ (p.turn op).state.cursor = 0 := by
  rw [turn_of_payload hop]
  constructor
  · intro fault hfailed
    simp only [Event.wrote.injEq, true_and] at hfailed
    constructor
    · -- A stranded chunk makes the small list longer.
      rintro hunchanged ⟨segment, hstrands⟩
      have hsmall := hunchanged.small
      rw [(write_of_strands hstrands).2.1] at hsmall
      exact List.cons_ne_nil _ _ (List.append_right_eq_self.1 hsmall)
    · exact unchanged_of_failed hfailed
  · intro segment hstrands
    obtain ⟨hanswer, hkept⟩ := write_of_strands hstrands
    exact ⟨congrArg (Event.wrote payload) hanswer, hkept⟩

/-- Hands out segments of zeroes that grant access once. -/
def onceWritable : Scripted where
  answer _ size := (Segment.zeroed size).map (·.writableTimes 1)

/-- The write fails, and a small segment more is there than before. -/
theorem failed_write_adds_segment :
    ∃ p : Packer Scripted, ofSize onceWritable 8 = .ok p ∧
      (p.turn (.write [1, 2, 3])).event =
        .wrote [1, 2, 3] (.error (.segment (.readOnly .small))) ∧
      p.small.length = 0 ∧ (p.turn (.write [1, 2, 3])).state.small.length = 1 :=
  ⟨_, rfl, rfl, rfl, rfl⟩

theorem failed_write_unchanged_iff_onceWritable :
    ∃ p : Packer Scripted, ofSize onceWritable 8 = .ok p ∧
      ∃ segment, p.Strands [1, 2, 3] segment ∧
        ¬ p.Unchanged (p.turn (.write [1, 2, 3])).state := by
  obtain ⟨p, hp⟩ : ∃ p, ofSize onceWritable 8 = .ok p := ⟨_, rfl⟩
  have hstrands : ∃ segment, p.Strands [1, 2, 3] segment := by
    cases hp
    refine ⟨_, by simp, by decide, ?_, by decide, rfl, by decide, rfl, rfl⟩
    intro chunk h
    cases h
  have hpayload : (Op.write [1, 2, 3]).payload? = some [1, 2, 3] := rfl
  obtain ⟨hiff, hstranded⟩ := failed_write_unchanged_iff (p := p) hpayload
  obtain ⟨segment, hsegment⟩ := hstrands
  obtain ⟨hfailed, -⟩ := hstranded segment hsegment
  exact ⟨p, hp, segment, hsegment, fun h => (hiff _ hfailed).1 h ⟨segment, hsegment⟩⟩

end Parcel.Packer
