import Parcel.Proofs.FrameStream

/-!
# Reading while the buffer grows

Frames come in pieces from somebody who need not mean well. A receiver looks at
its buffer again and again as it grows, and has to be sure that looking early does
no harm. What it needs is collected in `Incremental`: the head of the buffer alone
decides how much has to be there, nothing is answered before that, and once there
is an answer the bytes behind the frame have no part in it. The head may claim any
length, and the body may be any bytes, since nothing here asks whether they are an
archive.

All of it follows from how a buffer is split (`split?_eq`), whatever bodies mean, so
that it holds of frames of records and of frames of batches alike. As every value
takes at least a head off the buffer, a receiver that goes on until there is no
value is done after as many looks as there are heads in the buffer, and one more
(`Looks.length_le`).
-/

namespace Parcel

namespace Frame

variable {β : Type}

/-- The head of the first frame has arrived, and all that it claims. -/
def Whole (buffer : List UInt8) : Prop :=
  headSize ≤ buffer.length ∧ headSize + claimed buffer ≤ buffer.length

instance (buffer : List UInt8) : Decidable (Whole buffer) := inferInstanceAs (Decidable (_ ∧ _))

/-- What the head of the first frame claims of the bytes behind it. -/
def body (buffer : List UInt8) : List UInt8 := slice buffer headSize (claimed buffer)

variable {buffer other : List UInt8}

theorem not_whole_iff :
    ¬ Whole buffer ↔ buffer.length < headSize ∨ buffer.length < headSize + claimed buffer := by
  rw [Whole]
  omega

theorem split?_eq (buffer : List UInt8) :
    split? buffer =
      if Whole buffer then some (body buffer, headSize + claimed buffer) else none := by
  rw [split?]
  split
  · next hhead => rw [if_neg (not_whole_iff.2 (.inl hhead))]
  · next hhead =>
      split
      · next hclaim => rw [if_neg (not_whole_iff.2 (.inr hclaim))]
      · next hclaim => rw [if_pos ⟨by omega, by omega⟩, body]

theorem length_body (h : Whole buffer) : (body buffer).length = claimed buffer :=
  length_slice h.2

/-- Only the head is looked at. -/
theorem claimed_congr (h : buffer.take headSize = other.take headSize) :
    claimed buffer = claimed other := by
  rw [claimed, h, claimed]

theorem claimed_append (h : headSize ≤ buffer.length) (more : List UInt8) :
    claimed (buffer ++ more) = claimed buffer :=
  claimed_congr (List.take_append_of_le_length h)

theorem whole_append (h : Whole buffer) (more : List UInt8) : Whole (buffer ++ more) := by
  have hmore : buffer.length ≤ (buffer ++ more).length := by simp
  rw [Whole, claimed_append h.1]
  exact ⟨Nat.le_trans h.1 hmore, Nat.le_trans h.2 hmore⟩

theorem body_append (h : Whole buffer) (more : List UInt8) :
    body (buffer ++ more) = body buffer := by
  have hfits : claimed buffer ≤ (buffer.drop headSize).length := by
    have hclaim := h.2
    rw [List.length_drop]
    omega
  rw [body, claimed_append h.1, slice, List.drop_append_of_le_length h.1,
    List.take_append_of_le_length hfits, body, slice]

/-- A part of a buffer is not whole as long as it is short of what the head claims. -/
theorem not_whole_take {k : Nat} (hhead : headSize ≤ buffer.length)
    (hk : k < headSize + claimed buffer) : ¬ Whole (buffer.take k) := by
  rw [not_whole_iff, List.length_take]
  rcases Nat.lt_or_ge k headSize with hshort | hlong
  · exact .inl (by omega)
  · have hsame : claimed (buffer.take k) = claimed buffer := by
      refine claimed_congr ?_
      rw [List.take_take, Nat.min_eq_left hlong]
    rw [hsame]
    exact .inr (by omega)

/-! ## One look -/

variable {decode? : List UInt8 → Option β}

theorem read_of_not_whole (h : ¬ Whole buffer) : read decode? buffer = .ok none := by
  rw [read, split?_eq, if_neg h]

theorem read_of_whole (h : Whole buffer) :
    read decode? buffer =
      match decode? (body buffer) with
      | none => .error (.archive (.malformed (body buffer)))
      | some value => .ok (some (value, headSize + claimed buffer)) := by
  cases hvalue : decode? (body buffer) with
  | none => simp [read, split?_eq, h, hvalue]
  | some value => simp [read, split?_eq, h, hvalue]

/-- The receiver waits if and only if the frame is not whole. -/
theorem read_eq_none_iff : read decode? buffer = .ok none ↔ ¬ Whole buffer := by
  refine ⟨fun hnone hwhole => ?_, read_of_not_whole⟩
  rw [read_of_whole hwhole] at hnone
  split at hnone
  · cases hnone
  · cases hnone

theorem read_ne_none_iff : read decode? buffer ≠ .ok none ↔ Whole buffer := by
  rw [Ne, read_eq_none_iff, Decidable.not_not]

/-- Buffers whose frames have the same body are read alike. -/
theorem read_congr (h : Whole buffer) (hother : Whole other) (hbody : body buffer = body other) :
    read decode? buffer = read decode? other := by
  have hclaimed : claimed buffer = claimed other := by
    rw [← length_body h, ← length_body hother, hbody]
  rw [read_of_whole h, read_of_whole hother, hbody, hclaimed]

/-! ## Looking again and again -/

/-- The answers of a receiver that takes off the buffer what each value took, until there is
an answer that is no value. -/
inductive Looks (look : List UInt8 → Except Fault (Option (β × Nat))) :
    List UInt8 → List (Except Fault (Option (β × Nat))) → Prop
  | last {buffer : List UInt8} (h : ∀ value consumed, look buffer ≠ .ok (some (value, consumed))) :
      Looks look buffer [look buffer]
  | next {buffer : List UInt8} {value : β} {consumed : Nat}
      {answers : List (Except Fault (Option (β × Nat)))}
      (h : look buffer = .ok (some (value, consumed)))
      (hrest : Looks look (buffer.drop consumed) answers) :
      Looks look buffer (.ok (some (value, consumed)) :: answers)

/-- A stream is read to its end. -/
theorem looks_stream (decode? : List UInt8 → Option β) (buffer : List UInt8) :
    Looks (read decode?) buffer (stream decode? buffer) := by
  induction hlength : buffer.length using Nat.strongRecOn generalizing buffer with
  | ind n ih =>
      by_cases hvalue : ∃ value consumed, read decode? buffer = .ok (some (value, consumed))
      · obtain ⟨value, consumed, hread⟩ := hvalue
        have hshorter := rest_lt (read_bounds hread)
        rw [stream_of_value hread]
        refine .next hread (ih _ ?_ _ List.length_drop)
        omega
      · have hlast : ∀ value consumed, read decode? buffer ≠ .ok (some (value, consumed)) :=
          fun value consumed hread => hvalue ⟨value, consumed, hread⟩
        rw [stream_of_no_value hlast]
        exact .last hlast

/-- Every look but the last takes at least a head. -/
theorem Looks.length_le {answers : List (Except Fault (Option (β × Nat)))}
    (h : Looks (read decode?) buffer answers) :
    headSize * answers.length ≤ buffer.length + headSize := by
  induction h with
  | last _ => simp
  | next hread _ ih =>
      have hbounds := read_bounds hread
      rw [List.length_drop] at ih
      rw [List.length_cons, Nat.mul_succ]
      omega

/-- The receiver waits for as long as the head of the first frame or what the head claims is
not all there. After that it answers, with a refusal of the body or with a value that has just that
length;
the answer is settled by the bytes of the body, is not changed by more bytes, and is not given
for fewer. Looking again and again comes to an end, and soon. -/
structure Incremental (look : List UInt8 → Except Fault (Option (β × Nat))) : Prop where
  waits_iff : ∀ buffer, look buffer = .ok none ↔
    buffer.length < headSize ∨ buffer.length < headSize + claimed buffer
  answers : ∀ buffer, look buffer ≠ .ok none →
    look buffer = .error (.archive (.malformed (body buffer))) ∨
    ∃ value, look buffer = .ok (some (value, headSize + claimed buffer))
  settled : ∀ buffer other, look buffer ≠ .ok none → look other ≠ .ok none →
    body buffer = body other → look buffer = look other
  append : ∀ buffer more, look buffer ≠ .ok none → look (buffer ++ more) = look buffer
  take : ∀ buffer k, headSize ≤ buffer.length → k < headSize + claimed buffer →
    look (buffer.take k) = .ok none
  ends : ∀ buffer, ∃ answers, Looks look buffer answers
  bounded : ∀ buffer answers, Looks look buffer answers →
    answers.length ≤ buffer.length / headSize + 1

theorem incremental_read (decode? : List UInt8 → Option β) : Incremental (read decode?) where
  waits_iff _ := read_eq_none_iff.trans not_whole_iff
  answers buffer h := by
    rw [read_of_whole (read_ne_none_iff.1 h)]
    cases decode? (body buffer) with
    | none => exact .inl rfl
    | some value => exact .inr ⟨value, rfl⟩
  settled _ _ h hother hbody := read_congr (read_ne_none_iff.1 h) (read_ne_none_iff.1 hother) hbody
  append _ more h := by
    have hwhole := read_ne_none_iff.1 h
    exact read_congr (whole_append hwhole more) hwhole (body_append hwhole more)
  take _ _ hhead hk := read_of_not_whole (not_whole_take hhead hk)
  ends buffer := ⟨_, looks_stream decode? buffer⟩
  bounded buffer answers h := by
    have hlength := h.length_le
    simp only [headSize] at hlength ⊢
    omega

end Frame

/-- Lists of records and manifests of batches are taken off a growing buffer safely, whatever
bytes are in it, and no buffer keeps a receiver busy for ever. -/
theorem unframing_incremental :
    Frame.Incremental unframeUpdates ∧ Frame.Incremental unframeBatch :=
  ⟨Frame.incremental_read decodeUpdates?, Frame.incremental_read Manifest.decode?⟩

end Parcel
