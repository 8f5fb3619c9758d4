import Parcel.Bytes.Packed
import Parcel.Bytes.Splice
import Parcel.Fault

/-!
# Frames

A frame is a length, as a 32-bit word, and as many bytes of body. Frames arrive
in pieces, so that a buffer may hold less than one frame; `Frame.split?` then
answers `none` and the reader waits for more. Otherwise it takes the first
frame off the buffer and says how many bytes it took.

`Frame.stream` takes frames off a buffer until one is incomplete or is refused.
-/

namespace Parcel.Frame

def headSize : Nat := 4

def wrap (body : List UInt8) : Except Fault (List UInt8) :=
  if body.length < UInt32.size then .ok (Packed.pack (UInt32.ofNat body.length) ++ body)
  else .error (.archive (.tooLong body.length))

/-- How long the body of the first frame claims to be. -/
def claimed (buffer : List UInt8) : Nat := LittleEndian.decode (buffer.take headSize)

/-- The body of the first frame, and the length of the frame. -/
def split? (buffer : List UInt8) : Option (List UInt8 × Nat) :=
  if buffer.length < headSize then none
  else if buffer.length < headSize + claimed buffer then none
  else some (slice buffer headSize (claimed buffer), headSize + claimed buffer)

/-- Reads the first frame. A body that means nothing is a fault. -/
def read {β : Type} (decode? : List UInt8 → Option β) (buffer : List UInt8) :
    Except Fault (Option (β × Nat)) :=
  match split? buffer with
  | none => .ok none
  | some (body, consumed) =>
    match decode? body with
    | none => .error (.archive (.malformed body))
    | some value => .ok (some (value, consumed))

theorem split?_bounds {buffer body : List UInt8} {consumed : Nat}
    (h : split? buffer = some (body, consumed)) :
    headSize ≤ consumed ∧ consumed ≤ buffer.length := by
  simp only [split?] at h
  split at h
  · cases h
  · split at h
    · cases h
    · simp only [Option.some.injEq, Prod.mk.injEq] at h
      omega

theorem read_bounds {β : Type} {decode? : List UInt8 → Option β} {buffer : List UInt8} {value : β}
    {consumed : Nat} (h : read decode? buffer = .ok (some (value, consumed))) :
    headSize ≤ consumed ∧ consumed ≤ buffer.length := by
  simp only [read] at h
  split at h
  · cases h
  · next hs =>
    split at h
    · cases h
    · simp only [Except.ok.injEq, Option.some.injEq, Prod.mk.injEq] at h
      exact h.2 ▸ split?_bounds hs

theorem rest_lt {buffer : List UInt8} {consumed : Nat}
    (h : headSize ≤ consumed ∧ consumed ≤ buffer.length) :
    buffer.length - consumed < buffer.length := by
  simp only [headSize] at h
  omega

/-- The answers to reading again and again; the last one is not a value. -/
def stream {β : Type} (decode? : List UInt8 → Option β) (buffer : List UInt8) :
    List (Except Fault (Option (β × Nat))) :=
  match h : read decode? buffer with
  | .ok (some (value, consumed)) =>
    have : buffer.length - consumed < buffer.length := rest_lt (read_bounds h)
    .ok (some (value, consumed)) :: stream decode? (buffer.drop consumed)
  | other => [other]
termination_by buffer.length

end Parcel.Frame
