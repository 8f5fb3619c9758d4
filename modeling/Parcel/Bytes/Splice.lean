/-!
# Overwriting a run of bytes

`splice bytes offset payload` is `bytes` with `payload` laid over it from
`offset` on. When the payload fits, the length stays (`length_splice`), the
run holds the payload (`slice_splice`), and everything in front of it is as
before (`take_splice`).
-/

namespace Parcel

/-- The `length` bytes from `offset` on, or what there is of them. -/
def slice (bytes : List UInt8) (offset length : Nat) : List UInt8 :=
  (bytes.drop offset).take length

def splice (bytes : List UInt8) (offset : Nat) (payload : List UInt8) : List UInt8 :=
  bytes.take offset ++ (payload ++ bytes.drop (offset + payload.length))

theorem length_slice {bytes : List UInt8} {offset length : Nat}
    (h : offset + length ≤ bytes.length) : (slice bytes offset length).length = length := by
  simp only [slice, List.length_take, List.length_drop]
  omega

theorem slice_append_left {xs ys : List UInt8} {length : Nat} (h : xs.length = length) :
    slice (xs ++ ys) 0 length = xs := by
  simp [slice, ← h]

theorem slice_append_right {xs ys : List UInt8} {offset length : Nat} (h : xs.length ≤ offset) :
    slice (xs ++ ys) offset length = slice ys (offset - xs.length) length := by
  simp [slice, List.drop_append, List.drop_eq_nil_of_le h]

theorem length_splice {bytes : List UInt8} {offset : Nat} {payload : List UInt8}
    (h : offset + payload.length ≤ bytes.length) :
    (splice bytes offset payload).length = bytes.length := by
  simp only [splice, List.length_append, List.length_take, List.length_drop]
  omega

theorem take_splice {bytes : List UInt8} {offset : Nat} {payload : List UInt8}
    (h : offset ≤ bytes.length) :
    (splice bytes offset payload).take offset = bytes.take offset := by
  have hlen : (bytes.take offset).length = offset := by simp; omega
  rw [splice, List.take_append_of_le_length (by omega), List.take_of_length_le (by omega)]

theorem slice_splice {bytes : List UInt8} {offset : Nat} {payload : List UInt8}
    (h : offset ≤ bytes.length) :
    slice (splice bytes offset payload) offset payload.length = payload := by
  rw [slice, splice, List.drop_left' (by simp only [List.length_take]; omega), List.take_left]

end Parcel
