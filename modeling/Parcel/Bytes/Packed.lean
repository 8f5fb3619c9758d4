import Parcel.Bytes.Binary32
import Parcel.Bytes.LittleEndian

/-!
# Values of a fixed byte width

`Packed α` gives every value of `α` one spelling of `width` bytes, and every
string of `width` bytes one value: `pack` and `unpack` are inverse bijections.
Numbers are spelled little-endian. Lists are packed without gaps.
-/

namespace Parcel

class Packed (α : Type) where
  width : Nat
  pack : α → List UInt8
  unpack : List UInt8 → α
  length_pack (a : α) : (pack a).length = width
  unpack_pack (a : α) : unpack (pack a) = a
  pack_unpack (bs : List UInt8) : bs.length = width → pack (unpack bs) = bs

namespace Packed

private theorem encode_decode_of_length {width : Nat} {bs : List UInt8} (h : bs.length = width) :
    LittleEndian.encode width (LittleEndian.decode bs) = bs := by
  rw [← h, LittleEndian.encode_decode]

private theorem decode_lt_of_length {width : Nat} {bs : List UInt8} (h : bs.length = width) :
    LittleEndian.decode bs < LittleEndian.capacity width := h ▸ LittleEndian.decode_lt bs

instance : Packed Unit where
  width := 0
  pack _ := []
  unpack _ := ()
  length_pack _ := rfl
  unpack_pack _ := rfl
  pack_unpack _ h := (List.eq_nil_of_length_eq_zero h).symm

instance : Packed UInt8 where
  width := 1
  pack x := LittleEndian.encode 1 x.toNat
  unpack bs := UInt8.ofNat (LittleEndian.decode bs)
  length_pack _ := LittleEndian.length_encode ..
  unpack_pack x := by rw [LittleEndian.decode_encode_of_lt x.toNat_lt, UInt8.ofNat_toNat]
  pack_unpack bs h := by
    rw [UInt8.toNat_ofNat_of_lt' (decode_lt_of_length h), encode_decode_of_length h]

instance : Packed UInt16 where
  width := 2
  pack x := LittleEndian.encode 2 x.toNat
  unpack bs := UInt16.ofNat (LittleEndian.decode bs)
  length_pack _ := LittleEndian.length_encode ..
  unpack_pack x := by rw [LittleEndian.decode_encode_of_lt x.toNat_lt, UInt16.ofNat_toNat]
  pack_unpack bs h := by
    rw [UInt16.toNat_ofNat_of_lt' (decode_lt_of_length h), encode_decode_of_length h]

instance : Packed UInt32 where
  width := 4
  pack x := LittleEndian.encode 4 x.toNat
  unpack bs := UInt32.ofNat (LittleEndian.decode bs)
  length_pack _ := LittleEndian.length_encode ..
  unpack_pack x := by rw [LittleEndian.decode_encode_of_lt x.toNat_lt, UInt32.ofNat_toNat]
  pack_unpack bs h := by
    rw [UInt32.toNat_ofNat_of_lt' (decode_lt_of_length h), encode_decode_of_length h]

instance : Packed UInt64 where
  width := 8
  pack x := LittleEndian.encode 8 x.toNat
  unpack bs := UInt64.ofNat (LittleEndian.decode bs)
  length_pack _ := LittleEndian.length_encode ..
  unpack_pack x := by rw [LittleEndian.decode_encode_of_lt x.toNat_lt, UInt64.ofNat_toNat]
  pack_unpack bs h := by
    rw [UInt64.toNat_ofNat_of_lt' (decode_lt_of_length h), encode_decode_of_length h]

instance : Packed Int16 where
  width := 2
  pack x := pack x.toUInt16
  unpack bs := (unpack bs : UInt16).toInt16
  length_pack _ := length_pack (α := UInt16) _
  unpack_pack x := by simp [unpack_pack]
  pack_unpack bs h := by simp [pack_unpack (α := UInt16) bs h]

instance : Packed Int32 where
  width := 4
  pack x := pack x.toUInt32
  unpack bs := (unpack bs : UInt32).toInt32
  length_pack _ := length_pack (α := UInt32) _
  unpack_pack x := by simp [unpack_pack]
  pack_unpack bs h := by simp [pack_unpack (α := UInt32) bs h]

instance : Packed Binary32 where
  width := 4
  pack x := pack x.bits
  unpack bs := ⟨unpack bs⟩
  length_pack _ := length_pack (α := UInt32) _
  unpack_pack x := by rw [unpack_pack]
  pack_unpack bs h := pack_unpack (α := UInt32) bs h

variable {α : Type} [Packed α]

def packAll (values : List α) : List UInt8 :=
  values.flatMap pack

/-- The first `count` strings of `width` bytes, behind the strings already taken. -/
def cut (width : Nat) : Nat → List UInt8 → List (List UInt8) → List (List UInt8)
  | 0, _, taken => taken.reverse
  | count + 1, bs, taken => cut width count (bs.drop width) (bs.take width :: taken)

/-- Reads as many values as there are whole spellings. -/
def unpackAll (bs : List UInt8) : List α :=
  (cut (width α) (bs.length / width α) bs []).map unpack

theorem length_packAll (values : List α) :
    (packAll values).length = values.length * width α := by
  induction values with
  | nil => simp [packAll]
  | cons a values ih =>
    simp only [packAll, List.flatMap_cons, List.length_append, List.length_cons] at ih ⊢
    rw [ih, length_pack, Nat.succ_mul, Nat.add_comm]

theorem cut_append_taken (width count : Nat) (bs : List UInt8) (taken : List (List UInt8)) :
    cut width count bs taken = taken.reverse ++ cut width count bs [] := by
  induction count generalizing bs taken with
  | zero => simp [cut]
  | succ count ih => rw [cut, cut, ih _ (_ :: taken), ih _ [_]]; simp

@[simp] theorem length_cut (width count : Nat) (bs : List UInt8) :
    (cut width count bs []).length = count := by
  induction count generalizing bs with
  | zero => rfl
  | succ count ih => rw [cut, cut_append_taken]; simp [ih]

end Packed

end Parcel
