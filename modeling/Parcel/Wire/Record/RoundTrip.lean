import Parcel.Wire.Record

/-!
# Reading back what was written

Every reader of a field moves with what stands in front of it (the lemmas
`_append`), and at position 0 it reads what the writer of that field wrote.
Together they carry a reader to any field of a record, and so to the main
statement: `decode?_encode`, a record is read back as it was, every field of it.
-/

namespace Parcel.Record

open Packed (pack)
open Enumerated (code)

/-! ## Lengths -/

@[simp] theorem length_pack_uint32 (x : UInt32) : (pack x).length = 4 := Packed.length_pack x

@[simp] theorem length_pack_uint64 (x : UInt64) : (pack x).length = 8 := Packed.length_pack x

@[simp] theorem length_pack_int16 (x : Int16) : (pack x).length = 2 := Packed.length_pack x

@[simp] theorem length_pack_binary32 (x : Binary32) : (pack x).length = 4 := Packed.length_pack x

@[simp] theorem length_gap (n : Nat) : (gap n).length = n := by simp [gap]

@[simp] theorem length_padded (b : UInt8) : (padded b).length = 4 := by simp [padded]

@[simp] theorem length_ofKey {family : KeyFamily} (k : Key family) : (ofKey k).length = 8 := by
  simp [ofKey]

@[simp] theorem length_ofAddress (a : Address) : (ofAddress a).length = 16 := by simp [ofAddress]

@[simp] theorem length_ofStride (s : Option UInt32) : (ofStride s).length = 8 := by
  cases s <;> simp [ofStride]

@[simp] theorem length_ofDescriptor (d : ImageDescriptor) : (ofDescriptor d).length = 28 := by
  simp [ofDescriptor]

@[simp] theorem length_ofImageType (t : ExternalImageType) : (ofImageType t).length = 2 := by
  cases t <;> simp [ofImageType]

@[simp] theorem length_ofColor (c : Color) : (ofColor c).length = 4 := by simp [ofColor]

@[simp] theorem length_ofOptions (o : Option FontOptions) : (ofOptions o).length = 20 := by
  cases o <;> simp [ofOptions]

@[simp] theorem length_ofPlatformOptions (o : Option FontPlatformOptions) :
    (ofPlatformOptions o).length = 4 := by
  cases o <;> simp [ofPlatformOptions]

@[simp] theorem length_keyBytes (u : Update) : (keyBytes u).length = 8 := by
  cases u <;> simp [keyBytes]

@[simp] theorem length_encode (u : Update) : (encode u).length = size := by
  cases u <;> simp [encode, fields, size]

/-! ## Reading behind other bytes -/

section Append

variable {β : Type} {xs : List UInt8} {position : Nat}

theorem byteAt_append (h : xs.length ≤ position) (ys : List UInt8) :
    byteAt (xs ++ ys) position = byteAt ys (position - xs.length) := by
  simp [byteAt, List.getElem?_append_right h]

theorem valueAt_append [Packed β] (h : xs.length ≤ position) (ys : List UInt8) :
    valueAt β (xs ++ ys) position = valueAt β ys (position - xs.length) := by
  rw [valueAt, slice_append_right h, valueAt]

theorem codeAt?_append [Enumerated β] (h : xs.length ≤ position) (ys : List UInt8) :
    codeAt? β (xs ++ ys) position = codeAt? β ys (position - xs.length) := by
  simp [codeAt?, byteAt_append h]

theorem optionAt?_append (h : xs.length ≤ position) (ys : List UInt8) (value : Option β) :
    optionAt? (xs ++ ys) position value = optionAt? ys (position - xs.length) value := by
  simp [optionAt?, byteAt_append h]

theorem keyAt_append {family : KeyFamily} (h : xs.length ≤ position) (ys : List UInt8) :
    (keyAt (xs ++ ys) position : Key family) = keyAt ys (position - xs.length) := by
  simp [keyAt, valueAt_append h, valueAt_append (Nat.le_add_right_of_le h), Nat.sub_add_comm h]

theorem addressAt?_append (h : xs.length ≤ position) (ys : List UInt8) :
    addressAt? (xs ++ ys) position = addressAt? ys (position - xs.length) := by
  simp [addressAt?, codeAt?_append h, valueAt_append (Nat.le_add_right_of_le h),
    Nat.sub_add_comm h]

theorem descriptorAt?_append (h : xs.length ≤ position) (ys : List UInt8) :
    descriptorAt? (xs ++ ys) position = descriptorAt? ys (position - xs.length) := by
  simp [descriptorAt?, codeAt?_append h, valueAt_append (Nat.le_add_right_of_le h),
    optionAt?_append (Nat.le_add_right_of_le h), Nat.sub_add_comm h]

theorem imageTypeAt?_append (h : xs.length ≤ position) (ys : List UInt8) :
    imageTypeAt? (xs ++ ys) position = imageTypeAt? ys (position - xs.length) := by
  simp [imageTypeAt?, byteAt_append h, codeAt?_append (Nat.le_add_right_of_le h),
    Nat.sub_add_comm h]

theorem colorAt_append (h : xs.length ≤ position) (ys : List UInt8) :
    colorAt (xs ++ ys) position = colorAt ys (position - xs.length) := by
  simp [colorAt, byteAt_append h, byteAt_append (Nat.le_add_right_of_le h), Nat.sub_add_comm h]

theorem fontOptionsAt?_append (h : xs.length ≤ position) (ys : List UInt8) :
    fontOptionsAt? (xs ++ ys) position = fontOptionsAt? ys (position - xs.length) := by
  simp [fontOptionsAt?, codeAt?_append h, colorAt_append (Nat.le_add_right_of_le h),
    valueAt_append (Nat.le_add_right_of_le h), Nat.sub_add_comm h]

theorem platformOptionsAt?_append (h : xs.length ≤ position) (ys : List UInt8) :
    platformOptionsAt? (xs ++ ys) position = platformOptionsAt? ys (position - xs.length) := by
  simp [platformOptionsAt?, codeAt?_append h, codeAt?_append (Nat.le_add_right_of_le h),
    Nat.sub_add_comm h]

end Append

/-! ## Reading what was just written -/

@[simp] theorem byteAt_cons_zero (b : UInt8) (ys : List UInt8) : byteAt (b :: ys) 0 = b := rfl

@[simp] theorem byteAt_cons_succ (b : UInt8) (ys : List UInt8) (position : Nat) :
    byteAt (b :: ys) (position + 1) = byteAt ys position := rfl

@[simp] theorem byteAt_padded (b : UInt8) (ys : List UInt8) : byteAt (padded b ++ ys) 0 = b := rfl

@[simp] theorem byteAt_gap (n : Nat) (ys : List UInt8) : byteAt (gap (n + 1) ++ ys) 0 = 0 := rfl

@[simp] theorem codeAt?_padded {β : Type} [Enumerated β] (a : β) (ys : List UInt8) :
    codeAt? β (padded (code a) ++ ys) 0 = some a := by
  simp [codeAt?]

@[simp] theorem valueAt_pack {β : Type} [Packed β] (a : β) (ys : List UInt8) :
    valueAt β (pack a ++ ys) 0 = a := by
  rw [valueAt, slice_append_left (Packed.length_pack a), Packed.unpack_pack]

@[simp] theorem keyAt_ofKey {family : KeyFamily} (k : Key family) (ys : List UInt8) :
    keyAt (ofKey k ++ ys) 0 = k := by
  simp [keyAt, ofKey, valueAt_append]

@[simp] theorem addressAt?_ofAddress (a : Address) (ys : List UInt8) :
    addressAt? (ofAddress a ++ ys) 0 = some a := by
  simp [addressAt?, ofAddress, valueAt_append]

@[simp] theorem optionAt?_ofStride (s : Option UInt32) (ys : List UInt8) :
    optionAt? (ofStride s ++ ys) 0 (some (valueAt UInt32 (ofStride s ++ ys) 4)) = some s := by
  cases s <;> simp [optionAt?, ofStride, valueAt_append]

@[simp] theorem descriptorAt?_ofDescriptor (d : ImageDescriptor) (ys : List UInt8) :
    descriptorAt? (ofDescriptor d ++ ys) 0 = some d := by
  simp [descriptorAt?, ofDescriptor, valueAt_append, optionAt?_append]

@[simp] theorem imageTypeAt?_ofImageType (t : ExternalImageType) (ys : List UInt8) :
    imageTypeAt? (ofImageType t ++ ys) 0 = some t := by
  cases t <;> simp [imageTypeAt?, ofImageType, codeAt?]

@[simp] theorem colorAt_ofColor (c : Color) (ys : List UInt8) : colorAt (ofColor c ++ ys) 0 = c :=
  rfl

@[simp] theorem optionAt?_ofOptions (o : Option FontOptions) (ys : List UInt8) :
    optionAt? (ofOptions o ++ ys) 0 (fontOptionsAt? (ofOptions o ++ ys) 4) = some o := by
  cases o <;>
    simp [optionAt?, ofOptions, fontOptionsAt?, codeAt?_append, colorAt_append, valueAt_append]

@[simp] theorem optionAt?_ofPlatformOptions (o : Option FontPlatformOptions) (ys : List UInt8) :
    optionAt? (ofPlatformOptions o ++ ys) 0 (platformOptionsAt? (ofPlatformOptions o ++ ys) 1) =
      some o := by
  cases o <;> simp [optionAt?, ofPlatformOptions, platformOptionsAt?, codeAt?]

theorem decode?_encode (u : Update) : decode? (encode u) = some u := by
  cases u <;>
    simp [decode?, encode, keyBytes, fields, Change.kind, byteAt_append, valueAt_append,
      optionAt?_append, keyAt_append, addressAt?_append, descriptorAt?_append,
      imageTypeAt?_append, fontOptionsAt?_append, platformOptionsAt?_append]

end Parcel.Record
