import Mathlib.Data.Option.Basic
import Parcel.Proofs.Bytes
import Parcel.Wire.Manifest
import Parcel.Wire.Record.RoundTrip

/-!
# Frames and archives are read back as they were written

A batch crosses the wire in three layers: records, laid end to end in an
archive, in a frame. The records have been dealt with (`Record.decode?_encode`);
here are the two layers around them.

A frame says how long it is, and so it is found at the front of any buffer that
starts with it, whatever follows (`split?_wrap`). An archive is read from its
end. What its root says is all that `recordsOf?` checks, and
`recordsOf?_eq_some_iff` lists it; for an archive that was written, the pointer
leads back over the header and all the records to the first byte.
-/

namespace Parcel

namespace Frame

theorem wrap_ok {body f : List UInt8} (h : wrap body = .ok f) :
    body.length < UInt32.size ∧ f = Packed.pack (UInt32.ofNat body.length) ++ body := by
  rw [wrap] at h
  split at h
  · next hlength =>
      cases h
      exact ⟨hlength, rfl⟩
  · cases h

theorem length_wrap {body f : List UInt8} (h : wrap body = .ok f) :
    f.length = headSize + body.length := by
  rw [(wrap_ok h).2, List.length_append, Record.length_pack_uint32]
  rfl

/-- The head of a frame claims the length of its body. -/
theorem claimed_wrap {body f : List UInt8} (h : wrap body = .ok f) (rest : List UInt8) :
    claimed (f ++ rest) = body.length := by
  obtain ⟨hlength, rfl⟩ := wrap_ok h
  have hhead : (Packed.pack (UInt32.ofNat body.length)).length = headSize :=
    Record.length_pack_uint32 _
  rw [claimed, List.append_assoc, List.take_left' hhead]
  show LittleEndian.decode (LittleEndian.encode 4 (UInt32.ofNat body.length).toNat) = _
  rw [UInt32.toNat_ofNat_of_lt' hlength, LittleEndian.decode_encode_of_lt hlength]

/-- A frame is taken off the front of a buffer whole, and nothing with it. -/
theorem split?_wrap {body f : List UInt8} (h : wrap body = .ok f) (rest : List UInt8) :
    split? (f ++ rest) = some (body, f.length) := by
  have hlength := length_wrap h
  have hbody : slice (f ++ rest) headSize body.length = body := by
    obtain ⟨-, rfl⟩ := wrap_ok h
    have hhead : (Packed.pack (UInt32.ofNat body.length)).length = headSize :=
      Record.length_pack_uint32 _
    rw [List.append_assoc, slice_append_right (Nat.le_of_eq hhead), hhead, Nat.sub_self,
      slice_append_left rfl]
  rw [split?, claimed_wrap h, List.length_append, if_neg (by omega), if_neg (by omega), hbody,
    hlength]

theorem read_wrap {β : Type} {decode? : List UInt8 → Option β} {body f : List UInt8}
    {value : β} (h : wrap body = .ok f) (hvalue : decode? body = some value) (rest : List UInt8) :
    read decode? (f ++ rest) = .ok (some (value, f.length)) := by
  simp only [read, split?_wrap h, hvalue]

end Frame

namespace Archive

theorem length_records (updates : List Update) :
    (records updates).length = Record.size * updates.length := by
  induction updates with
  | nil => rfl
  | cons u updates ih =>
      have hcons : records (u :: updates) = Record.encode u ++ records updates := rfl
      rw [hcons, List.length_append, ih, Record.length_encode, List.length_cons, Nat.mul_succ,
        Nat.add_comm]

/-- Cut into pieces of the right size, the records are found and read back. -/
theorem cut_records (updates : List Update) (rest : List UInt8) :
    (Packed.cut Record.size updates.length (records updates ++ rest) []).mapM Record.decode? =
      some updates := by
  rw [records, Packed.cut_flatMap Record.length_encode]
  induction updates with
  | nil => rfl
  | cons u updates ih =>
      rw [List.map_cons, List.mapM_cons, Record.decode?_encode, ih]
      rfl

/-- All that is checked of a root before the records are read. -/
theorem recordsOf?_eq_some_iff {headerSize : Nat} {bytes : List UInt8} {start count : Nat} :
    recordsOf? headerSize bytes = some (start, count) ↔
      ∃ root, bytes.length = root + rootSize headerSize ∧ root % rootAlignment = 0 ∧
        ((root + headerSize : Nat) : Int) +
          (Record.valueAt Int32 bytes (root + headerSize)).toInt = start ∧
        (Record.valueAt UInt32 bytes (root + headerSize + 4)).toNat = count ∧
        start % recordAlignment = 0 ∧ start + Record.size * count ≤ root := by
  simp only [recordsOf?, Option.bind_eq_bind, Option.bind_eq_some_iff, Option.guard_eq_some',
    Option.pure_def, Option.some.injEq, Prod.mk.injEq]
  constructor
  · rintro ⟨_, hlong, _, hroot, _, hstart, _, ⟨halign, hfits⟩, rfl, rfl⟩
    refine ⟨bytes.length - rootSize headerSize, (Nat.sub_add_cancel hlong).symm, hroot, ?_,
      rfl, halign, hfits⟩
    exact (Int.toNat_of_nonneg hstart).symm
  · rintro ⟨root, hlength, hroot, hstart, rfl, halign, hfits⟩
    rw [hlength, Nat.add_sub_cancel, hstart, Int.toNat_natCast]
    exact ⟨(), Nat.le_add_left .., (), hroot, (), Int.natCast_nonneg _, (), ⟨halign, hfits⟩,
      rfl, rfl⟩

/-- The root as it is written behind the records and the header. -/
def pointers (a : Archive) : List UInt8 :=
  Packed.pack (Int32.ofInt (-a.distance)) ++ Packed.pack (UInt32.ofNat a.updates.length)

theorem encode_ok_iff {a : Archive} {bytes : List UInt8} :
    a.encode = .ok bytes ↔
      a.distance ≤ reach ∧ bytes = records a.updates ++ (a.header ++ a.pointers) := by
  have hbytes : records a.updates ++ a.header ++ Packed.pack (Int32.ofInt (-a.distance)) ++
      Packed.pack (UInt32.ofNat a.updates.length) =
        records a.updates ++ (a.header ++ a.pointers) := by
    simp only [pointers, List.append_assoc]
  rw [encode, hbytes]
  constructor
  · intro h
    split at h
    · next hreach =>
        cases h
        exact ⟨hreach, rfl⟩
    · cases h
  · rintro ⟨hreach, rfl⟩
    rw [if_pos hreach]

theorem length_encoded {a : Archive} {bytes : List UInt8} (h : a.encode = .ok bytes) :
    bytes.length = Record.size * a.updates.length + rootSize a.header.length := by
  obtain ⟨-, rfl⟩ := encode_ok_iff.1 h
  have hpointer : (Packed.pack (Int32.ofInt (-a.distance))).length = 4 := Packed.length_pack _
  have hcount : (Packed.pack (UInt32.ofNat a.updates.length)).length = 4 :=
    Packed.length_pack _
  simp only [pointers, List.length_append, length_records, hpointer, hcount, rootSize]

theorem distance_eq (a : Archive) :
    a.distance = Record.size * a.updates.length + a.header.length := by
  rw [distance, length_records]

theorem pointerAt_distance (a : Archive) :
    Record.valueAt Int32 (records a.updates ++ (a.header ++ a.pointers)) a.distance =
      Int32.ofInt (-a.distance) := by
  have hfront : (records a.updates ++ a.header).length = a.distance := List.length_append
  rw [← List.append_assoc, Record.valueAt_append (Nat.le_of_eq hfront), hfront, Nat.sub_self,
    pointers, Record.valueAt_pack]

theorem countAt_distance (a : Archive) :
    Record.valueAt UInt32 (records a.updates ++ (a.header ++ a.pointers)) (a.distance + 4) =
      UInt32.ofNat a.updates.length := by
  have hfront : (records a.updates ++ a.header).length = a.distance := List.length_append
  have hpointer : (Packed.pack (Int32.ofInt (-a.distance))).length = 4 := Packed.length_pack _
  have hcount := Record.valueAt_pack (UInt32.ofNat a.updates.length) []
  rw [← List.append_assoc, Record.valueAt_append (by omega), hfront, Nat.add_sub_cancel_left,
    pointers, Record.valueAt_append (Nat.le_of_eq hpointer), hpointer]
  rwa [List.append_nil] at hcount

/-- The root of an archive that was written leads to its first byte, and tells
how many records there are. -/
theorem recordsOf?_encode {a : Archive} {bytes : List UInt8} (h : a.encode = .ok bytes) :
    recordsOf? a.header.length bytes = some (0, a.updates.length) := by
  have hlength := length_encoded h
  obtain ⟨hreach, rfl⟩ := encode_ok_iff.1 h
  have hdistance := distance_eq a
  have hsize : Record.size = 64 := rfl
  -- The greatest distance is the negative of the least word, so none wraps around.
  have hback : (Int32.ofInt (-a.distance)).toInt = -(a.distance : Int) := by
    rw [reach] at hreach
    exact Int32.toInt_ofInt_of_le (by omega) (by omega)
  have hwords : (UInt32.ofNat a.updates.length).toNat = a.updates.length := by
    rw [reach] at hreach
    rw [hsize] at hdistance
    have hword : UInt32.size = 4294967296 := rfl
    exact UInt32.toNat_ofNat_of_lt' (by omega)
  refine recordsOf?_eq_some_iff.2
    ⟨Record.size * a.updates.length, hlength, ?_, ?_, ?_, rfl, ?_⟩
  · rw [hsize, rootAlignment]
    omega
  · rw [← hdistance, pointerAt_distance, hback]
    omega
  · rw [← hdistance, countAt_distance, hwords]
  · omega

/-- An archive is read back as it was written, header and records. -/
theorem decode?_encode {a : Archive} {bytes : List UInt8} (h : a.encode = .ok bytes) :
    decode? a.header.length bytes = some a := by
  have hlength := length_encoded h
  have hrecordsOf := recordsOf?_encode h
  obtain ⟨-, rfl⟩ := encode_ok_iff.1 h
  have hroot : (records a.updates ++ (a.header ++ a.pointers)).length -
      rootSize a.header.length = (records a.updates).length := by
    rw [hlength, length_records, Nat.add_sub_cancel]
  have hheader : slice (records a.updates ++ (a.header ++ a.pointers))
      (records a.updates).length a.header.length = a.header := by
    rw [slice_append_right (Nat.le_refl _), Nat.sub_self, slice_append_left rfl]
  simp only [decode?, hrecordsOf, List.drop_zero, cut_records, hroot, hheader,
    Option.bind_eq_bind, Option.bind_some, Option.pure_def]

end Archive

end Parcel
