import Parcel.Bytes.Packed
import Parcel.Bytes.Splice

/-!
# Windows of bytes and packed lists

Facts about bytes that everything about segments rests on. A window in
front of the place where a payload is laid down shows what it showed before
(`slice_splice_front`), so that filling a segment from its start never disturbs
what lies in it; byte by byte, the payload is found where it was laid down and
everything else where it was (`getElem?_splice`). And a list of values that was
packed without gaps is read back as it was (`unpackAll_packAll`), whatever the
values are, as bytes are that make up a whole number of values
(`packAll_unpackAll`).
-/

namespace Parcel

/-- Bytes in front of a payload are not touched by it. -/
theorem slice_splice_front {bytes payload : List UInt8}
    {start length offset : Nat} (hfront : start + length ≤ offset)
    (hoffset : offset ≤ bytes.length) :
    slice (splice bytes offset payload) start length = slice bytes start length := by
  have htake : (splice bytes offset payload).take offset = bytes.take offset :=
    take_splice hoffset
  have hwindow : ∀ xs : List UInt8,
      slice xs start length = slice (xs.take offset) start length := by
    intro xs
    simp only [slice, List.drop_take, List.take_take]
    rw [Nat.min_eq_left (by omega)]
  rw [hwindow, htake, ← hwindow]

/-- A payload hides what is under it, and nothing else. -/
theorem getElem?_splice {bytes : List UInt8} {offset : Nat} (payload : List UInt8)
    (hoffset : offset ≤ bytes.length) (p : Nat) :
    (splice bytes offset payload)[p]? =
      (if offset ≤ p then payload[p - offset]? else none).or bytes[p]? := by
  have hfront : (bytes.take offset).length = offset := by
    rw [List.length_take, Nat.min_eq_left hoffset]
  rw [splice]
  by_cases hp : offset ≤ p
  · rw [if_pos hp, List.getElem?_append_right (by omega), hfront]
    by_cases hunder : p - offset < payload.length
    · rw [List.getElem?_append_left hunder, List.getElem?_eq_getElem hunder, Option.some_or]
    · have hbehind : offset + payload.length + (p - offset - payload.length) = p := by omega
      rw [List.getElem?_append_right (by omega), List.getElem?_drop, hbehind,
        List.getElem?_eq_none (Nat.le_of_not_lt hunder), Option.none_or]
  · rw [if_neg hp, List.getElem?_append_left (by omega), List.getElem?_take_of_lt (by omega),
      Option.none_or]

namespace Packed

variable {α : Type} [Packed α]

/-- Cutting behind a piece of the right length cuts that piece off first. -/
theorem cut_append {width : Nat} {piece : List UInt8} (h : piece.length = width)
    (count : Nat) (rest : List UInt8) :
    cut width (count + 1) (piece ++ rest) [] = piece :: cut width count rest [] := by
  rw [cut, cut_append_taken, List.drop_left' h, List.take_left' h]
  rfl

/-- Spellings of one length are cut apart again, whatever follows them. -/
theorem cut_flatMap {β : Type} {width : Nat} {spell : β → List UInt8}
    (h : ∀ b, (spell b).length = width) (values : List β) (rest : List UInt8) :
    cut width values.length (values.flatMap spell ++ rest) [] = values.map spell := by
  induction values with
  | nil => rfl
  | cons b values ih =>
      rw [List.flatMap_cons, List.append_assoc, List.length_cons, cut_append (h b), ih]
      rfl

/-- A packed list is read back as it was. Values without width leave no trace
in the bytes, so that their number could not be told. -/
theorem unpackAll_packAll (hwidth : 0 < width α) (values : List α) :
    unpackAll (packAll values) = values := by
  have hcount : (packAll values).length / width α = values.length := by
    rw [length_packAll, Nat.mul_div_cancel _ hwidth]
  have hpieces : cut (width α) values.length (packAll values) [] = values.map pack := by
    have hcut := cut_flatMap length_pack values []
    rwa [List.append_nil] at hcut
  rw [unpackAll, hcount, hpieces, List.map_map]
  have hid : (unpack ∘ pack : α → α) = id := funext unpack_pack
  rw [hid, List.map_id]

/-- Bytes that make up a whole number of pieces are cut into such, and nothing is lost. -/
theorem cut_whole {width count : Nat} {bs : List UInt8} (h : bs.length = count * width) :
    (cut width count bs []).flatten = bs ∧
      ∀ piece ∈ cut width count bs [], piece.length = width := by
  induction count generalizing bs with
  | zero =>
      rw [Nat.zero_mul] at h
      rw [List.eq_nil_of_length_eq_zero h]
      exact ⟨rfl, fun piece hpiece => by cases hpiece⟩
  | succ count ih =>
      rw [Nat.succ_mul] at h
      obtain ⟨hrest, hpieces⟩ := @ih (bs.drop width) (by rw [List.length_drop]; omega)
      rw [cut, cut_append_taken, List.reverse_singleton, List.singleton_append]
      refine ⟨by rw [List.flatten_cons, hrest, List.take_append_drop], fun piece hpiece => ?_⟩
      rcases List.mem_cons.1 hpiece with rfl | hlater
      · rw [List.length_take]
        omega
      · exact hpieces piece hlater

theorem length_unpackAll (bs : List UInt8) :
    (unpackAll bs : List α).length = bs.length / width α := by
  rw [unpackAll, List.length_map, length_cut]

/-- Bytes that make up a whole number of values are the spelling of these. -/
theorem packAll_unpackAll {bs : List UInt8} (h : width α ∣ bs.length) :
    packAll (unpackAll bs : List α) = bs := by
  obtain ⟨hwhole, hpieces⟩ := cut_whole (Nat.div_mul_cancel h).symm
  rw [packAll, unpackAll, List.flatMap_def, List.map_map]
  generalize cut (width α) (bs.length / width α) bs [] = pieces at hwhole hpieces
  have hspelled : pieces.map (pack ∘ (unpack : List UInt8 → α)) = pieces := calc
    _ = pieces.map id := List.map_congr_left fun piece hpiece =>
      pack_unpack piece (hpieces piece hpiece)
    _ = pieces := List.map_id pieces
  rw [hspelled, hwhole]

end Packed

end Parcel
