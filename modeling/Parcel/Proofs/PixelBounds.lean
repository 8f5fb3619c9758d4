import Parcel.Resource.Change

/-!
# Where the pixels of an image lie

The check of a payload computes one number, in words that stop at the greatest
one, and compares the length of the payload with it. What is meant by it is a
statement about every byte of every pixel. Here the two are brought together.

`span` is the position behind the last pixel, as a number. It can lie beyond the
words, and then the computed size is the greatest word (`toNat_requiredBytes`);
no payload is that long, so that the comparison still comes out right. With a
consistent description every pixel lies in front of the span and the last one
ends there, because rows only move forward (`pixelsWithin_iff_of_pos`). Together that
makes the check exact (`checkPayload_ok_iff`).
-/

namespace Parcel

theorem ImageFormat.bytesPerPixel_bounds (f : ImageFormat) :
    0 < f.bytesPerPixel.toNat ∧ f.bytesPerPixel.toNat ≤ 16 := by
  cases f <;> decide

namespace ImageDescriptor

/-- The bytes in one row of pixels. -/
def rowLength (d : ImageDescriptor) : Nat := d.width.toNat * d.format.bytesPerPixel.toNat

/-- The way from the start of one row to the start of the next. -/
def rowStep (d : ImageDescriptor) : Nat :=
  match d.stride with
  | some stride => stride.toNat
  | none => d.rowLength

/-- The position behind the last pixel. -/
def span (d : ImageDescriptor) : Nat :=
  d.offset.toNat + (d.height.toNat - 1) * d.rowStep + d.rowLength

/-- There are pixels, and rows do not overlap. -/
structure Consistent (d : ImageDescriptor) : Prop where
  width : d.width ≠ 0
  height : d.height ≠ 0
  stride : ∀ stride, d.stride = some stride → d.rowLength ≤ stride.toNat

/-- Each byte `x` of each row `y` is one of the first `length` bytes of the payload. -/
def PixelsWithin (d : ImageDescriptor) (length : Nat) : Prop :=
  ∀ y x, y < d.height.toNat → x < d.rowLength →
    d.offset.toNat + y * d.rowStep + x < length

/-! ## Words and numbers -/

theorem toNat_rowBytes (d : ImageDescriptor) : d.rowBytes.toNat = d.rowLength := by
  have hwidth : d.width.toNat < 4294967296 := d.width.toNat_lt
  have hpixel := d.format.bytesPerPixel_bounds.2
  have hproduct : d.width.toNat * d.format.bytesPerPixel.toNat ≤ 4294967296 * 16 :=
    Nat.mul_le_mul (Nat.le_of_lt hwidth) hpixel
  rw [rowBytes, UInt64.toNat_mul, UInt32.toNat_toUInt64, UInt32.toNat_toUInt64,
    Nat.mod_eq_of_lt (by omega), rowLength]

theorem toNat_rowStride (d : ImageDescriptor) : d.rowStride.toNat = d.rowStep := by
  rw [rowStride, rowStep]
  cases d.stride with
  | none => exact d.toNat_rowBytes
  | some stride => exact UInt32.toNat_toUInt64 stride

/-- The computed size is the span, or the greatest word if that is less. -/
theorem toNat_requiredBytes {d : ImageDescriptor} (h : d.height ≠ 0) :
    d.requiredBytes.toNat = min d.span (UInt64.size - 1) := by
  have hpos : 1 ≤ d.height.toNat := by
    rw [Nat.one_le_iff_ne_zero]
    exact fun hzero => h (UInt32.toNat_inj.1 hzero)
  have hrows : (d.height.toUInt64 - 1).toNat = d.height.toNat - 1 := by
    rw [UInt64.toNat_sub_of_le, UInt32.toNat_toUInt64]
    · rfl
    · rw [UInt64.le_iff_toNat_le, UInt32.toNat_toUInt64]
      exact hpos
  rw [requiredBytes, if_neg h]
  simp only [toNat_addSat, toNat_mulSat, toNat_rowStride, toNat_rowBytes, hrows,
    UInt32.toNat_toUInt64, span, Nat.mul_comm d.rowStep]
  omega

/-! ## What the checks mean -/

theorem check_ok_iff {d : ImageDescriptor} : d.check = .ok () ↔ d.Consistent := by
  rw [check]
  by_cases hempty : d.width = 0 ∨ d.height = 0
  · rw [if_pos hempty]
    constructor
    · intro h
      cases h
    · intro h
      exact (hempty.elim h.width h.height).elim
  · rw [not_or] at hempty
    rw [if_neg (not_or.2 hempty)]
    cases hstride : d.stride with
    | none =>
        refine ⟨fun _ => ⟨hempty.1, hempty.2, ?_⟩, fun _ => rfl⟩
        intro stride h
        rw [hstride] at h
        cases h
    | some stride =>
        have hshort : stride.toUInt64 < d.rowBytes ↔ stride.toNat < d.rowLength := by
          rw [UInt64.lt_iff_toNat_lt, UInt32.toNat_toUInt64, toNat_rowBytes]
        by_cases hrow : stride.toNat < d.rowLength
        · simp only [if_pos (hshort.2 hrow)]
          constructor
          · intro h
            cases h
          · intro h
            exact absurd (h.stride stride hstride) (Nat.not_le_of_lt hrow)
        · simp only [if_neg (mt hshort.1 hrow)]
          refine ⟨fun _ => ⟨hempty.1, hempty.2, ?_⟩, fun _ => trivial⟩
          intro stride' h
          rw [hstride] at h
          cases h
          exact Nat.le_of_not_lt hrow

theorem Consistent.pos {d : ImageDescriptor} (h : d.Consistent) :
    0 < d.height.toNat ∧ 0 < d.rowLength := by
  constructor
  · exact Nat.pos_of_ne_zero fun hzero => h.height (UInt32.toNat_inj.1 hzero)
  · refine Nat.mul_pos (Nat.pos_of_ne_zero fun hzero => h.width (UInt32.toNat_inj.1 hzero)) ?_
    exact d.format.bytesPerPixel_bounds.1

/-- Rows only move forward, so that no pixel reaches behind the last one. Whether they
overlap does not matter. -/
theorem pixelsWithin_iff_of_pos {d : ImageDescriptor} (hheight : 0 < d.height.toNat)
    (hrow : 0 < d.rowLength) {length : Nat} : d.PixelsWithin length ↔ d.span ≤ length := by
  constructor
  · intro hwithin
    have hlast := hwithin (d.height.toNat - 1) (d.rowLength - 1) (by omega) (by omega)
    rw [span]
    omega
  · intro hspan y x hy hx
    have hrows : y * d.rowStep ≤ (d.height.toNat - 1) * d.rowStep :=
      Nat.mul_le_mul_right _ (by omega)
    rw [span] at hspan
    omega

theorem pixelsWithin_iff {d : ImageDescriptor} (h : d.Consistent) {length : Nat} :
    d.PixelsWithin length ↔ d.span ≤ length :=
  pixelsWithin_iff_of_pos h.pos.1 h.pos.2

/-- The check accepts just the payloads that hold every pixel. No payload is as
long as the greatest word. -/
theorem checkPayload_ok_iff {d : ImageDescriptor} {length : Nat}
    (hlength : length < UInt64.size - 1) :
    d.checkPayload length = .ok () ↔ d.Consistent ∧ d.span ≤ length := by
  rw [checkPayload]
  cases hcheck : d.check with
  | error cause =>
      have hbad : ¬ d.Consistent := by
        rw [← check_ok_iff, hcheck]
        simp
      simp [hbad, bind, Except.bind]
  | ok _ =>
      have hgood : d.Consistent := check_ok_iff.1 hcheck
      have hrequired := toNat_requiredBytes hgood.height
      -- A size that was cut off at the greatest word is still longer than any payload.
      show (if length < d.requiredBytes.toNat then Except.error _ else .ok ()) = .ok () ↔
        d.Consistent ∧ d.span ≤ length
      by_cases hshort : length < d.span
      · rw [if_pos (by omega)]
        constructor
        · intro h
          cases h
        · intro h
          exact absurd h.2 (Nat.not_le_of_lt hshort)
      · rw [if_neg (by omega)]
        exact ⟨fun _ => ⟨hgood, Nat.le_of_not_lt hshort⟩, fun _ => rfl⟩

end ImageDescriptor

end Parcel
