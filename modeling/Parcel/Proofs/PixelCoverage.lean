import Mathlib.Algebra.GroupWithZero.Nat
import Parcel.Proofs.PackerGuarded
import Parcel.Proofs.PixelBounds

/-!
# The check of a payload is exact

`PixelBounds.lean` says what the required size is as a number and which payloads hold
every pixel. Here the check is held to both, for every description and for every
length that a payload can have (`payload_check_exact`).

A word that wrapped around on the way could come out right by accident. So the check
is carried out a second time, in numbers (`checkPayloadGuarded?`): where it forms a
plain product or a plain difference, the result has to be a word as it stands, or else
there is no answer. Sums and the product of stride and rows are of the kind that stops
at the greatest word, and are taken as that. There always is an answer, and it is the
one that the check gives.
-/

namespace Parcel

/-- The product, if it is a 64-bit word. -/
def times? (a b : Nat) : Option Nat := if a * b < UInt64.size then some (a * b) else none

/-- The number, or the greatest word if that is less. -/
def capped (n : Nat) : Nat := min n (UInt64.size - 1)

namespace ImageDescriptor

/-! ## The check under guard -/

/-- The bytes in one row. -/
def rowGuarded? (d : ImageDescriptor) : Option Nat :=
  times? d.width.toNat d.format.bytesPerPixel.toNat

/-- What a payload has to hold. -/
def requiredGuarded? (d : ImageDescriptor) : Option Nat :=
  if d.height = 0 then some d.offset.toNat
  else do
    let row ← d.rowGuarded?
    let step := (d.stride.map UInt32.toNat).getD row
    let padded := capped (step * (← minus? d.height.toNat 1))
    return capped (capped (d.offset.toNat + padded) + row)

def checkGuarded? (d : ImageDescriptor) : Option (Except DescriptorFault Unit) :=
  if d.width = 0 ∨ d.height = 0 then
    some (.error (.emptyImage d.width.toNat d.height.toNat))
  else match d.stride with
    | none => some (.ok ())
    | some stride => do
      let row ← d.rowGuarded?
      return if stride.toNat < row then .error (.shortStride stride.toNat row) else .ok ()

def checkPayloadGuarded? (d : ImageDescriptor) (length : Nat) :
    Option (Except DescriptorFault Unit) := do
  match ← d.checkGuarded? with
  | .error cause => return .error cause
  | .ok () =>
    let required ← d.requiredGuarded?
    return if length < required then
        .error (.shortPayload d.width.toNat d.height.toNat d.format.name required length)
      else .ok ()

/-! ## The guards are kept -/

/-- A row is much shorter than the greatest word. -/
theorem rowGuarded?_eq (d : ImageDescriptor) : d.rowGuarded? = some d.rowLength := by
  have hword : d.rowBytes.toNat < UInt64.size := d.rowBytes.toNat_lt
  rw [toNat_rowBytes, rowLength] at hword
  rw [rowGuarded?, times?, if_pos hword, rowLength]

theorem step_eq (d : ImageDescriptor) :
    (d.stride.map UInt32.toNat).getD d.rowLength = d.rowStep := by
  rw [rowStep]
  cases d.stride with
  | none => rfl
  | some stride => rfl

/-- The stops at the greatest word come to one stop at the end. -/
theorem capped_span (a b c : Nat) :
    capped (capped (a + capped b) + c) = min (a + b + c) (UInt64.size - 1) := by
  simp only [capped]
  omega

theorem requiredGuarded?_eq (d : ImageDescriptor) :
    d.requiredGuarded? = some d.requiredBytes.toNat := by
  rw [requiredGuarded?]
  split
  · next hzero => rw [requiredBytes, if_pos hzero, UInt32.toNat_toUInt64]
  · next hzero =>
      -- There is a row, so that one less is still a number of rows.
      have hpos : 1 ≤ d.height.toNat :=
        Nat.one_le_iff_ne_zero.2 fun h => hzero (UInt32.toNat_inj.1 h)
      have hrows : minus? d.height.toNat 1 = some (d.height.toNat - 1) := if_pos hpos
      simp only [rowGuarded?_eq, hrows, step_eq, capped_span, Option.bind_eq_bind,
        Option.bind_some, Option.pure_def]
      rw [toNat_requiredBytes hzero, span, Nat.mul_comm d.rowStep]

theorem checkGuarded?_eq (d : ImageDescriptor) : d.checkGuarded? = some d.check := by
  rw [checkGuarded?, check]
  split
  · rfl
  · cases d.stride with
    | none => rfl
    | some stride =>
        have hshort : stride.toUInt64 < d.rowBytes ↔ stride.toNat < d.rowLength := by
          rw [UInt64.lt_iff_toNat_lt, UInt32.toNat_toUInt64, toNat_rowBytes]
        simp only [rowGuarded?_eq, hshort, toNat_rowBytes, Option.bind_eq_bind,
          Option.bind_some, Option.pure_def]

theorem checkPayloadGuarded?_eq (d : ImageDescriptor) (length : Nat) :
    d.checkPayloadGuarded? length = some (d.checkPayload length) := by
  rw [checkPayloadGuarded?, checkGuarded?_eq, checkPayload]
  cases d.check with
  | error cause => rfl
  | ok _ =>
      simp only [requiredGuarded?_eq, Option.bind_eq_bind, Option.bind_some, Option.pure_def]
      rfl

/-! ## The main statement -/

/-- The check of a payload accepts a description and a length exactly if there are
pixels, rows do not overlap, and each byte of each pixel is in the payload. The
required size is the exact one, which is the least length that holds every pixel, or
the greatest word if that is less. And nothing wraps around on the way. -/
theorem payload_check_exact (d : ImageDescriptor) :
    (∀ length ≤ 2 ^ 63 - 1,
      d.checkPayload length = .ok () ↔ d.Consistent ∧ d.PixelsWithin length) ∧
    (d.height ≠ 0 → d.requiredBytes.toNat = min (2 ^ 64 - 1) d.span) ∧
    (d.width ≠ 0 → d.height ≠ 0 → ∀ length, d.PixelsWithin length ↔ d.span ≤ length) ∧
    d.requiredGuarded? = some d.requiredBytes.toNat ∧
    ∀ length, d.checkPayloadGuarded? length = some (d.checkPayload length) := by
  refine ⟨fun length hlength => ?_, fun hheight => ?_, fun hwidth hheight length => ?_,
    d.requiredGuarded?_eq, d.checkPayloadGuarded?_eq⟩
  · have hword : length < UInt64.size - 1 := Nat.lt_of_le_of_lt hlength (by decide)
    rw [checkPayload_ok_iff hword]
    exact and_congr_right fun h => (pixelsWithin_iff h).symm
  · have hgreatest : 2 ^ 64 - 1 = UInt64.size - 1 := rfl
    rw [hgreatest, toNat_requiredBytes hheight, Nat.min_comm]
  · have hrows : 0 < d.height.toNat :=
      Nat.pos_of_ne_zero fun h => hheight (UInt32.toNat_inj.1 h)
    have hpixels : 0 < d.width.toNat :=
      Nat.pos_of_ne_zero fun h => hwidth (UInt32.toNat_inj.1 h)
    exact pixelsWithin_iff_of_pos hrows
      (Nat.mul_pos hpixels d.format.bytesPerPixel_bounds.1)

/-- The greatest image of all needs more bytes than a word can count. The longest payload
does not hold it, and a greatest image of one row it does. -/
theorem payload_check_exact_greatest :
    let d : ImageDescriptor := ⟨.rgbaf32, 0xffffffff, 0xffffffff, none, 0xffffffff, {}⟩
    let row : ImageDescriptor := ⟨.rgbaf32, 0xffffffff, 1, some 0xffffffff, 0, {}⟩
    2 ^ 64 ≤ d.span ∧ d.requiredBytes.toNat = 2 ^ 64 - 1 ∧ ¬ d.PixelsWithin (2 ^ 63 - 1) ∧
      row.PixelsWithin (2 ^ 63 - 1) ∧ row.checkPayload (2 ^ 63 - 1) ≠ .ok () := by
  intro d row
  obtain ⟨-, hrequired, hleast, -⟩ := d.payload_check_exact
  obtain ⟨hcheck, -, hleast', -⟩ := row.payload_check_exact
  have hspan : 2 ^ 64 ≤ d.span := by decide
  refine ⟨hspan, (hrequired (by decide)).trans (Nat.min_eq_left (by omega)), ?_, ?_, ?_⟩
  · rw [hleast (by decide) (by decide)]
    omega
  · exact (hleast' (by decide) (by decide) _).2 (by decide)
  · -- A stride of one word is shorter than a row of pixels of sixteen bytes.
    rw [Ne, hcheck _ (Nat.le_refl _)]
    rintro ⟨hconsistent, -⟩
    exact absurd (hconsistent.stride _ rfl) (by decide)

end ImageDescriptor

end Parcel
