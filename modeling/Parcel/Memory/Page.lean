/-!
# Pages

Sizes are 64-bit words. `roundUp? size page` is the least multiple of `page`
that is not below `size`; there is none when that multiple does not fit in a
word.
-/

namespace Parcel

def pageSize : UInt64 := 4096

/-- The least amount of shared memory that some systems grant. -/
def grantSize : UInt64 := 64 * 1024

/-- A grant is guarded on either side. -/
def guardSize : UInt64 := pageSize

/-- What a grant leaves between its guards. -/
def defaultChunkSize : UInt64 := grantSize - 2 * guardSize

/-- The page is a power of two, so that clearing the bits below it rounds down. -/
def roundUp? (size page : UInt64) : Option UInt64 :=
  let pad := page - 1
  if size.toNat + pad.toNat < UInt64.size then some ((size + pad) &&& ~~~pad) else none

/-- The bits inside a mask and those outside of it make up the word. -/
theorem toNat_mask_partition (n mask : UInt64) :
    (n &&& ~~~mask).toNat + (n &&& mask).toNat = n.toNat := by
  have hdisjoint : (n.toBitVec &&& ~~~mask.toBitVec) &&& (n.toBitVec &&& mask.toBitVec) = 0 := by
    ext i
    simp only [BitVec.getElem_and, BitVec.getElem_not]
    cases n.toBitVec[i] <;> cases mask.toBitVec[i] <;> simp
  have hjoin : (n.toBitVec &&& ~~~mask.toBitVec) ||| (n.toBitVec &&& mask.toBitVec) =
      n.toBitVec := by
    ext i
    simp only [BitVec.getElem_or, BitVec.getElem_and, BitVec.getElem_not]
    cases n.toBitVec[i] <;> cases mask.toBitVec[i] <;> decide
  have hsum := congrArg BitVec.toNat (BitVec.add_eq_or_of_and_eq_zero _ _ hdisjoint)
  rw [BitVec.toNat_add_of_and_eq_zero hdisjoint, hjoin] at hsum
  exact hsum

/-- Rounding up takes nothing away, whatever the page. -/
theorem le_of_roundUp? {size page rounded : UInt64} (h : roundUp? size page = some rounded) :
    size.toNat ≤ rounded.toNat := by
  simp only [roundUp?] at h
  split at h
  · next hword =>
      cases h
      have hsplit := toNat_mask_partition (size + (page - 1)) (page - 1)
      have hpad : ((size + (page - 1)) &&& (page - 1)).toNat ≤ (page - 1).toNat := by
        rw [UInt64.toNat_and]
        exact Nat.and_le_right
      rw [UInt64.toNat_add, Nat.mod_eq_of_lt hword] at hsplit
      omega
  · cases h

end Parcel
