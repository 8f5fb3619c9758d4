/-!
# Saturating words

Sums and products of 64-bit words that stop at the greatest word instead of
wrapping. Read as numbers they are the exact result or the greatest word,
whichever is less (`toNat_addSat`, `toNat_mulSat`).
-/

namespace Parcel

def maxWord : UInt64 := 0xffffffffffffffff

def addSat (a b : UInt64) : UInt64 :=
  if a.toNat + b.toNat < UInt64.size then a + b else maxWord

def mulSat (a b : UInt64) : UInt64 :=
  if a.toNat * b.toNat < UInt64.size then a * b else maxWord

theorem toNat_maxWord : maxWord.toNat = UInt64.size - 1 := rfl

theorem toNat_addSat (a b : UInt64) :
    (addSat a b).toNat = min (a.toNat + b.toNat) (UInt64.size - 1) := by
  have hsize : UInt64.size = 18446744073709551616 := rfl
  unfold addSat
  split
  · rw [UInt64.toNat_add]
    omega
  · rw [toNat_maxWord]
    omega

theorem toNat_mulSat (a b : UInt64) :
    (mulSat a b).toNat = min (a.toNat * b.toNat) (UInt64.size - 1) := by
  have hsize : UInt64.size = 18446744073709551616 := rfl
  unfold mulSat
  split
  · rw [UInt64.toNat_mul]
    omega
  · rw [toNat_maxWord]
    omega

end Parcel
