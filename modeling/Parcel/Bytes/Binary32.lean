/-!
# Binary32 numbers as bits

Sizes and axis values travel as the bits of a binary32 number and are copied
unchanged, a NaN with its payload included. Comparison is the one place where
the bits are read as a number: `Binary32.equal` is reflexive exactly on the
numbers (`equal_self`).
-/

namespace Parcel

structure Binary32 where
  bits : UInt32
  deriving DecidableEq, Repr, Inhabited

namespace Binary32

/-- All exponent bits set and a fraction that is not zero. -/
def isNaN (x : Binary32) : Bool :=
  0x7f800000 < x.bits &&& 0x7fffffff

/-- Both zeros, which differ in the sign bit only. -/
def isZero (x : Binary32) : Bool :=
  x.bits &&& 0x7fffffff == 0

/-- Equality of numbers: a NaN equals nothing, and the two zeros are equal. -/
def equal (x y : Binary32) : Bool :=
  !x.isNaN && !y.isNaN && (x.bits == y.bits || x.isZero && y.isZero)

theorem equal_self (x : Binary32) : x.equal x = !x.isNaN := by
  simp [equal]

end Binary32

end Parcel
