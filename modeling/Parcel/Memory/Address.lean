import Parcel.Bytes.Enumerated

/-!
# Addresses of payloads

A payload lies in one segment, as a run of bytes. Segments come in two lists:
*small* ones, which many payloads share, and *large* ones, which hold one
payload each. An `Address` names the list, the segment and the run; all its
numbers are 32-bit words, so that an address has a fixed spelling.

Nothing here promises that an address fits a given pair of lists. That is for
the reader to decide (`Parcel.Memory.Segments`).
-/

namespace Parcel

inductive SegmentClass
  | small
  | large
  deriving DecidableEq, Repr, Inhabited

def SegmentClass.name : SegmentClass → String
  | small => "small"
  | large => "large"

instance : Enumerated SegmentClass where
  all := [.small, .large]
  name := SegmentClass.name
  code
    | .small => 0
    | .large => 1
  find_code a := by cases a <;> rfl

structure Address where
  cls : SegmentClass
  index : UInt32
  offset : UInt32
  length : UInt32
  deriving DecidableEq, Repr, Inhabited

namespace Address

def inSmall (index offset length : UInt32) : Address := ⟨.small, index, offset, length⟩

/-- Large payloads start where their segment starts. -/
def inLarge (index length : UInt32) : Address := ⟨.large, index, 0, length⟩

/-- The address of every empty payload. -/
def empty : Address := inSmall 0 0 0

def isEmpty (a : Address) : Bool := a.length == 0

def isSmall (a : Address) : Bool := a.cls == .small

def isLarge (a : Address) : Bool := a.cls == .large

/-- The position behind the last byte. It may exceed every 32-bit word. -/
def stop (a : Address) : Nat := a.offset.toNat + a.length.toNat

def render (a : Address) : String :=
  s!"{a.cls.name}[{a.index}] @{a.offset}+{a.length}"

theorem isEmpty_iff {a : Address} : a.isEmpty ↔ a.length.toNat = 0 := by
  simp [isEmpty, ← UInt32.toNat_inj]

end Address

end Parcel
