/-!
# Flags

A word of flags belongs to a table of named bits. Bits that the table does not
name are kept wherever they come from outside; only `ofBits?` refuses them, and
`truncate` and `complement` drop them.
-/

namespace Parcel

structure FlagTable where
  flags : List (String × UInt32)
  deriving DecidableEq

def FlagTable.known (t : FlagTable) : UInt32 :=
  t.flags.foldl (fun bits flag => bits ||| flag.2) 0

structure Flags (table : FlagTable) where
  bits : UInt32 := 0
  deriving DecidableEq, Repr

namespace Flags

variable {t : FlagTable}

instance : Inhabited (Flags t) := ⟨{}⟩

def all : Flags t := ⟨t.known⟩

def isEmpty (a : Flags t) : Bool := a.bits == 0

def contains (a b : Flags t) : Bool := a.bits &&& b.bits == b.bits

def intersects (a b : Flags t) : Bool := a.bits &&& b.bits != 0

def isAll (a : Flags t) : Bool := a.contains all

def union (a b : Flags t) : Flags t := ⟨a.bits ||| b.bits⟩

def inter (a b : Flags t) : Flags t := ⟨a.bits &&& b.bits⟩

def diff (a b : Flags t) : Flags t := ⟨a.bits &&& ~~~b.bits⟩

def symmDiff (a b : Flags t) : Flags t := ⟨a.bits ^^^ b.bits⟩

def truncate (a : Flags t) : Flags t := a.inter all

def complement (a : Flags t) : Flags t := ⟨~~~a.bits &&& t.known⟩

/-- Refuses bits without a name. -/
def ofBits? (bits : UInt32) : Option (Flags t) :=
  if bits &&& ~~~t.known = 0 then some ⟨bits⟩ else none

/-- The named flags that are wholly set, in the order of the table. -/
def names (a : Flags t) : List String :=
  (t.flags.filter fun flag => a.contains ⟨flag.2⟩).map (·.1)

end Flags

end Parcel
