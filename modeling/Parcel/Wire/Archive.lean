import Parcel.Fault
import Parcel.Wire.Record

/-!
# Archives

An archive is a list of records followed by its *root*: a header of fixed
length, a pointer to the first record and the number of records. The pointer
is a signed 32-bit distance from its own position.

Whoever reads an archive starts from the root, at its end, and follows the
pointer. The records have to lie in front of the root and to be aligned; they
need not fill what is there.
-/

namespace Parcel

structure Archive where
  header : List UInt8 := []
  updates : List Update

namespace Archive

/-- Of the first record. -/
def recordAlignment : Nat := 8

/-- Of the root. -/
def rootAlignment : Nat := 4

/-- The pointer and the count take four bytes each. -/
def rootSize (headerSize : Nat) : Nat := headerSize + 8

/-- Pointers reach back at most this far. -/
def reach : Nat := 1 <<< 31

def records (updates : List Update) : List UInt8 := updates.flatMap Record.encode

/-- What the pointer has to span. -/
def distance (a : Archive) : Nat := (records a.updates).length + a.header.length

def encode (a : Archive) : Except Fault (List UInt8) :=
  let bytes := records a.updates ++ a.header ++ Packed.pack (Int32.ofInt (-a.distance)) ++
    Packed.pack (UInt32.ofNat a.updates.length)
  if a.distance ≤ reach then .ok bytes else .error (.archive (.tooLong bytes.length))

/-- Where the records begin, and how many there are. -/
def recordsOf? (headerSize : Nat) (bytes : List UInt8) : Option (Nat × Nat) := do
  guard (rootSize headerSize ≤ bytes.length)
  let root := bytes.length - rootSize headerSize
  guard (root % rootAlignment = 0)
  let pointer := root + headerSize
  let start := (pointer : Int) + (Record.valueAt Int32 bytes pointer).toInt
  guard (0 ≤ start)
  let count := (Record.valueAt UInt32 bytes (pointer + 4)).toNat
  guard (start.toNat % recordAlignment = 0 ∧ start.toNat + Record.size * count ≤ root)
  return (start.toNat, count)

def decode? (headerSize : Nat) (bytes : List UInt8) : Option Archive := do
  let (start, count) ← recordsOf? headerSize bytes
  let updates ← (Packed.cut Record.size count (bytes.drop start) []).mapM Record.decode?
  return { header := slice bytes (bytes.length - rootSize headerSize) headerSize, updates }

end Archive

end Parcel
