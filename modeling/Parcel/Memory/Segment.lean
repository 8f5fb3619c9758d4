import Parcel.Bytes.Splice
import Parcel.Fault

/-!
# Segments

A segment is a run of bytes of fixed length. Whether it may be written is
asked of its owner each time anew: `grants n bytes` is the answer to the `n`-th
request if the segment holds `bytes` by then, and `asked` counts the requests so
far. Plain memory gives one answer for ever; an owner may also withdraw access
after a while, hand it out again, or seal the segment because of what has been
put into it.

`requestAccess` makes one request. `write?` makes one request and then
overwrites a run that lies inside the segment.
-/

namespace Parcel

inductive MemoryKind
  | heap
  | shared
  deriving DecidableEq, Repr

namespace MemoryKind

/-- Only shared memory can be mapped by another process. -/
def crossesProcesses : MemoryKind → Bool
  | heap => false
  | shared => true

def name : MemoryKind → String
  | heap => "Heap"
  | shared => "SharedMemory"

end MemoryKind

structure Segment where
  bytes : List UInt8
  memory : MemoryKind := .heap
  grants : Nat → List UInt8 → Bool := fun _ _ => true
  asked : Nat := 0

inductive WriteRefusal
  | readOnly
  | outOfBounds
  deriving DecidableEq, Repr

namespace Segment

def size (s : Segment) : Nat := s.bytes.length

def isEmpty (s : Segment) : Bool := s.bytes.isEmpty

/-- Memory of one owner that holds the given bytes. -/
def ofBytes (bytes : List UInt8) : Segment := { bytes }

/-- Zeroed memory of one owner. A size that memory does not hold has no answer: it stops the
program (from `2 ^ 63` on it is a panic before any memory is asked for), so that what is said
here of such a size is said of no run. -/
def zeroed (size : UInt64) : Except Fault Segment :=
  if size = 0 then .error (.allocation .zeroSize)
  else .ok (ofBytes (List.replicate size.toNat 0))

def readOnly (s : Segment) : Segment := { s with grants := fun _ _ => false }

/-- Grants access for the next `n` requests and refuses it from then on. -/
def writableTimes (s : Segment) (n : Nat) : Segment :=
  { s with grants := fun k _ => k < s.asked + n }

def requestAccess (s : Segment) : Bool × Segment :=
  (s.grants s.asked s.bytes, { s with asked := s.asked + 1 })

/-- What another process gets to map: the length of the shared memory. -/
def sharedSize? (s : Segment) : Option Nat :=
  if s.memory.crossesProcesses then some s.size else none

/-- A second view of the same bytes in plain memory. -/
def copy (s : Segment) : Segment := ofBytes s.bytes

/-- The run has to lie inside the segment. -/
def overwrite (s : Segment) (offset : Nat) (payload : List UInt8) : Segment :=
  { s with bytes := splice s.bytes offset payload }

def write? (s : Segment) (offset : Nat) (payload : List UInt8) :
    Except WriteRefusal Unit × Segment :=
  let (granted, s) := s.requestAccess
  if !granted then (.error .readOnly, s)
  else if s.size < offset + payload.length then (.error .outOfBounds, s)
  else (.ok (), s.overwrite offset payload)

def render (s : Segment) : String :=
  "Segment \x7b len: " ++ toString s.size ++ ", memory_type: " ++ s.memory.name ++ " \x7d"

@[simp] theorem bytes_requestAccess (s : Segment) : s.requestAccess.2.bytes = s.bytes := rfl

@[simp] theorem size_requestAccess (s : Segment) : s.requestAccess.2.size = s.size := rfl

theorem size_overwrite {s : Segment} {offset : Nat} {payload : List UInt8}
    (h : offset + payload.length ≤ s.size) : (s.overwrite offset payload).size = s.size :=
  length_splice h

end Segment

end Parcel
