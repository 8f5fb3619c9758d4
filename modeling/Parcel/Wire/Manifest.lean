import Parcel.Batch.Basic
import Parcel.Wire.Archive
import Parcel.Wire.Frame

/-!
# Sending records and batches

The records of a batch travel in a frame and its segments by another way. The
frame also tells how many segments of either class there were, its *manifest*,
so that the receiver can refuse segments that come from another batch.
-/

namespace Parcel

def frameUpdates (updates : List Update) : Except Fault (List UInt8) := do
  Frame.wrap (← Archive.encode { updates })

def decodeUpdates? (body : List UInt8) : Option (List Update) := do
  let archive ← Archive.decode? 0 body
  return archive.updates

def unframeUpdates (buffer : List UInt8) : Except Fault (Option (List Update × Nat)) :=
  Frame.read decodeUpdates? buffer

structure Manifest where
  smallSegments : UInt32
  largeSegments : UInt32
  updates : List Update
  deriving DecidableEq, Repr

namespace Manifest

/-- Two counts. -/
def headerSize : Nat := 8

def checkCount (count : Nat) : Except Fault UInt32 :=
  if count < UInt32.size then .ok (UInt32.ofNat count) else .error (.segment (.tooManySegments count))

def ofBatch (b : Batch) : Except Fault Manifest := do
  return {
    smallSegments := ← checkCount b.segments.small.length
    largeSegments := ← checkCount b.segments.large.length
    updates := b.updates }

/-- Equality with records compared as `Change.equal` does. -/
def equal (a b : Manifest) : Bool :=
  a.smallSegments == b.smallSegments && a.largeSegments == b.largeSegments &&
    Change.equalLists a.updates b.updates

/-- The batch of these records, if the segments are as many as were sent. -/
def pair (m : Manifest) (segments : Segments) : Except Fault Batch :=
  if segments.small.length = m.smallSegments.toNat ∧
      segments.large.length = m.largeSegments.toNat then
    .ok { updates := m.updates, segments }
  else
    .error (.segment (.countMismatch m.smallSegments.toNat m.largeSegments.toNat
      segments.small.length segments.large.length))

def encode (m : Manifest) : Except Fault (List UInt8) :=
  Archive.encode
    { header := Packed.pack m.smallSegments ++ Packed.pack m.largeSegments, updates := m.updates }

def decode? (body : List UInt8) : Option Manifest := do
  let archive ← Archive.decode? headerSize body
  return {
    smallSegments := Record.valueAt UInt32 archive.header 0
    largeSegments := Record.valueAt UInt32 archive.header 4
    updates := archive.updates }

end Manifest

def frameBatch (b : Batch) : Except Fault (List UInt8) := do
  let manifest ← Manifest.ofBatch b
  Frame.wrap (← manifest.encode)

def unframeBatch (buffer : List UInt8) : Except Fault (Option (Manifest × Nat)) :=
  Frame.read Manifest.decode? buffer

/-- The batch that a receiver gets who reads the frame of `b` and has received `segments`, and the
length of the frame. -/
def Batch.transport (b : Batch) (segments : Segments) : Except Fault (Batch × Nat) := do
  let frame ← frameBatch b
  match ← unframeBatch frame with
  | none => throw (.archive (.malformed frame))
  | some (manifest, consumed) => return (← manifest.pair segments, consumed)

end Parcel
