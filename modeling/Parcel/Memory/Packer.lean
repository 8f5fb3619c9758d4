import Parcel.Journal.Entry
import Parcel.Memory.Allocator
import Parcel.Memory.Segments

/-!
# Packing payloads into segments

A packer puts payloads one after another. One that fits into a chunk shares a
*small* segment with its neighbours and lies in it as a whole: when the chunk
that is being filled has too little room left, a fresh one is started. A longer
payload gets a *large* segment of its own. The two lists know nothing of each
other, so a large payload never moves the place where the next small one goes.

`write` answers with the address of the payload in the segments that the next
`flush` hands over.
-/

namespace Parcel

/-- How much room a small segment offers. Every offset in it is a 32-bit word. -/
structure ChunkSize where
  bytes : Nat
  pos : 0 < bytes
  addressable : bytes < UInt32.size
  deriving DecidableEq

def ChunkSize.ofSize (size : UInt64) : Except Fault ChunkSize :=
  if h : 0 < size.toNat then
    if h' : size.toNat < UInt32.size then .ok ⟨size.toNat, h, h'⟩
    else .error (.config (.chunkSizeTooLarge size.toNat))
  else .error (.config .zeroChunkSize)

/-- The small segment that is being filled, from its start up to `used`. -/
structure Chunk where
  segment : Segment
  used : Nat

structure Packer (α : Type) where
  allocator : α
  chunkSize : ChunkSize
  /-- Small segments that take no more payloads. -/
  filled : List Segment := []
  current : Option Chunk := none
  large : List Segment := []

namespace Packer

variable {α : Type}

def small (p : Packer α) : List Segment :=
  p.filled ++ (p.current.map Chunk.segment).toList

/-- Where the next small payload goes, if it fits there. -/
def cursor (p : Packer α) : Nat := (p.current.map Chunk.used).getD 0

def segments (p : Packer α) : Segments := { small := p.small, large := p.large }

def isEmpty (p : Packer α) : Bool := p.segments.isEmpty

def emptied (p : Packer α) : Packer α :=
  { p with filled := [], current := none, large := [] }

def render (p : Packer α) : String :=
  "SegmentWriter \x7b chunk_size: " ++ toString p.chunkSize.bytes ++
    ", small: " ++ toString p.small.length ++ ", large: " ++ toString p.large.length ++
    ", cursor: " ++ toString p.cursor ++ " \x7d"

def ofSize (allocator : α) (size : UInt64) : Except Fault (Packer α) := do
  return { allocator, chunkSize := ← ChunkSize.ofSize size }

/-- Hands over all segments and starts anew. -/
def flush (p : Packer α) : Segments × Packer α × List Entry :=
  (p.segments, p.emptied, [.segmentsFlushed p.small.length p.large.length])

/-- Drops all segments. -/
def clear (p : Packer α) : Packer α × List Entry :=
  (p.emptied, if p.isEmpty then [] else [.segmentsDiscarded p.small.length p.large.length])

/-- Every segment of a list needs an index that is a 32-bit word. -/
def checkIndex (count : Nat) : Except Fault Unit :=
  if count < UInt32.size then .ok () else .error (.allocation .indexTooLarge)

variable [Allocator α]

/-- Obtains a segment of at least `size` bytes that can be written. -/
def acquire (p : Packer α) (cls : SegmentClass) (size : Nat) : Outcome (Packer α) Segment :=
  match Allocator.allocate p.allocator (UInt64.ofNat size) with
  | (.error fault, allocator) =>
    ⟨.error fault, { p with allocator }, [.allocationFailed cls size fault]⟩
  | (.ok segment, allocator) =>
    if segment.size < size then
      ⟨.error (.allocation (.undersized cls segment.size size)), { p with allocator },
        [.segmentRejected cls]⟩
    else
      let (granted, segment) := segment.requestAccess
      if granted then ⟨.ok segment, { p with allocator }, [.allocated cls size segment.size]⟩
      else ⟨.error (.allocation (.readOnly cls)), { p with allocator }, [.segmentRejected cls]⟩

/-- Closes the chunk that is being filled and starts a fresh one. -/
def rotate (p : Packer α) : Outcome (Packer α) Chunk :=
  match checkIndex p.small.length with
  | .error fault => ⟨.error fault, p, []⟩
  | .ok () =>
    (p.acquire .small p.chunkSize.bytes).andThen fun segment p =>
      let chunk := { segment, used := 0 }
      ⟨.ok chunk, { p with filled := p.small, current := some chunk }, []⟩

/-- Puts the payload at the end of what `chunk`, the current chunk, holds. -/
def place (p : Packer α) (chunk : Chunk) (payload : List UInt8) : Outcome (Packer α) Address :=
  let (granted, segment) := chunk.segment.requestAccess
  if granted then
    let chunk' :=
      { segment := segment.overwrite chunk.used payload, used := chunk.used + payload.length }
    ⟨.ok (.inSmall (.ofNat p.filled.length) (.ofNat chunk.used) (.ofNat payload.length)),
      { p with current := some chunk' }, [.written .small payload.length]⟩
  else ⟨.error (.segment (.readOnly .small)), { p with current := some { chunk with segment } }, []⟩

def writeSmall (p : Packer α) (payload : List UInt8) : Outcome (Packer α) Address :=
  match p.current with
  | none => p.rotate.andThen fun chunk p => p.place chunk payload
  | some chunk =>
    if payload.length ≤ p.chunkSize.bytes - chunk.used then p.place chunk payload
    else p.rotate.andThen fun chunk p => p.place chunk payload

def writeLarge (p : Packer α) (payload : List UInt8) : Outcome (Packer α) Address :=
  match checkIndex p.large.length with
  | .error fault => ⟨.error fault, p, []⟩
  | .ok () =>
    (p.acquire .large payload.length).andThen fun segment p =>
      let (granted, segment) := segment.requestAccess
      if granted then
        ⟨.ok (.inLarge (.ofNat p.large.length) (.ofNat payload.length)),
          { p with large := p.large ++ [segment.overwrite 0 payload] },
          [.written .large payload.length]⟩
      else ⟨.error (.segment (.readOnly .large)), p, []⟩

/-- An empty payload takes no room. -/
def write (p : Packer α) (payload : List UInt8) : Outcome (Packer α) Address :=
  if payload.isEmpty then ⟨.ok .empty, p, []⟩
  else if UInt32.size ≤ payload.length then
    ⟨.error (.allocation (.payloadTooLong payload.length)), p, []⟩
  else if p.chunkSize.bytes < payload.length then p.writeLarge payload
  else p.writeSmall payload

/-- Writes values without gaps. -/
def writeValues {β : Type} [Packed β] (p : Packer α) (values : List β) :
    Outcome (Packer α) Address :=
  p.write (Packed.packAll values)

end Packer

end Parcel
