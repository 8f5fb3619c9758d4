import Parcel.Memory.Segments
import Parcel.Resource.Change

/-!
# Batches

A batch is a list of records together with the segments that their addresses
point into. Nothing ties the two together by itself: a batch may also be paired
from records and segments that came different ways, and then an address that
does not fit is found out when it is read.
-/

namespace Parcel

structure Batch where
  updates : List Update := []
  segments : Segments := {}

namespace Batch

def isEmpty (b : Batch) : Bool := b.updates.isEmpty && b.segments.isEmpty

/-- The bytes of the record's payload, if its kind has one. -/
def payload (b : Batch) (u : Update) : Except Fault (Option (List UInt8)) × List Entry :=
  match u.address? with
  | none => (.ok none, [])
  | some address =>
    let (answer, entries) := b.segments.read address
    (answer.map some, entries)

/-- The axis values of a font instance. Every other record has none. -/
def variations (b : Batch) : Update → Except Fault (List FontVariation) × List Entry
  | .addFontInstance _ _ _ _ _ address => b.segments.readValues FontVariation address
  | _ => (.ok [], [])

/-- A record with what its addresses name. -/
structure Resolved where
  kind : UpdateKind
  payload : Except Fault (Option (List UInt8))
  variations : Except Fault (List FontVariation)

/-- Reads the payload of each record, and then its axis values. -/
def resolve (b : Batch) : List (Resolved × List Entry) :=
  b.updates.map fun u =>
    let (payload, entries) := b.payload u
    let (variations, entries') := b.variations u
    (⟨u.kind, payload, variations⟩, entries ++ entries')

end Batch

end Parcel
