import Parcel.Bytes.Packed
import Parcel.Journal.Entry
import Parcel.Memory.Shared

/-!
# Reading what an address names

`Segments` are the two lists that addresses point into. `resolve` decides
whether an address fits them, and if so which bytes it names; addresses are
taken from anywhere, so every bound is checked. The address of an empty payload
fits any segments, whatever else it says.

The reading functions are `resolve` under three forms of answer (bytes, bytes
added to a buffer, values), each reporting a refusal once.
-/

namespace Parcel

structure Segments where
  small : List Segment := []
  large : List Segment := []

namespace Segments

def isEmpty (s : Segments) : Bool := s.small.isEmpty && s.large.isEmpty

def totalBytes (s : Segments) : Nat := ((s.small ++ s.large).map Segment.size).foldr (· + ·) 0

/-- The same bytes in plain memory. -/
def copy (s : Segments) : Segments :=
  { small := s.small.map Segment.copy, large := s.large.map Segment.copy }

/-- All segments mapped once more, if all of them can be. -/
def remap? (s : Segments) : Option Segments := do
  return { small := ← s.small.mapM Segment.remap?, large := ← s.large.mapM Segment.remap? }

def resolveSmall (s : Segments) (a : Address) : Except AddressFault (List UInt8) :=
  match s.small[a.index.toNat]? with
  | none => .error (.indexPast .small s.small.length)
  | some segment =>
    if a.stop ≤ segment.size then .ok (slice segment.bytes a.offset.toNat a.length.toNat)
    else .error (.spanExceeds segment.size)

def resolveLarge (s : Segments) (a : Address) : Except AddressFault (List UInt8) :=
  match s.large[a.index.toNat]? with
  | none => .error (.indexPast .large s.large.length)
  | some segment =>
    if a.offset ≠ 0 then .error .offsetInLarge
    else if a.length.toNat ≤ segment.size then .ok (segment.bytes.take a.length.toNat)
    else .error (.lengthExceeds segment.size)

def resolve (s : Segments) (a : Address) : Except AddressFault (List UInt8) :=
  if a.isEmpty then .ok []
  else match a.cls with
    | .small => s.resolveSmall a
    | .large => s.resolveLarge a

/-- The payload as values without gaps. Values of no width have no payload at all. -/
def resolveValues (β : Type) [Packed β] (s : Segments) (a : Address) :
    Except AddressFault (List β) := do
  let bytes ← s.resolve a
  if Packed.width β = 0 ∨ bytes.length % Packed.width β ≠ 0 then
    .error (.partialElement (Packed.width β))
  else .ok (Packed.unpackAll bytes)

/-- A refusal becomes a fault of the address and is reported. -/
def reported {β : Type} (a : Address) : Except AddressFault β → Except Fault β × List Entry
  | .ok value => (.ok value, [])
  | .error cause => (.error (.address a cause), [.readRejected a cause])

def read (s : Segments) (a : Address) : Except Fault (List UInt8) × List Entry :=
  reported a (s.resolve a)

def readValues (β : Type) [Packed β] (s : Segments) (a : Address) :
    Except Fault (List β) × List Entry :=
  reported a (s.resolveValues β a)

/-- Adds the payload to a buffer, which a refusal leaves alone. -/
def readOnto (s : Segments) (a : Address) (buffer : List UInt8) : Outcome (List UInt8) Unit :=
  match s.read a with
  | (.ok bytes, entries) => ⟨.ok (), buffer ++ bytes, entries⟩
  | (.error fault, entries) => ⟨.error fault, buffer, entries⟩

end Segments

end Parcel
