import Parcel.Bytes.Packed
import Parcel.Bytes.Splice
import Parcel.Resource.Change

/-!
# Records as bytes

Every record takes 64 bytes: the code of its kind at 0, its key at 4, and from
12 on the fields of its kind at fixed positions. Numbers are little-endian and
aligned to their own size; bytes between the fields, and the fields of an
option that is absent, are written as zero and never read.

`Record.encode` lays the fields out one after another with the gaps between
them. `Record.decode?` looks each field up at its position and refuses codes
that stand for nothing.
-/

namespace Parcel.Record

open Packed (pack)
open Enumerated (code)

def size : Nat := 64

def gap (n : Nat) : List UInt8 := List.replicate n 0

/-- A byte with the gap up to the next number. -/
def padded (b : UInt8) : List UInt8 := b :: gap 3

/-! ## Writing -/

def ofKey {family : KeyFamily} (k : Key family) : List UInt8 := pack k.space ++ pack k.id

def ofAddress (a : Address) : List UInt8 :=
  padded (code a.cls) ++ pack a.index ++ pack a.offset ++ pack a.length

def ofStride : Option UInt32 → List UInt8
  | none => gap 8
  | some stride => padded 1 ++ pack stride

def ofDescriptor (d : ImageDescriptor) : List UInt8 :=
  padded (code d.format) ++ pack d.width ++ pack d.height ++ ofStride d.stride ++ pack d.offset ++
    pack d.flags.bits

def ofImageType : ExternalImageType → List UInt8
  | .textureHandle target => [0, code target]
  | .buffer => [1, 0]

def ofColor (c : Color) : List UInt8 := [c.red, c.green, c.blue, c.alpha]

def ofOptions : Option FontOptions → List UInt8
  | none => gap 20
  | some o =>
    padded 1 ++ padded (code o.renderMode) ++ pack o.flags.bits ++ ofColor o.background ++
      pack o.syntheticItalics ++ gap 2

def ofPlatformOptions : Option FontPlatformOptions → List UInt8
  | none => gap 4
  | some o => [1, code o.lcdFilter, code o.hinting, 0]

/-- What follows the key. -/
def fields : Update → List UInt8
  | .addImage _ descriptor bytes | .updateImage _ descriptor bytes
  | .addBlobImage _ descriptor bytes | .updateBlobImage _ descriptor bytes =>
    ofDescriptor descriptor ++ ofAddress bytes
  | .addExternalImage _ externalId => gap 4 ++ pack externalId.id
  | .updateExternalImage _ descriptor externalId imageType channel =>
    ofDescriptor descriptor ++ pack externalId.id ++ ofImageType imageType ++ [channel]
  | .addFont _ bytes index => ofAddress bytes ++ pack index
  | .addFontInstance _ fontKey glyphSize options platformOptions variations =>
    ofKey fontKey ++ pack glyphSize ++ ofOptions options ++ ofPlatformOptions platformOptions ++
      ofAddress variations
  | .deleteImage _ | .deleteFont _ | .deleteFontInstance _ => []

def keyBytes : Update → List UInt8
  | .addImage key .. | .updateImage key .. | .addBlobImage key .. | .updateBlobImage key ..
  | .addExternalImage key .. | .updateExternalImage key .. | .deleteImage key => ofKey key
  | .addFont key .. | .deleteFont key => ofKey key
  | .addFontInstance key .. | .deleteFontInstance key => ofKey key

def encode (u : Update) : List UInt8 :=
  padded (code u.kind) ++ keyBytes u ++ fields u ++ gap (52 - (fields u).length)

/-! ## Reading -/

def byteAt (bytes : List UInt8) (position : Nat) : UInt8 := bytes.getD position 0

def valueAt (β : Type) [Packed β] (bytes : List UInt8) (position : Nat) : β :=
  Packed.unpack (slice bytes position (Packed.width β))

def codeAt? (β : Type) [Enumerated β] (bytes : List UInt8) (position : Nat) : Option β :=
  Enumerated.ofCode? (byteAt bytes position)

/-- A tag of 0 or 1 says whether the value behind it is there; if not, it is not looked at. -/
def optionAt? {β : Type} (bytes : List UInt8) (position : Nat) (value : Option β) :
    Option (Option β) :=
  match byteAt bytes position with
  | 0 => some none
  | 1 => value.map some
  | _ => none

def keyAt {family : KeyFamily} (bytes : List UInt8) (position : Nat) : Key family :=
  ⟨valueAt UInt32 bytes position, valueAt UInt32 bytes (position + 4)⟩

def addressAt? (bytes : List UInt8) (position : Nat) : Option Address := do
  return {
    cls := ← codeAt? SegmentClass bytes position
    index := valueAt UInt32 bytes (position + 4)
    offset := valueAt UInt32 bytes (position + 8)
    length := valueAt UInt32 bytes (position + 12) }

def descriptorAt? (bytes : List UInt8) (position : Nat) : Option ImageDescriptor := do
  return {
    format := ← codeAt? ImageFormat bytes position
    width := valueAt UInt32 bytes (position + 4)
    height := valueAt UInt32 bytes (position + 8)
    stride := ← optionAt? bytes (position + 12) (some (valueAt UInt32 bytes (position + 16)))
    offset := valueAt UInt32 bytes (position + 20)
    flags := ⟨valueAt UInt32 bytes (position + 24)⟩ }

def imageTypeAt? (bytes : List UInt8) (position : Nat) : Option ExternalImageType :=
  match byteAt bytes position with
  | 0 => (codeAt? TextureTarget bytes (position + 1)).map .textureHandle
  | 1 => some .buffer
  | _ => none

def colorAt (bytes : List UInt8) (position : Nat) : Color :=
  { red := byteAt bytes position
    green := byteAt bytes (position + 1)
    blue := byteAt bytes (position + 2)
    alpha := byteAt bytes (position + 3) }

def fontOptionsAt? (bytes : List UInt8) (position : Nat) : Option FontOptions := do
  return {
    renderMode := ← codeAt? RenderMode bytes position
    flags := ⟨valueAt UInt32 bytes (position + 4)⟩
    background := colorAt bytes (position + 8)
    syntheticItalics := valueAt Int16 bytes (position + 12) }

def platformOptionsAt? (bytes : List UInt8) (position : Nat) : Option FontPlatformOptions := do
  return {
    lcdFilter := ← codeAt? LcdFilter bytes position
    hinting := ← codeAt? Hinting bytes (position + 1) }

def decode? (bytes : List UInt8) : Option Update := do
  match ← codeAt? UpdateKind bytes 0 with
  | .addImage =>
    return .addImage (keyAt bytes 4) (← descriptorAt? bytes 12) (← addressAt? bytes 40)
  | .updateImage =>
    return .updateImage (keyAt bytes 4) (← descriptorAt? bytes 12) (← addressAt? bytes 40)
  | .addBlobImage =>
    return .addBlobImage (keyAt bytes 4) (← descriptorAt? bytes 12) (← addressAt? bytes 40)
  | .updateBlobImage =>
    return .updateBlobImage (keyAt bytes 4) (← descriptorAt? bytes 12) (← addressAt? bytes 40)
  | .addExternalImage => return .addExternalImage (keyAt bytes 4) ⟨valueAt UInt64 bytes 16⟩
  | .updateExternalImage =>
    return .updateExternalImage (keyAt bytes 4) (← descriptorAt? bytes 12)
      ⟨valueAt UInt64 bytes 40⟩ (← imageTypeAt? bytes 48) (byteAt bytes 50)
  | .deleteImage => return .deleteImage (keyAt bytes 4)
  | .addFont => return .addFont (keyAt bytes 4) (← addressAt? bytes 12) (valueAt UInt32 bytes 28)
  | .deleteFont => return .deleteFont (keyAt bytes 4)
  | .addFontInstance =>
    return .addFontInstance (keyAt bytes 4) (keyAt bytes 12) (valueAt Binary32 bytes 20)
      (← optionAt? bytes 24 (fontOptionsAt? bytes 28))
      (← optionAt? bytes 44 (platformOptionsAt? bytes 45)) (← addressAt? bytes 48)
  | .deleteFontInstance => return .deleteFontInstance (keyAt bytes 4)

end Parcel.Record
