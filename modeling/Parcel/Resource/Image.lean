import Parcel.Bytes.Enumerated
import Parcel.Bytes.Saturating
import Parcel.Fault
import Parcel.Resource.Flags

/-!
# Images

An image is `height` rows of `width` pixels. Row `y` begins `offset + y * stride`
bytes into the payload; without a stride of its own, rows follow one another
without gaps. The last row needs no padding, so that the payload has to hold
`offset + (height - 1) * stride + rowBytes` bytes. That number can exceed a
64-bit word, and is then taken as the greatest word.
-/

namespace Parcel

inductive ImageFormat
  | r8
  | r16
  | bgra8
  | rgbaf32
  | rg8
  | rg16
  | rgbai32
  | rgba8
  deriving DecidableEq, Repr, Inhabited

namespace ImageFormat

def name : ImageFormat → String
  | r8 => "R8"
  | r16 => "R16"
  | bgra8 => "Bgra8"
  | rgbaf32 => "Rgbaf32"
  | rg8 => "Rg8"
  | rg16 => "Rg16"
  | rgbai32 => "Rgbai32"
  | rgba8 => "Rgba8"

def bytesPerPixel : ImageFormat → UInt32
  | r8 => 1
  | r16 | rg8 => 2
  | bgra8 | rg16 | rgba8 => 4
  | rgbaf32 | rgbai32 => 16

instance : Enumerated ImageFormat where
  all := [r8, r16, bgra8, rgbaf32, rg8, rg16, rgbai32, rgba8]
  name := name
  code
    | r8 => 1
    | r16 => 2
    | bgra8 => 3
    | rgbaf32 => 4
    | rg8 => 5
    | rg16 => 6
    | rgbai32 => 7
    | rgba8 => 8
  find_code a := by cases a <;> rfl

end ImageFormat

def imageFlagTable : FlagTable := ⟨[("IS_OPAQUE", 1), ("ALLOW_MIPMAPS", 2)]⟩

abbrev ImageFlags := Flags imageFlagTable

def ImageFlags.opaqueImage : ImageFlags := ⟨1⟩

structure ImageDescriptor where
  format : ImageFormat
  width : UInt32
  height : UInt32
  /-- Bytes from the start of one row to the start of the next, if rows have gaps. -/
  stride : Option UInt32 := none
  /-- Bytes in front of the first row. -/
  offset : UInt32 := 0
  flags : ImageFlags := {}
  deriving DecidableEq, Repr, Inhabited

namespace ImageDescriptor

def isOpaque (d : ImageDescriptor) : Bool := d.flags.contains ImageFlags.opaqueImage

def rowBytes (d : ImageDescriptor) : UInt64 := d.width.toUInt64 * d.format.bytesPerPixel.toUInt64

def rowStride (d : ImageDescriptor) : UInt64 :=
  match d.stride with
  | some stride => stride.toUInt64
  | none => d.rowBytes

/-- What a payload has to hold. An image without rows needs its offset only. -/
def requiredBytes (d : ImageDescriptor) : UInt64 :=
  if d.height = 0 then d.offset.toUInt64
  else
    let paddedRows := mulSat d.rowStride (d.height.toUInt64 - 1)
    addSat (addSat d.offset.toUInt64 paddedRows) d.rowBytes

/-- Whether the numbers fit one another. -/
def check (d : ImageDescriptor) : Except DescriptorFault Unit :=
  if d.width = 0 ∨ d.height = 0 then .error (.emptyImage d.width.toNat d.height.toNat)
  else match d.stride with
    | none => .ok ()
    | some stride =>
      if stride.toUInt64 < d.rowBytes then
        .error (.shortStride stride.toNat d.rowBytes.toNat)
      else .ok ()

/-- Whether moreover a payload of `length` bytes holds every pixel. -/
def checkPayload (d : ImageDescriptor) (length : Nat) : Except DescriptorFault Unit := do
  d.check
  if length < d.requiredBytes.toNat then
    .error (.shortPayload d.width.toNat d.height.toNat d.format.name d.requiredBytes.toNat length)
  else .ok ()

end ImageDescriptor

inductive TextureTarget
  | default
  | array
  | external
  | rect
  deriving DecidableEq, Repr, Inhabited

instance : Enumerated TextureTarget where
  all := [.default, .array, .external, .rect]
  name
    | .default => "Default"
    | .array => "Array"
    | .external => "External"
    | .rect => "Rect"
  code
    | .default => 0
    | .array => 1
    | .external => 2
    | .rect => 3
  find_code a := by cases a <;> rfl

/-- Where the pixels of an external image are found. -/
inductive ExternalImageType
  | textureHandle (target : TextureTarget)
  | buffer
  deriving DecidableEq, Repr, Inhabited

end Parcel
