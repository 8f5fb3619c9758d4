import Parcel.Memory.Address
import Parcel.Resource.Font
import Parcel.Resource.Image
import Parcel.Resource.Key
import Parcel.Resource.Kind

/-!
# Changes to resources

`Change ρ ν` is one change to an image, a font or a font instance, where `ρ`
stands for payloads and `ν` for lists of axis values. A *request* carries both
as they are; an *update*, the record of a request, carries the addresses where
they were put. `Request.record` turns the one into the other and touches
nothing else.
-/

namespace Parcel

inductive Change (ρ ν : Type)
  | addImage (key : ImageKey) (descriptor : ImageDescriptor) (bytes : ρ)
  | updateImage (key : ImageKey) (descriptor : ImageDescriptor) (bytes : ρ)
  | addBlobImage (key : ImageKey) (descriptor : ImageDescriptor) (bytes : ρ)
  | updateBlobImage (key : ImageKey) (descriptor : ImageDescriptor) (bytes : ρ)
  | addExternalImage (key : ImageKey) (externalId : ExternalImageId)
  | updateExternalImage (key : ImageKey) (descriptor : ImageDescriptor)
      (externalId : ExternalImageId) (imageType : ExternalImageType) (channel : UInt8)
  | deleteImage (key : ImageKey)
  | addFont (key : FontKey) (bytes : ρ) (index : UInt32)
  | deleteFont (key : FontKey)
  | addFontInstance (key : FontInstanceKey) (fontKey : FontKey) (glyphSize : Binary32)
      (options : Option FontOptions) (platformOptions : Option FontPlatformOptions)
      (variations : ν)
  | deleteFontInstance (key : FontInstanceKey)
  deriving DecidableEq, Repr

abbrev Update := Change Address Address

abbrev Request := Change (List UInt8) (List FontVariation)

namespace Change

variable {ρ ν ρ' ν' : Type}

def kind : Change ρ ν → UpdateKind
  | addImage .. => .addImage
  | updateImage .. => .updateImage
  | addBlobImage .. => .addBlobImage
  | updateBlobImage .. => .updateBlobImage
  | addExternalImage .. => .addExternalImage
  | updateExternalImage .. => .updateExternalImage
  | deleteImage .. => .deleteImage
  | addFont .. => .addFont
  | deleteFont .. => .deleteFont
  | addFontInstance .. => .addFontInstance
  | deleteFontInstance .. => .deleteFontInstance

def isDelete (c : Change ρ ν) : Bool := c.kind.isDelete

def imageKey? : Change ρ ν → Option ImageKey
  | addImage key .. | updateImage key .. | addBlobImage key .. | updateBlobImage key ..
  | addExternalImage key .. | updateExternalImage key .. | deleteImage key => some key
  | _ => none

def map (f : ρ → ρ') (g : ν → ν') : Change ρ ν → Change ρ' ν'
  | addImage key descriptor bytes => addImage key descriptor (f bytes)
  | updateImage key descriptor bytes => updateImage key descriptor (f bytes)
  | addBlobImage key descriptor bytes => addBlobImage key descriptor (f bytes)
  | updateBlobImage key descriptor bytes => updateBlobImage key descriptor (f bytes)
  | addExternalImage key externalId => addExternalImage key externalId
  | updateExternalImage key descriptor externalId imageType channel =>
    updateExternalImage key descriptor externalId imageType channel
  | deleteImage key => deleteImage key
  | addFont key bytes index => addFont key (f bytes) index
  | deleteFont key => deleteFont key
  | addFontInstance key fontKey glyphSize options platformOptions variations =>
    addFontInstance key fontKey glyphSize options platformOptions (g variations)
  | deleteFontInstance key => deleteFontInstance key

/-- Where the payload lies; for a font instance, where its axis values lie. -/
def address? : Update → Option Address
  | addImage _ _ bytes | updateImage _ _ bytes | addBlobImage _ _ bytes
  | updateBlobImage _ _ bytes | addFont _ bytes _ => some bytes
  | addFontInstance _ _ _ _ _ variations => some variations
  | _ => none

/-- Equality of records, with glyph sizes compared as numbers. -/
def equal : Update → Update → Bool
  | addFontInstance key fontKey glyphSize options platformOptions variations,
      addFontInstance key' fontKey' glyphSize' options' platformOptions' variations' =>
    key == key' && fontKey == fontKey' && glyphSize.equal glyphSize' && options == options' &&
      platformOptions == platformOptions' && variations == variations'
  | a, b => a == b

def equalLists : List Update → List Update → Bool
  | [], [] => true
  | a :: as, b :: bs => a.equal b && equalLists as bs
  | _, _ => false

end Change

namespace Request

/-- The bytes to be put into segments. Axis values are packed without gaps. -/
def payload? : Request → Option (List UInt8)
  | .addImage _ _ bytes | .updateImage _ _ bytes | .addBlobImage _ _ bytes
  | .updateBlobImage _ _ bytes | .addFont _ bytes _ => some bytes
  | .addFontInstance _ _ _ _ _ variations => some (Packed.packAll variations)
  | _ => none

/-- An image has to describe itself consistently, and its pixels have to be there. A blob is
drawn later, so its length says nothing about the image. -/
def check : Request → Except DescriptorFault Unit
  | .addImage _ descriptor bytes | .updateImage _ descriptor bytes =>
    descriptor.checkPayload bytes.length
  | .addBlobImage _ descriptor _ | .updateBlobImage _ descriptor _ => descriptor.check
  | _ => .ok ()

/-- The record of a request whose payload, if it has one, was put at `address`. -/
def record (r : Request) (address : Address) : Update :=
  r.map (fun _ => address) (fun _ => address)

end Request

namespace Change

variable {ρ ν ρ' ν' : Type}

@[simp] theorem kind_map (f : ρ → ρ') (g : ν → ν') (c : Change ρ ν) :
    (c.map f g).kind = c.kind := by
  cases c <;> rfl

end Change

theorem Request.address?_record (r : Request) (address : Address) :
    (r.record address).address? = r.payload?.map fun _ => address := by
  cases r <;> rfl

end Parcel
