import Parcel.Bytes.Enumerated

/-!
# Kinds of update

The eleven things that can happen to a resource, in the order of their tags.
-/

namespace Parcel

inductive UpdateKind
  | addImage
  | updateImage
  | addBlobImage
  | updateBlobImage
  | addExternalImage
  | updateExternalImage
  | deleteImage
  | addFont
  | deleteFont
  | addFontInstance
  | deleteFontInstance
  deriving DecidableEq, Repr

namespace UpdateKind

def name : UpdateKind → String
  | addImage => "AddImage"
  | updateImage => "UpdateImage"
  | addBlobImage => "AddBlobImage"
  | updateBlobImage => "UpdateBlobImage"
  | addExternalImage => "AddExternalImage"
  | updateExternalImage => "UpdateExternalImage"
  | deleteImage => "DeleteImage"
  | addFont => "AddFont"
  | deleteFont => "DeleteFont"
  | addFontInstance => "AddFontInstance"
  | deleteFontInstance => "DeleteFontInstance"

/-- No two kinds go by the same name. -/
theorem name_injective : Function.Injective name := by
  intro a b h
  cases a <;> cases b <;> simp [name] at h ⊢

/-- Codes number the kinds in this order. -/
def all : List UpdateKind :=
  [addImage, updateImage, addBlobImage, updateBlobImage, addExternalImage, updateExternalImage,
    deleteImage, addFont, deleteFont, addFontInstance, deleteFontInstance]

instance : Enumerated UpdateKind where
  all := all
  name := name
  code
    | addImage => 0
    | updateImage => 1
    | addBlobImage => 2
    | updateBlobImage => 3
    | addExternalImage => 4
    | updateExternalImage => 5
    | deleteImage => 6
    | addFont => 7
    | deleteFont => 8
    | addFontInstance => 9
    | deleteFontInstance => 10
  find_code a := by cases a <;> rfl

def isDelete : UpdateKind → Bool
  | deleteImage | deleteFont | deleteFontInstance => true
  | _ => false

end UpdateKind

end Parcel
