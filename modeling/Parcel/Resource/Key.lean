/-!
# Keys

Producers choose the keys of their resources, each producer inside a namespace
of its own. Keys of different families are different types. They are ordered by
namespace first.
-/

namespace Parcel

inductive KeyFamily
  | image
  | font
  | fontInstance
  deriving DecidableEq, Repr

def KeyFamily.name : KeyFamily → String
  | image => "image"
  | font => "font"
  | fontInstance => "font-instance"

structure Key (family : KeyFamily) where
  space : UInt32
  id : UInt32
  deriving DecidableEq, Repr, Inhabited

abbrev ImageKey := Key .image
abbrev FontKey := Key .font
abbrev FontInstanceKey := Key .fontInstance

def Key.render {family : KeyFamily} (k : Key family) : String :=
  s!"{family.name}({k.space}:{k.id})"

instance {family : KeyFamily} : Ord (Key family) where
  compare a b := (compare a.space b.space).then (compare a.id b.id)

/-- An image that lives outside, known by a number only. -/
structure ExternalImageId where
  id : UInt64
  deriving DecidableEq, Repr, Inhabited

def ExternalImageId.render (e : ExternalImageId) : String := s!"external({e.id})"

instance : Ord ExternalImageId where
  compare a b := compare a.id b.id

end Parcel
