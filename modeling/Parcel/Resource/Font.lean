import Parcel.Bytes.Enumerated
import Parcel.Bytes.Packed
import Parcel.Resource.Flags

/-!
# Fonts

How a font is to be rendered at one size: options that every system knows,
options of particular systems, and the axis values of a variable font. None of
them is checked; they are handed on as they are.
-/

namespace Parcel

inductive RenderMode
  | mono
  | alpha
  | subpixel
  deriving DecidableEq, Repr

instance : Enumerated RenderMode where
  all := [.mono, .alpha, .subpixel]
  name
    | .mono => "Mono"
    | .alpha => "Alpha"
    | .subpixel => "Subpixel"
  code
    | .mono => 0
    | .alpha => 1
    | .subpixel => 2
  find_code a := by cases a <;> rfl

def fontFlagTable : FlagTable :=
  ⟨[("SYNTHETIC_BOLD", 0x2), ("EMBEDDED_BITMAPS", 0x4), ("SUBPIXEL_BGR", 0x8), ("TRANSPOSE", 0x10),
    ("FLIP_X", 0x20), ("FLIP_Y", 0x40), ("SUBPIXEL_POSITION", 0x80), ("VERTICAL", 0x100),
    ("FORCE_AUTOHINT", 0x10000), ("NO_AUTOHINT", 0x20000), ("LCD_VERTICAL", 0x80000)]⟩

abbrev FontFlags := Flags fontFlagTable

structure Color where
  red : UInt8 := 0
  green : UInt8 := 0
  blue : UInt8 := 0
  alpha : UInt8 := 0
  deriving DecidableEq, Repr, Inhabited

structure FontOptions where
  renderMode : RenderMode := .subpixel
  flags : FontFlags := {}
  background : Color := {}
  syntheticItalics : Int16 := 0
  deriving DecidableEq, Repr, Inhabited

inductive LcdFilter
  | none
  | default
  | light
  | legacy
  deriving DecidableEq, Repr

instance : Enumerated LcdFilter where
  all := [.none, .default, .light, .legacy]
  name
    | .none => "None"
    | .default => "Default"
    | .light => "Light"
    | .legacy => "Legacy"
  code
    | .none => 0
    | .default => 1
    | .light => 2
    | .legacy => 3
  find_code a := by cases a <;> rfl

inductive Hinting
  | none
  | mono
  | light
  | normal
  | lcd
  deriving DecidableEq, Repr

instance : Enumerated Hinting where
  all := [.none, .mono, .light, .normal, .lcd]
  name
    | .none => "None"
    | .mono => "Mono"
    | .light => "Light"
    | .normal => "Normal"
    | .lcd => "Lcd"
  code
    | .none => 0
    | .mono => 1
    | .light => 2
    | .normal => 3
    | .lcd => 4
  find_code a := by cases a <;> rfl

structure FontPlatformOptions where
  lcdFilter : LcdFilter := .default
  hinting : Hinting := .lcd
  deriving DecidableEq, Repr, Inhabited

/-- The value of one axis of a variable font. -/
structure FontVariation where
  tag : UInt32
  value : Binary32
  deriving DecidableEq, Repr, Inhabited

/-- Tags are four characters, the first one in the highest byte. -/
def FontVariation.ofTag (a b c d : UInt8) (value : Binary32) : FontVariation :=
  ⟨a.toUInt32 <<< 24 ||| b.toUInt32 <<< 16 ||| c.toUInt32 <<< 8 ||| d.toUInt32, value⟩

instance : Packed FontVariation where
  width := 8
  pack v := Packed.pack v.tag ++ Packed.pack v.value
  unpack bs := ⟨Packed.unpack (bs.take 4), Packed.unpack (bs.drop 4)⟩
  length_pack v := by
    rw [List.length_append, Packed.length_pack, Packed.length_pack]
    rfl
  unpack_pack v := by
    have h : (Packed.pack v.tag).length = 4 := Packed.length_pack _
    rw [List.take_left' h, List.drop_left' h, Packed.unpack_pack, Packed.unpack_pack]
  pack_unpack bs h := by
    rw [Packed.pack_unpack, Packed.pack_unpack, List.take_append_drop]
    · rw [List.length_drop, h]
      rfl
    · rw [List.length_take, h]
      rfl

end Parcel
