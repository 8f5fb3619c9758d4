/-!
# Named alternatives with a code of one byte

A closed list of alternatives, each with a name for people and a code for the
wire. Codes are unambiguous: `ofCode?` finds exactly the alternative that has
the code.
-/

namespace Parcel

class Enumerated (α : Type) where
  all : List α
  name : α → String
  code : α → UInt8
  find_code (a : α) : all.find? (fun b => code b == code a) = some a

namespace Enumerated

variable {α : Type} [Enumerated α]

def ofCode? (b : UInt8) : Option α := all.find? (fun a => code a == b)

def ofName? (s : String) : Option α := all.find? (fun a => name a == s)

@[simp] theorem ofCode?_code (a : α) : ofCode? (code a) = some a := find_code a

theorem code_of_ofCode? {b : UInt8} {a : α} (h : ofCode? b = some a) : code a = b := by
  have := List.find?_some h
  simpa using this

theorem ofCode?_eq_some_iff {b : UInt8} {a : α} : ofCode? b = some a ↔ b = code a :=
  ⟨fun h => (code_of_ofCode? h).symm, fun h => h ▸ ofCode?_code a⟩

end Enumerated

end Parcel
