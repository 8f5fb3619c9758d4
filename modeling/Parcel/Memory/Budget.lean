import Parcel.Memory.Allocator

/-!
# Budgets

A `Budget` limits the sum of the sizes that are asked for. `Budgeted α` puts a
stack of budgets, outermost first, in front of an allocator: a request is
reserved in every budget on its way in, and when a budget further in has no
room, or the allocator itself refuses, each reservation made so far is given
back on the way out.

Sums are formed in 64-bit words; a reservation whose sum does not fit in a word
exceeds every limit.
-/

namespace Parcel

structure Budget where
  limit : UInt64
  used : UInt64 := 0
  deriving DecidableEq, Repr

namespace Budget

def remaining (b : Budget) : UInt64 :=
  if b.used ≤ b.limit then b.limit - b.used else 0

def reserve? (b : Budget) (size : UInt64) : Option Budget :=
  let total := b.used + size
  if b.used.toNat + size.toNat < UInt64.size ∧ total ≤ b.limit then some { b with used := total }
  else none

def refund (b : Budget) (size : UInt64) : Budget := { b with used := b.used - size }

def reset (b : Budget) : Budget := { b with used := 0 }

/-- What a budget without room answers. -/
def exhausted (b : Budget) (size : UInt64) : Fault :=
  .allocation (.budgetExhausted size.toNat b.remaining.toNat b.limit.toNat)

theorem refund_reserve {b b' : Budget} {size : UInt64} (h : b.reserve? size = some b') :
    b'.refund size = b := by
  simp only [reserve?] at h
  split at h
  · cases h
    simp [refund]
  · cases h

end Budget

structure Budgeted (α : Type) where
  base : α
  budgets : List Budget

namespace Budgeted

variable {α : Type} [Allocator α]

def allocateWithin (base : α) (size : UInt64) :
    List Budget → Except Fault Segment × List Budget × α
  | [] =>
    let (answer, base) := Allocator.allocate base size
    (answer, [], base)
  | b :: rest =>
    match b.reserve? size with
    | none => (.error (b.exhausted size), b :: rest, base)
    | some reserved =>
      match allocateWithin base size rest with
      | (.ok segment, rest, base) => (.ok segment, reserved :: rest, base)
      | (.error fault, rest, base) => (.error fault, reserved.refund size :: rest, base)

instance : Allocator (Budgeted α) where
  allocate a size :=
    let (answer, budgets, base) := allocateWithin a.base size a.budgets
    (answer, { base, budgets })

/-- Starts the budget number `depth`, counted from the outside, afresh. -/
def reset (a : Budgeted α) (depth : Nat) : Budgeted α :=
  { a with budgets := a.budgets.modify depth Budget.reset }

end Budgeted

end Parcel
