import Parcel.Proofs.PackerRun

/-!
# Allocators over time

An allocator may change with each request. `Reaches a b` says that requests lead
from the one state to the other, and so it is what a hypothesis about all future
answers quantifies over (`Yields`). Memory of the usual kinds stays where it is
(`Stateless`).

A packer does nothing to its allocator but request segments, so that whatever it
does, its allocator has come from where it was by requests (`Packer.reaches_run`).
-/

namespace Parcel

namespace Allocator

variable {α : Type} [Allocator α]

/-- Requests lead the allocator from the one state to the other. -/
inductive Reaches (a : α) : α → Prop
  | refl : Reaches a a
  | request {b : α} (h : Reaches a b) (size : UInt64) : Reaches a (allocate b size).2

theorem Reaches.trans {a b c : α} (hab : Reaches a b) (hbc : Reaches b c) : Reaches a c := by
  induction hbc with
  | refl => exact hab
  | request _ size ih => exact .request ih size

theorem reaches_request (a : α) (size : UInt64) : Reaches a (allocate a size).2 :=
  .request .refl size

/-- Whatever it has been asked for by then, the allocator answers with segments of this kind
or with none. -/
def Yields (P : Segment → Prop) (a : α) : Prop :=
  ∀ b size segment, Reaches a b → (allocate b size).1 = .ok segment → P segment

theorem Yields.reaches {P : Segment → Prop} {a b : α} (h : Yields P a) (hb : Reaches a b) :
    Yields P b :=
  fun c size segment hc hanswer => h c size segment (hb.trans hc) hanswer

/-- No request changes the allocator. -/
def Stateless (a : α) : Prop := ∀ b, Reaches a b → b = a

theorem stateless_of_request {a : α} (h : ∀ size, (allocate a size).2 = a) : Stateless a := by
  intro b hb
  induction hb with
  | refl => rfl
  | request _ size ih => rw [ih, h size]

end Allocator

theorem Heap.stateless (a : Heap) : Allocator.Stateless a :=
  Allocator.stateless_of_request fun _ => rfl

/-- No request makes a script say anything else. -/
theorem Scripted.answer_of_reaches {a b : Scripted} (h : Allocator.Reaches a b) :
    b.answer = a.answer := by
  induction h with
  | refl => rfl
  | request _ _ ih => exact ih

theorem Scripted.yields {P : Segment → Prop} {a : Scripted}
    (h : ∀ call size segment, a.answer call size = .ok segment → P segment) :
    Allocator.Yields P a := by
  intro b size segment hb hanswer
  have hanswer' : b.answer b.calls size = .ok segment := hanswer
  rw [answer_of_reaches hb] at hanswer'
  exact h b.calls size segment hanswer'

/-! ## The allocator of a packer -/

namespace Packer

open Allocator (Reaches)

variable {α : Type} [Allocator α] {p p' : Packer α}

/-- Obtaining a segment is one request. -/
theorem reaches_of_acquire {cls : SegmentClass} {size : Nat} {answer : Except Fault Segment}
    {allocator : α} {entries : List Entry}
    (h : p.acquire cls size = ⟨answer, { p with allocator }, entries⟩) :
    Reaches p.allocator allocator := by
  have hstate : allocator = (p.acquire cls size).state.allocator := by rw [h]
  rw [hstate]
  have hacquires := acquire_acquires p cls size
  have hrequest := Allocator.reaches_request p.allocator (.ofNat size)
  generalize p.acquire cls size = o at hacquires
  cases hacquires with
  | failed _ _ hanswer => rwa [hanswer] at hrequest
  | undersized _ _ hanswer _ => rwa [hanswer] at hrequest
  | readOnly _ _ hanswer _ _ => rwa [hanswer] at hrequest
  | granted _ _ hanswer _ _ => rwa [hanswer] at hrequest

theorem Opens.reaches {n : Nat} {chunk : Chunk} {entries : List Entry}
    (h : Opens p n p' chunk entries) : Reaches p.allocator p'.allocator := by
  cases h with
  | roomy _ _ _ => exact .refl
  | fresh _ _ _ _ _ hacquire => exact reaches_of_acquire hacquire

theorem Refuses.reaches {payload : List UInt8} {fault : Fault} {allocator : α}
    {entries : List Entry} (h : Refuses p payload fault allocator entries) :
    Reaches p.allocator allocator := by
  cases h with
  | tooLong _ => exact .refl
  | smallIndex _ _ _ => exact .refl
  | largeIndex _ _ => exact .refl
  | smallSegment _ _ _ _ _ _ hacquire => exact reaches_of_acquire hacquire
  | largeSegment _ _ _ _ _ _ hacquire => exact reaches_of_acquire hacquire
  | largeAccess _ _ _ _ _ _ hacquire _ => exact reaches_of_acquire hacquire

theorem reaches_write (p : Packer α) (payload : List UInt8) :
    Reaches p.allocator (p.write payload).state.allocator := by
  have hwrites := write_writes p payload
  generalize p.write payload = o at hwrites
  cases hwrites with
  | empty _ => exact .refl
  | refused _ _ _ _ hrefuses => exact hrefuses.reaches
  | placed _ _ _ _ _ hopen _ => exact hopen.reaches
  | withdrawn _ _ _ _ _ hopen _ => exact hopen.reaches
  | stored _ _ _ _ _ _ hacquire _ => exact reaches_of_acquire hacquire

theorem reaches_turn (p : Packer α) (op : Op) :
    Reaches p.allocator (p.turn op).state.allocator := by
  cases hpayload : op.payload? with
  | none => rw [state_of_no_payload hpayload]; exact .refl
  | some payload => rw [turn_of_payload hpayload]; exact reaches_write p payload

theorem reaches_run (p : Packer α) (ops : List Op) :
    Reaches p.allocator (p.run ops).state.allocator := by
  rw [run]
  exact Turn.run_invariant (P := fun q => Reaches p.allocator q.allocator) (s := p)
    (fun q op h => h.trans (reaches_turn q op)) .refl ops

end Packer

end Parcel
