import Parcel.Proofs.PackerRun
import Parcel.Proofs.QueueRun

/-!
# What an allocator is asked for

An allocator sees requests that its packer does not report, and whether a request was
made cannot be told from an allocator that does not change. `Logged α` is an allocator
that answers as another one does and keeps a list of the sizes it was asked for. With
it the requests of a run are a list (`Packer.requested`, `Queue.requested`).

Nobody can tell that a log is kept: packers and queues over the two allocators go
through the same turns (`Packer.run_logged`, `Queue.run_logged`). So what is said of the
requests of a run is said of that run, whatever its allocator.

A write asks for one segment or for none (`Packer.write_asks`). That is the only
statement about requests that has to be read off the outcomes of a write.
-/

namespace Parcel

/-- An allocator with the sizes that it was asked for, oldest first. -/
structure Logged (α : Type) where
  base : α
  requests : List UInt64 := []

instance {α : Type} [Allocator α] : Allocator (Logged α) where
  allocate a size :=
    let (answer, base) := Allocator.allocate a.base size
    (answer, { base, requests := a.requests ++ [size] })

namespace Packer

variable {α : Type}

/-- The same packer, with an empty log at its allocator. -/
def logged (p : Packer α) : Packer (Logged α) := { p with allocator := ⟨p.allocator, []⟩ }

/-- The same packer without the log. -/
def unlogged (p : Packer (Logged α)) : Packer α := { p with allocator := p.allocator.base }

variable [Allocator α] (p : Packer (Logged α))

/-! ## The log is not seen -/

theorem acquire_unlogged (cls : SegmentClass) (size : Nat) :
    p.unlogged.acquire cls size = (p.acquire cls size).view unlogged := by
  rw [acquire, acquire]
  simp only [unlogged, Allocator.allocate]
  rcases Allocator.allocate p.allocator.base (UInt64.ofNat size) with ⟨_ | segment, base⟩
  · rfl
  · simp only
    split
    · rfl
    · split <;> rfl

theorem rotate_unlogged : p.unlogged.rotate = p.rotate.view unlogged := by
  have hsmall : p.unlogged.small = p.small := rfl
  rw [rotate, rotate, acquire_unlogged, hsmall]
  cases checkIndex p.small.length with
  | error fault => rfl
  | ok _ => exact Outcome.view_andThen fun segment p => rfl

omit [Allocator α] in
theorem place_unlogged (chunk : Chunk) (payload : List UInt8) :
    p.unlogged.place chunk payload = (p.place chunk payload).view unlogged := by
  cases hgrant : chunk.segment.requestAccess.1 with
  | false => rw [place_of_refusal hgrant, place_of_refusal hgrant]; rfl
  | true => rw [place_of_grant hgrant, place_of_grant hgrant]; rfl

theorem writeSmall_unlogged (payload : List UInt8) :
    p.unlogged.writeSmall payload = (p.writeSmall payload).view unlogged := by
  have hrotate : (p.unlogged.rotate.andThen fun chunk p => p.place chunk payload) =
      (p.rotate.andThen fun chunk p => p.place chunk payload).view unlogged := by
    rw [rotate_unlogged]
    exact Outcome.view_andThen fun chunk p => place_unlogged p chunk payload
  have hcurrent : p.unlogged.current = p.current := rfl
  rw [writeSmall, writeSmall, hcurrent]
  cases p.current with
  | none => exact hrotate
  | some chunk =>
      show (if payload.length ≤ p.chunkSize.bytes - chunk.used then _ else _) = _
      by_cases hroom : payload.length ≤ p.chunkSize.bytes - chunk.used
      · simp only [if_pos hroom]
        exact place_unlogged p chunk payload
      · simp only [if_neg hroom]
        exact hrotate

theorem writeLarge_unlogged (payload : List UInt8) :
    p.unlogged.writeLarge payload = (p.writeLarge payload).view unlogged := by
  have hlarge : p.unlogged.large = p.large := rfl
  rw [writeLarge, writeLarge, acquire_unlogged, hlarge]
  cases checkIndex p.large.length with
  | error fault => rfl
  | ok _ =>
      refine Outcome.view_andThen fun segment p => ?_
      simp only
      split <;> rfl

theorem write_unlogged (payload : List UInt8) :
    p.unlogged.write payload = (p.write payload).view unlogged := by
  rw [write, write, writeSmall_unlogged, writeLarge_unlogged]
  show (if payload.isEmpty then _ else if UInt32.size ≤ payload.length then _
    else if p.chunkSize.bytes < payload.length then _ else _) = _
  split
  · rfl
  · split
    · rfl
    · split <;> rfl

theorem turn_unlogged (op : Op) : p.unlogged.turn op =
    ⟨(p.turn op).event, (p.turn op).state.unlogged, (p.turn op).entries⟩ := by
  rcases op.kinds with ⟨payload, hpayload⟩ | rfl | rfl
  · rw [turn_of_payload hpayload, turn_of_payload hpayload, write_unlogged]
    rfl
  · rfl
  · rfl

/-- Whether a log is kept makes no difference to anything else. -/
theorem run_logged (p : Packer α) (ops : List Op) :
    p.run ops = ⟨(p.logged.run ops).events, (p.logged.run ops).state.unlogged,
      (p.logged.run ops).entries⟩ :=
  Turn.run_view unlogged turn_unlogged p.logged ops

/-- The sizes that a run of the packer asks its allocator for. -/
def requested (p : Packer α) (ops : List Op) : List UInt64 :=
  (p.logged.run ops).state.allocator.requests

/-! ## One write, at most one request -/

/-- A segment of the class and size is what the payload needs, and what it can have. -/
inductive Needs {α : Type} (p : Packer α) (payload : List UInt8) : SegmentClass → Nat → Prop
  | small (hne : payload ≠ []) (hfit : payload.length ≤ p.chunkSize.bytes)
      (hneeds : p.NeedsChunk payload.length) : Needs p payload .small p.chunkSize.bytes
  | large (hlong : p.chunkSize.bytes < payload.length)
      (hshort : payload.length < UInt32.size) : Needs p payload .large payload.length

/-- What is reported of a payload that was written. Of the empty one nothing is. -/
def written (payload : List UInt8) : Except Fault Address → List Entry
  | .ok a => if payload = [] then [] else [.written a.cls payload.length]
  | .error _ => []

/-- A write asks for nothing, or for one segment that its payload needs. -/
theorem write_asks (p : Packer α) (payload : List UInt8) :
    ((p.write payload).state.allocator = p.allocator ∧
      (p.write payload).entries = written payload (p.write payload).answer) ∨
    ∃ cls size, p.Needs payload cls size ∧
      (p.write payload).state.allocator = (p.acquire cls size).state.allocator ∧
      (p.write payload).entries =
        (p.acquire cls size).entries ++ written payload (p.write payload).answer := by
  have hwrites := write_writes p payload
  generalize p.write payload = o at hwrites
  cases hwrites with
  | empty hempty => exact .inl ⟨rfl, by rw [written, if_pos hempty]⟩
  | refused fault allocator entries hne hrefuses =>
      rw [written]
      cases hrefuses with
      | tooLong _ => exact .inl ⟨rfl, rfl⟩
      | smallIndex _ _ _ => exact .inl ⟨rfl, rfl⟩
      | largeIndex _ _ => exact .inl ⟨rfl, rfl⟩
      | smallSegment _ _ _ hfit hneeds _ hacquire =>
          exact .inr ⟨_, _, .small hne hfit hneeds, by rw [hacquire], by simp [hacquire]⟩
      | largeSegment _ _ _ hlong hshort _ hacquire =>
          exact .inr ⟨_, _, .large hlong hshort, by rw [hacquire], by simp [hacquire]⟩
      | largeAccess segment _ _ hlong hshort _ hacquire _ =>
          exact .inr ⟨_, _, .large hlong hshort, by rw [hacquire], by simp [hacquire]⟩
  | placed p' chunk entries hne hfit hopen _ =>
      rw [written, if_neg hne]
      cases hopen with
      | roomy _ _ _ => exact .inl ⟨rfl, rfl⟩
      | fresh segment allocator _ hneeds _ hacquire =>
          exact .inr ⟨_, _, .small hne hfit hneeds, by rw [hacquire], by rw [hacquire]; rfl⟩
  | withdrawn p' chunk entries hne hfit hopen _ =>
      rw [written]
      cases hopen with
      | roomy _ _ _ => exact .inl ⟨rfl, rfl⟩
      | fresh segment allocator _ hneeds _ hacquire =>
          exact .inr ⟨_, _, .small hne hfit hneeds, by rw [hacquire], by simp [hacquire]⟩
  | stored segment allocator entries hlong hshort _ hacquire _ =>
      have hne : payload ≠ [] := List.ne_nil_of_length_pos (by omega)
      rw [written, if_neg hne]
      exact .inr ⟨_, _, .large hlong hshort, by rw [hacquire], by rw [hacquire]; rfl⟩

/-- A request is put into the log, whatever it is answered with. -/
theorem requests_acquire (cls : SegmentClass) (size : Nat) :
    (p.acquire cls size).state.allocator.requests =
      p.allocator.requests ++ [UInt64.ofNat size] := by
  have hlog : (Allocator.allocate p.allocator (UInt64.ofNat size)).2.requests =
      p.allocator.requests ++ [UInt64.ofNat size] := rfl
  have hacquires := acquire_acquires p cls size
  generalize p.acquire cls size = o at hacquires
  cases hacquires with
  | failed _ _ hanswer => rwa [hanswer] at hlog
  | undersized _ _ hanswer _ => rwa [hanswer] at hlog
  | readOnly _ _ hanswer _ _ => rwa [hanswer] at hlog
  | granted _ _ hanswer _ _ => rwa [hanswer] at hlog

/-- An operation asks for nothing, or it writes and asks for one segment that the
payload needs. -/
theorem requested_cases (p : Packer α) (op : Op) :
    p.requested [op] = [] ∨ ∃ payload cls size, op.payload? = some payload ∧
      p.Needs payload cls size ∧ p.requested [op] = [.ofNat size] := by
  have hrequested : p.requested [op] = (p.logged.turn op).state.allocator.requests := rfl
  rw [hrequested]
  cases hpayload : op.payload? with
  | none =>
      rw [state_of_no_payload hpayload]
      exact .inl rfl
  | some payload =>
      rw [turn_of_payload hpayload]
      rcases p.logged.write_asks payload with ⟨hsilent, -⟩ | ⟨cls, size, hneeds, hasks, -⟩
      · rw [hsilent]
        exact .inl rfl
      · refine .inr ⟨payload, cls, size, rfl, ?_, ?_⟩
        · cases hneeds with
          | small hne hfit hneeds => exact .small hne hfit hneeds
          | large hlong hshort => exact .large hlong hshort
        · rw [hasks, requests_acquire]
          rfl

end Packer

/-! ## Queues -/

namespace Queue

variable {α : Type}

def logged (q : Queue α) : Queue (Logged α) := { q with packer := q.packer.logged }

def unlogged (q : Queue (Logged α)) : Queue α := { q with packer := q.packer.unlogged }

variable [Allocator α]

theorem submit_unlogged (q : Queue (Logged α)) (r : Request) :
    q.unlogged.submit r = (q.submit r).view unlogged := by
  rw [submit, submit]
  cases r.check with
  | error cause => rfl
  | ok _ =>
      have hpack : q.unlogged.pack r = (q.pack r).view unlogged := by
        rw [pack, pack]
        cases r.payload? with
        | none => rfl
        | some payload =>
            simp only [unlogged, Packer.write_unlogged]
            rfl
      simp only [hpack]
      exact Outcome.view_andThen fun address q => rfl

theorem turn_unlogged (q : Queue (Logged α)) (op : Op) : q.unlogged.turn op =
    ⟨(q.turn op).event, (q.turn op).state.unlogged, (q.turn op).entries⟩ := by
  cases op with
  | submit r =>
      rw [turn, submit_unlogged]
      rfl
  | flush => rfl
  | clear => rfl

theorem run_logged (q : Queue α) (ops : List Op) :
    q.run ops = ⟨(q.logged.run ops).events, (q.logged.run ops).state.unlogged,
      (q.logged.run ops).entries⟩ :=
  Turn.run_view unlogged turn_unlogged q.logged ops

/-- The sizes that a run of the queue asks its allocator for. -/
def requested (q : Queue α) (ops : List Op) : List UInt64 :=
  (q.logged.run ops).state.packer.allocator.requests

end Queue

end Parcel
