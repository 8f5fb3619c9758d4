import Parcel.Batch.Queue
import Parcel.Proofs.Runs

/-!
# What a queue can do

A queue does little of its own: it checks a request, has its packer write the
payload, and puts a record behind the others. `Submits q r o` lists the four
things this can come to, and `submit_submits` says that there are no others.

As for packers, `turn` puts the operations under one roof. All that a producer
can ask for is a request, whatever the kind of the change, so that a run is made
of requests, flushes and clears.
-/

namespace Parcel.Queue

variable {α : Type}

/-- The outcomes of submitting a request. The packer may have moved on although
the request left no record, but only if it was the packer that refused. -/
inductive Submits [Allocator α] (q : Queue α) (r : Request) : Outcome (Queue α) Unit → Prop
  | invalid (cause : DescriptorFault) (hcheck : r.check = .error cause) :
      Submits q r ⟨.error (.descriptor cause), q, []⟩
  | unwritten (payload : List UInt8) (fault : Fault) (hcheck : r.check = .ok ())
      (hpayload : r.payload? = some payload)
      (hanswer : (q.packer.write payload).answer = .error fault) :
      Submits q r ⟨.error fault, { q with packer := (q.packer.write payload).state },
        (q.packer.write payload).entries⟩
  | written (payload : List UInt8) (a : Address) (hcheck : r.check = .ok ())
      (hpayload : r.payload? = some payload)
      (hanswer : (q.packer.write payload).answer = .ok a) :
      Submits q r ⟨.ok (), ⟨(q.packer.write payload).state, q.pending ++ [r.record a]⟩,
        (q.packer.write payload).entries ++ [.queued r.kind]⟩
  | bare (hcheck : r.check = .ok ()) (hpayload : r.payload? = none) :
      Submits q r ⟨.ok (), { q with pending := q.pending ++ [r.record .empty] },
        [.queued r.kind]⟩

theorem push_record (q : Queue α) (r : Request) (a : Address) :
    q.push (r.record a) =
      ⟨.ok (), { q with pending := q.pending ++ [r.record a] }, [.queued r.kind]⟩ := by
  rw [push, Request.record, Change.kind_map]

theorem pack_of_payload [Allocator α] {q : Queue α} {r : Request} {payload : List UInt8}
    (h : r.payload? = some payload) :
    q.pack r = ⟨(q.packer.write payload).answer,
      { q with packer := (q.packer.write payload).state },
      (q.packer.write payload).entries⟩ := by
  rw [pack, h]

theorem submit_submits [Allocator α] (q : Queue α) (r : Request) :
    Submits q r (q.submit r) := by
  rw [submit]
  split
  · next cause hcheck => exact .invalid cause hcheck
  · next hcheck =>
      cases hpayload : r.payload? with
      | none =>
          rw [pack, hpayload, Outcome.andThen_ok, push_record]
          exact .bare hcheck hpayload
      | some payload =>
          rw [pack_of_payload hpayload]
          cases hanswer : (q.packer.write payload).answer with
          | error fault =>
              rw [Outcome.andThen_error]
              exact .unwritten payload fault hcheck hpayload hanswer
          | ok a =>
              rw [Outcome.andThen_ok, push_record]
              exact .written payload a hcheck hpayload hanswer

/-! ## Runs -/

inductive Op
  | submit (r : Request)
  | flush
  | clear

/-- What the caller of an operation sees. -/
inductive Event
  | submitted (r : Request) (answer : Except Fault Unit)
  | flushed (b : Batch)
  | cleared

def turn [Allocator α] (q : Queue α) : Op → Turn (Queue α) Event
  | .submit r =>
    let o := q.submit r
    ⟨.submitted r o.answer, o.state, o.entries⟩
  | .flush => ⟨.flushed q.flush.1, q.flush.2.1, q.flush.2.2⟩
  | .clear => ⟨.cleared, q.clear.1, q.clear.2⟩

def run [Allocator α] (q : Queue α) (ops : List Op) : Run (Queue α) Event :=
  Turn.run turn q ops

/-- A flush hands over the records and the lists as they are. -/
theorem batch_of_flushed [Allocator α] {q : Queue α} {op : Op} {b : Batch}
    (h : (q.turn op).event = .flushed b) : b = ⟨q.pending, q.packer.segments⟩ := by
  cases op with
  | submit _ => cases h
  | flush => cases h; rfl
  | clear => cases h

/-- A new queue has nothing pending, and its packer is new. -/
theorem new_of_ofConfig {allocator : α} {config : QueueConfig} {q : Queue α}
    (h : ofConfig allocator config = .ok q) :
    q.pending = [] ∧ Packer.ofSize allocator config.chunkSize = .ok q.packer := by
  rw [ofConfig] at h
  cases hsize : Packer.ofSize allocator config.chunkSize with
  | error fault => rw [hsize] at h; cases h
  | ok packer => rw [hsize] at h; cases h; exact ⟨rfl, rfl⟩

end Parcel.Queue
