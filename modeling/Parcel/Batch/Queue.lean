import Parcel.Batch.Basic
import Parcel.Memory.Packer

/-!
# The queue

A producer submits requests one at a time. Each is checked, its payload is
packed, and its record is put behind the records that are pending; a request
that fails at any of these leaves no record. `flush` hands over the pending
records with the segments that they address, and starts anew; `clear` drops
both.
-/

namespace Parcel

structure Queue (α : Type) where
  packer : Packer α
  pending : List Update := []

structure QueueConfig where
  chunkSize : UInt64 := defaultChunkSize
  deriving DecidableEq, Repr

def QueueConfig.check (c : QueueConfig) : Except Fault Unit := do
  let _ ← ChunkSize.ofSize c.chunkSize
  return ()

namespace Queue

variable {α : Type}

def ofConfig (allocator : α) (config : QueueConfig) : Except Fault (Queue α) := do
  return { packer := ← Packer.ofSize allocator config.chunkSize }

def isEmpty (q : Queue α) : Bool := q.pending.isEmpty && q.packer.isEmpty

def render (q : Queue α) : String :=
  "ResourceUpdateQueue \x7b writer: " ++ q.packer.render ++ ", updates: " ++
    toString q.pending.length ++ " \x7d"

/-- What `flush` is about to hand over. -/
def span (q : Queue α) : FlushSpan :=
  ⟨q.pending.length, q.packer.small.length, q.packer.large.length⟩

/-- Hands over everything. All that is reported on the way is reported inside a span. -/
def flush (q : Queue α) : Batch × Queue α × List Entry :=
  let (segments, packer, entries) := q.packer.flush
  ({ updates := q.pending, segments }, { packer, pending := [] },
    [.spanOpened q.span, .spanEntered q.span] ++ entries ++
      [.batchFlushed q.pending.length segments.totalBytes, .spanLeft])

def clear (q : Queue α) : Queue α × List Entry :=
  let (packer, entries) := q.packer.clear
  let discarded := if q.pending.isEmpty then [] else [Entry.updatesDiscarded q.pending.length]
  ({ packer, pending := [] }, discarded ++ entries)

def push (q : Queue α) (u : Update) : Outcome (Queue α) Unit :=
  ⟨.ok (), { q with pending := q.pending ++ [u] }, [.queued u.kind]⟩

variable [Allocator α]

/-- Packs the payload, if there is one. -/
def pack (q : Queue α) (r : Request) : Outcome (Queue α) Address :=
  match r.payload? with
  | none => ⟨.ok .empty, q, []⟩
  | some payload =>
    let o := q.packer.write payload
    ⟨o.answer, { q with packer := o.state }, o.entries⟩

def submit (q : Queue α) (r : Request) : Outcome (Queue α) Unit :=
  match r.check with
  | .error cause => ⟨.error (.descriptor cause), q, []⟩
  | .ok () => (q.pack r).andThen fun address q => q.push (r.record address)

end Queue

end Parcel
