import Parcel.Journal.Entry

/-!
# Metrics

Seven counters and one histogram. A `Sample` adds to one series, which is a
metric together with the segment class where the metric is kept by class.
`total` is the exact sum of what was added to a series, and `values` lists what
was recorded in it; a series exists from its first sample on, even if that
sample adds nothing.

A counter is read as a 64-bit word and a histogram keeps its values as doubles,
which shows in numbers beyond `2 ^ 64` and `2 ^ 53` only.
-/

namespace Parcel

inductive Metric
  | segmentsAllocated
  | segmentBytesAllocated
  | bytesWritten
  | allocationFailures
  | batchesFlushed
  | updatesFlushed
  | batchUpdates
  | readFailures
  deriving DecidableEq, Repr

inductive MetricUnit
  | count
  | bytes
  deriving DecidableEq, Repr

def MetricUnit.name : MetricUnit → String
  | count => "count"
  | bytes => "bytes"

namespace Metric

def name : Metric → String
  | segmentsAllocated => "ferry_segments_allocated"
  | segmentBytesAllocated => "ferry_segment_bytes_allocated"
  | bytesWritten => "ferry_bytes_written"
  | allocationFailures => "ferry_allocation_failures"
  | batchesFlushed => "ferry_batches_flushed"
  | updatesFlushed => "ferry_updates_flushed"
  | batchUpdates => "ferry_batch_updates"
  | readFailures => "ferry_read_failures"

def isHistogram : Metric → Bool
  | batchUpdates => true
  | _ => false

def unit : Metric → MetricUnit
  | segmentBytesAllocated | bytesWritten => .bytes
  | _ => .count

def description : Metric → String
  | segmentsAllocated => "Segments obtained from the segment allocator"
  | segmentBytesAllocated => "Bytes of segment memory obtained from the allocator"
  | bytesWritten => "Payload bytes written"
  | allocationFailures => "Segment allocation requests that failed"
  | batchesFlushed => "Resource batches flushed"
  | updatesFlushed => "Update records emitted by flushes"
  | batchUpdates => "Update records per flushed batch"
  | readFailures => "Reads rejected because the address did not fit the segments"

def all : List Metric :=
  [segmentsAllocated, segmentBytesAllocated, bytesWritten, allocationFailures, batchesFlushed,
    updatesFlushed, batchUpdates, readFailures]

/-- Metrics are described once; the state tells whether that has happened. -/
def describe (described : Bool) : List Metric × Bool :=
  (if described then [] else all, true)

end Metric

structure Series where
  metric : Metric
  cls : Option SegmentClass := none
  deriving DecidableEq, Repr

def Series.render (s : Series) : String :=
  match s.cls with
  | none => s.metric.name
  | some cls => s.metric.name ++ "\x7bclass=" ++ cls.name ++ "\x7d"

structure Sample where
  series : Series
  amount : Nat
  deriving DecidableEq, Repr

namespace Sample

def ofClass (metric : Metric) (cls : SegmentClass) (amount : Nat) : Sample :=
  ⟨⟨metric, some cls⟩, amount⟩

def allocation (cls : SegmentClass) (bytes : Nat) : List Sample :=
  [ofClass .segmentsAllocated cls 1, ofClass .segmentBytesAllocated cls bytes]

def allocationFailure (cls : SegmentClass) : List Sample :=
  [ofClass .allocationFailures cls 1]

def bytesWritten (cls : SegmentClass) (bytes : Nat) : List Sample :=
  [ofClass .bytesWritten cls bytes]

def batchFlushed (updates : Nat) : List Sample :=
  [⟨⟨.batchesFlushed, none⟩, 1⟩, ⟨⟨.updatesFlushed, none⟩, updates⟩,
    ⟨⟨.batchUpdates, none⟩, updates⟩]

def readFailure (cls : SegmentClass) : List Sample :=
  [ofClass .readFailures cls 1]

end Sample

def Entry.samples : Entry → List Sample
  | allocated cls _ obtained => Sample.allocation cls obtained
  | allocationFailed cls _ _ => Sample.allocationFailure cls
  | segmentRejected cls => Sample.allocationFailure cls
  | written cls length => Sample.bytesWritten cls length
  | readRejected address _ => Sample.readFailure address.cls
  | batchFlushed updates _ => Sample.batchFlushed updates
  | _ => []

namespace Metrics

def ofEntries (entries : List Entry) : List Sample := entries.flatMap Entry.samples

def values (samples : List Sample) (series : Series) : List Nat :=
  (samples.filter (·.series = series)).map (·.amount)

def total (samples : List Sample) (series : Series) : Nat := (values samples series).foldr (· + ·) 0

/-- The double nearest to `n`, ties going to the even one. -/
def nearestDouble (n : Nat) : Nat :=
  let unit := 1 <<< (n.log2 + 1 - 53)
  let quotient := n / unit
  let up := unit < 2 * (n % unit) ∨ unit = 2 * (n % unit) ∧ quotient % 2 = 1
  if up then (quotient + 1) * unit else quotient * unit

inductive Reading
  | count (total : UInt64)
  | values (recorded : List UInt64)
  deriving DecidableEq, Repr

/-- The whole number that a recorded value shows, the greatest word standing for all above it. -/
def recorded (n : Nat) : UInt64 := UInt64.ofNat (min (nearestDouble n) (UInt64.size - 1))

def read (samples : List Sample) (series : Series) : Reading :=
  if series.metric.isHistogram then .values ((values samples series).map recorded)
  else .count (UInt64.ofNat (total samples series))

/-- All series that exist, each with its reading. -/
def readings (samples : List Sample) : List (Series × Reading) :=
  (samples.map (·.series)).eraseDups.map fun series => (series, read samples series)

@[simp] theorem values_append (xs ys : List Sample) (series : Series) :
    values (xs ++ ys) series = values xs series ++ values ys series := by
  simp [values]

@[simp] theorem total_append (xs ys : List Sample) (series : Series) :
    total (xs ++ ys) series = total xs series + total ys series := by
  rw [total, values_append]
  exact List.sum_append_nat

@[simp] theorem ofEntries_append (xs ys : List Entry) :
    ofEntries (xs ++ ys) = ofEntries xs ++ ofEntries ys := by
  simp [ofEntries]

end Metrics

end Parcel
