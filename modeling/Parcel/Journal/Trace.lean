import Parcel.Journal.Entry

/-!
# The trace

The trace is what a subscriber sees of the journal: spans as they are opened,
and events with the names of the spans that they happen in, outermost first.
Entries that only count are not in it.
-/

namespace Parcel

inductive TraceField
  | number (n : Nat)
  | text (s : String)
  deriving DecidableEq, Repr

inductive TraceLine
  | span (name : String) (level : Level) (fields : List (String × TraceField))
  | event (level : Level) (message : String) (fields : List (String × TraceField))
      (inside : List String)
  deriving DecidableEq, Repr

/-- An event before it is known where it happens. -/
structure TraceEvent where
  level : Level
  message : String
  fields : List (String × TraceField) := []
  deriving DecidableEq, Repr

def Entry.event? : Entry → Option TraceEvent
  | allocated cls requested obtained =>
    some ⟨.trace, "allocated segment",
      [("class", .text cls.name), ("size", .number requested), ("actual", .number obtained)]⟩
  | allocationFailed cls requested fault =>
    some ⟨.warn, "segment allocation failed",
      [("class", .text cls.name), ("size", .number requested), ("error", .text fault.message)]⟩
  | readRejected address cause =>
    some ⟨.warn, "rejected segment read",
      [("range", .text address.render), ("reason", .text cause.message)]⟩
  | segmentsFlushed small large =>
    some ⟨.trace, "flushed writer segments", [("small", .number small), ("large", .number large)]⟩
  | segmentsDiscarded small large =>
    some ⟨.debug, "discarding unflushed segments",
      [("small", .number small), ("large", .number large)]⟩
  | queued kind => some ⟨.trace, "queued resource update", [("kind", .text kind.name)]⟩
  | updatesDiscarded count =>
    some ⟨.debug, "discarding pending resource updates", [("updates", .number count)]⟩
  | batchFlushed updates bytes =>
    some ⟨.debug, "flushed resource batch",
      [("updates", .number updates), ("bytes", .number bytes)]⟩
  | remark level text => some ⟨level, text, []⟩
  | segmentRejected _ | written _ _ | spanOpened _ | spanEntered _ | spanLeft => none

namespace FlushSpan

def name : String := "flush"

def line (s : FlushSpan) : TraceLine :=
  .span name .debug
    [("updates", .number s.updates), ("small_segments", .number s.smallSegments),
      ("large_segments", .number s.largeSegments)]

end FlushSpan

namespace Trace

/-- The lines of `entries` that begin inside the spans `inside`. -/
def linesWithin (inside : List String) : List Entry → List TraceLine
  | [] => []
  | .spanOpened span :: rest => span.line :: linesWithin inside rest
  | .spanEntered _ :: rest => linesWithin (inside ++ [FlushSpan.name]) rest
  | .spanLeft :: rest => linesWithin inside.dropLast rest
  | entry :: rest =>
    match entry.event? with
    | none => linesWithin inside rest
    | some e => .event e.level e.message e.fields inside :: linesWithin inside rest

def lines (entries : List Entry) : List TraceLine := linesWithin [] entries

end Trace

end Parcel
