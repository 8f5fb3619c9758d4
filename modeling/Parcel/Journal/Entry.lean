import Parcel.Fault
import Parcel.Resource.Kind

/-!
# The journal

Whatever an operation has to report it reports as a list of entries, oldest
first. Counters and trace lines are two readings of the same entries
(`Parcel.Journal.Metrics`, `Parcel.Journal.Trace`), so that neither can miss
what the other one saw.
-/

namespace Parcel

inductive Level
  | trace
  | debug
  | warn
  deriving DecidableEq, Repr

def Level.name : Level → String
  | trace => "TRACE"
  | debug => "DEBUG"
  | warn => "WARN"

/-- The span of one flush, described by what there is to hand over. -/
structure FlushSpan where
  updates : Nat
  smallSegments : Nat
  largeSegments : Nat
  deriving DecidableEq, Repr

inductive Entry
  /-- A segment was obtained and will be used. -/
  | allocated (cls : SegmentClass) (requested obtained : Nat)
  /-- The allocator refused. -/
  | allocationFailed (cls : SegmentClass) (requested : Nat) (fault : Fault)
  /-- The allocator returned a segment that cannot be used. -/
  | segmentRejected (cls : SegmentClass)
  | written (cls : SegmentClass) (length : Nat)
  | readRejected (address : Address) (cause : AddressFault)
  | segmentsFlushed (small large : Nat)
  | segmentsDiscarded (small large : Nat)
  | queued (kind : UpdateKind)
  | updatesDiscarded (count : Nat)
  | batchFlushed (updates bytes : Nat)
  | spanOpened (span : FlushSpan)
  | spanEntered (span : FlushSpan)
  /-- The innermost span that was entered is left. -/
  | spanLeft
  /-- Said by the application itself. -/
  | remark (level : Level) (text : String)
  deriving DecidableEq, Repr

/-- What a call answers, the state that it leaves, and what it reports. -/
structure Outcome (σ β : Type) where
  answer : Except Fault β
  state : σ
  entries : List Entry := []

namespace Outcome

variable {σ β γ : Type}

/-- Goes on only after success. The state and the reports are kept in any case. -/
def andThen (o : Outcome σ β) (next : β → σ → Outcome σ γ) : Outcome σ γ :=
  match o.answer with
  | .error fault => ⟨.error fault, o.state, o.entries⟩
  | .ok value =>
    let o' := next value o.state
    ⟨o'.answer, o'.state, o.entries ++ o'.entries⟩

@[simp] theorem andThen_error {state : σ} {entries : List Entry} {fault : Fault}
    {next : β → σ → Outcome σ γ} :
    (Outcome.mk (.error fault) state entries).andThen next = ⟨.error fault, state, entries⟩ := rfl

@[simp] theorem andThen_ok {state : σ} {entries : List Entry} {value : β}
    {next : β → σ → Outcome σ γ} :
    (Outcome.mk (.ok value) state entries).andThen next =
      ⟨(next value state).answer, (next value state).state,
        entries ++ (next value state).entries⟩ := rfl

/-- The same answer and the same reports, with another account of the state. -/
def view {τ : Type} (f : σ → τ) (o : Outcome σ β) : Outcome τ β := ⟨o.answer, f o.state, o.entries⟩

theorem view_andThen {τ : Type} {f : σ → τ} {o : Outcome σ β} {next : β → σ → Outcome σ γ}
    {next' : β → τ → Outcome τ γ} (h : ∀ b s, next' b (f s) = (next b s).view f) :
    (o.view f).andThen next' = (o.andThen next).view f := by
  obtain ⟨answer, s, entries⟩ := o
  cases answer with
  | error fault => rfl
  | ok b => simp only [view, andThen_ok, h]

end Outcome

end Parcel
