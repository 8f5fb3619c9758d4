import Parcel.Journal.Trace
import Parcel.Proofs.QueueBalance

/-!
# The history in the trace

What became of every operation on a queue can be read off its trace. A request that is
carried out shows one event with the kind of its record, outside all spans. A flush
shows its span, with what there is to hand over, and two events inside it with what was
handed over; nothing else happens in such a span. A clear shows what it drops.

Where an event happens depends on the spans that were entered before it, so the lines
of one operation are known by themselves only because every operation leaves the
spans that it enters (`Queue.balanced_turn`). Then the trace of a run is that of its
operations, one after another (`Queue.told_eq`). To these a packer adds events about
segments, which are never in a span and tell nothing else (`Queue.toldBy_submit`).
-/

namespace Parcel

namespace Trace

/-- The spans that are entered after some entries, if `inside` were before. -/
def spansAfter (inside : List String) : List Entry → List String
  | [] => inside
  | .spanEntered _ :: rest => spansAfter (inside ++ [FlushSpan.name]) rest
  | .spanLeft :: rest => spansAfter inside.dropLast rest
  | _ :: rest => spansAfter inside rest

/-- What is entered is left again. -/
def Balanced (entries : List Entry) : Prop := spansAfter [] entries = []

theorem linesWithin_append (inside : List String) (xs ys : List Entry) :
    linesWithin inside (xs ++ ys) =
      linesWithin inside xs ++ linesWithin (spansAfter inside xs) ys := by
  induction xs generalizing inside with
  | nil => rfl
  | cons x xs ih => cases x <;> simp [linesWithin, spansAfter, Entry.event?, ih]

theorem spansAfter_append (inside : List String) (xs ys : List Entry) :
    spansAfter inside (xs ++ ys) = spansAfter (spansAfter inside xs) ys := by
  induction xs generalizing inside with
  | nil => rfl
  | cons x xs ih => cases x <;> simp only [List.cons_append, spansAfter, ih]

theorem lines_append {xs : List Entry} (h : Balanced xs) (ys : List Entry) :
    lines (xs ++ ys) = lines xs ++ lines ys := by
  rw [lines, linesWithin_append, h]
  rfl

theorem lines_flatMap {β : Type} {f : β → List Entry} (h : ∀ b, Balanced (f b))
    (bs : List β) : lines (bs.flatMap f) = bs.flatMap fun b => lines (f b) := by
  induction bs with
  | nil => rfl
  | cons b bs ih => rw [List.flatMap_cons, lines_append (h b), ih, List.flatMap_cons]

end Trace

namespace TraceLine

/-- An event with this message. -/
def hasMessage (message : String) : TraceLine → Bool
  | .span _ _ _ => false
  | .event _ message' _ _ => message' == message

/-- A span of this name, or an event in one. -/
def isOf (name : String) : TraceLine → Bool
  | .span name' _ _ => name' == name
  | .event _ _ _ inside => inside.contains name

/-- An event about what was dropped. -/
def discards (line : TraceLine) : Bool :=
  line.hasMessage "discarding pending resource updates" || line.hasMessage "discarding unflushed segments"

/-- An event about a segment that a packer asked for. -/
inductive OfWrite : TraceLine → Prop
  | allocated (level : Level) (fields : List (String × TraceField)) :
      OfWrite (.event level "allocated segment" fields [])
  | failed (level : Level) (fields : List (String × TraceField)) :
      OfWrite (.event level "segment allocation failed" fields [])

/-- The event of a request that is carried out. -/
def queued (kind : UpdateKind) : TraceLine :=
  .event .trace "queued resource update" [("kind", .text kind.name)] []

end TraceLine

namespace Batch

/-- The span of a flush that hands over `b`, and what happens in it. -/
def flushLines (b : Batch) : List TraceLine :=
  [.span "flush" .debug
      [("updates", .number b.updates.length),
        ("small_segments", .number b.segments.small.length),
        ("large_segments", .number b.segments.large.length)],
    .event .trace "flushed writer segments"
      [("small", .number b.segments.small.length), ("large", .number b.segments.large.length)]
      ["flush"],
    .event .debug "flushed resource batch"
      [("updates", .number b.updates.length),
        ("bytes", .number ((b.segments.small ++ b.segments.large).map Segment.size).sum)]
      ["flush"]]

/-- What a clear shows that drops `b`. Of nothing there is nothing to show. -/
def discardLines (b : Batch) : List TraceLine :=
  (if b.updates = [] then [] else
    [.event .debug "discarding pending resource updates"
      [("updates", .number b.updates.length)] []]) ++
  (if b.segments.small = [] ∧ b.segments.large = [] then [] else
    [.event .debug "discarding unflushed segments"
      [("small", .number b.segments.small.length),
        ("large", .number b.segments.large.length)] []])

end Batch

/-! ## Packers -/

/-- An entry that a write may report. -/
inductive Entry.OfWrite : Entry → Prop
  | allocated (cls : SegmentClass) (requested obtained : Nat) :
      OfWrite (.allocated cls requested obtained)
  | allocationFailed (cls : SegmentClass) (requested : Nat) (fault : Fault) :
      OfWrite (.allocationFailed cls requested fault)
  | segmentRejected (cls : SegmentClass) : OfWrite (.segmentRejected cls)
  | written (cls : SegmentClass) (length : Nat) : OfWrite (.written cls length)

namespace Trace

theorem lines_ofWrite {entries : List Entry} (h : ∀ e ∈ entries, e.OfWrite) :
    Balanced entries ∧ ∀ l ∈ lines entries, l.OfWrite := by
  induction entries with
  | nil => exact ⟨rfl, by simp [lines, linesWithin]⟩
  | cons e entries ih =>
      obtain ⟨hbalanced, hlines⟩ := ih fun e' he' => h e' (List.mem_cons_of_mem e he')
      cases h e List.mem_cons_self with
      | allocated _ _ _ => exact ⟨hbalanced, List.forall_mem_cons.2 ⟨.allocated _ _, hlines⟩⟩
      | allocationFailed _ _ _ => exact ⟨hbalanced, List.forall_mem_cons.2 ⟨.failed _ _, hlines⟩⟩
      | segmentRejected _ => exact ⟨hbalanced, hlines⟩
      | written _ _ => exact ⟨hbalanced, hlines⟩

end Trace

variable {α : Type} [Allocator α]

theorem Packer.entries_acquire_ofWrite (p : Packer α) (cls : SegmentClass) (size : Nat) :
    ∀ e ∈ (p.acquire cls size).entries, e.OfWrite := by
  have hacquires := acquire_acquires p cls size
  generalize p.acquire cls size = o at hacquires
  cases hacquires with
  | failed _ _ _ => exact List.forall_mem_singleton.2 (.allocationFailed _ _ _)
  | undersized _ _ _ _ => exact List.forall_mem_singleton.2 (.segmentRejected _)
  | readOnly _ _ _ _ _ => exact List.forall_mem_singleton.2 (.segmentRejected _)
  | granted _ _ _ _ _ => exact List.forall_mem_singleton.2 (.allocated _ _ _)

theorem Packer.entries_write_ofWrite (p : Packer α) (payload : List UInt8) :
    ∀ e ∈ (p.write payload).entries, e.OfWrite := by
  have hwritten : ∀ e ∈ written payload (p.write payload).answer, e.OfWrite := by
    intro e he
    cases hanswer : (p.write payload).answer with
    | error fault => rw [hanswer] at he; cases he
    | ok a =>
        rw [hanswer, written] at he
        split at he
        · cases he
        · rw [List.mem_singleton.1 he]
          exact .written _ _
  rcases p.write_asks payload with ⟨-, hentries⟩ | ⟨cls, size, -, -, hentries⟩
  · rwa [hentries]
  · rw [hentries]
    exact List.forall_mem_append.2 ⟨p.entries_acquire_ofWrite cls size, hwritten⟩

/-! ## Queues -/

/-- What a request does once it is carried out. -/
def Request.deed : Request → UpdateKind
  | .addImage _ _ _ => .addImage
  | .updateImage _ _ _ => .updateImage
  | .addBlobImage _ _ _ => .addBlobImage
  | .updateBlobImage _ _ _ => .updateBlobImage
  | .addExternalImage _ _ => .addExternalImage
  | .updateExternalImage _ _ _ _ _ => .updateExternalImage
  | .deleteImage _ => .deleteImage
  | .addFont _ _ _ => .addFont
  | .deleteFont _ => .deleteFont
  | .addFontInstance _ _ _ _ _ _ => .addFontInstance
  | .deleteFontInstance _ => .deleteFontInstance

theorem Request.kind_eq_deed (r : Request) : r.kind = r.deed := by
  cases r <;> rfl

namespace Queue

/-- What an operation that was carried out did, if it was a request. -/
def Event.queued? : Event → Option UpdateKind
  | .submitted r (.ok _) => some r.deed
  | .submitted _ (.error _) | .flushed _ | .cleared => none

/-- The trace of one operation. -/
def toldBy (q : Queue α) (op : Op) : List TraceLine := Trace.lines (q.turn op).entries

/-- The trace of a run. -/
def told (q : Queue α) (ops : List Op) : List TraceLine := Trace.lines (q.run ops).entries

/-- A request reports what its write does, and the record if it comes to that. -/
theorem entries_submit (q : Queue α) (r : Request) :
    ∃ entries, (∀ e ∈ entries, e.OfWrite) ∧ (q.turn (.submit r)).entries =
      entries ++ ((q.turn (.submit r)).event.queued?.map Entry.queued).toList := by
  have hsubmits := submit_submits q r
  rw [turn]
  generalize q.submit r = o at hsubmits
  cases hsubmits with
  | invalid _ _ => exact ⟨[], List.forall_mem_nil _, rfl⟩
  | unwritten payload _ _ _ _ =>
      exact ⟨_, q.packer.entries_write_ofWrite payload, (List.append_nil _).symm⟩
  | written payload _ _ _ _ =>
      rw [r.kind_eq_deed]
      exact ⟨_, q.packer.entries_write_ofWrite payload, rfl⟩
  | bare _ _ =>
      rw [r.kind_eq_deed]
      exact ⟨[], List.forall_mem_nil _, rfl⟩

theorem toldBy_submit (q : Queue α) (r : Request) :
    ∃ lines : List TraceLine, (∀ l ∈ lines, l.OfWrite) ∧ q.toldBy (.submit r) =
      lines ++ ((q.turn (.submit r)).event.queued?.map TraceLine.queued).toList := by
  obtain ⟨entries, hwrite, hentries⟩ := q.entries_submit r
  obtain ⟨hbalanced, hlines⟩ := Trace.lines_ofWrite hwrite
  refine ⟨Trace.lines entries, hlines, ?_⟩
  rw [toldBy, hentries, Trace.lines_append hbalanced]
  cases (q.turn (.submit r)).event.queued? <;> rfl

theorem toldBy_flush (q : Queue α) : q.toldBy .flush = q.held.flushLines := rfl

theorem toldBy_clear (q : Queue α) : q.toldBy .clear = q.held.discardLines := by
  have hentries : (q.turn .clear).entries =
      (if q.pending.isEmpty then [] else [.updatesDiscarded q.pending.length]) ++
        if q.packer.isEmpty then [] else
          [.segmentsDiscarded q.packer.small.length q.packer.large.length] := rfl
  have hsegments : q.packer.isEmpty = true ↔ q.packer.small = [] ∧ q.packer.large = [] := by
    simp [Packer.isEmpty, Segments.isEmpty, Packer.segments]
  rw [toldBy, hentries, Batch.discardLines]
  simp only [List.isEmpty_iff, hsegments]
  show _ = (if q.pending = [] then _ else _) ++
    if q.packer.small = [] ∧ q.packer.large = [] then _ else _
  split <;> split <;> rfl

/-- Every operation leaves the spans that it enters. -/
theorem balanced_turn (q : Queue α) (op : Op) : Trace.Balanced (q.turn op).entries := by
  cases op with
  | submit r =>
      obtain ⟨entries, hwrite, hentries⟩ := q.entries_submit r
      rw [hentries, Trace.Balanced, Trace.spansAfter_append, (Trace.lines_ofWrite hwrite).1]
      cases (q.turn (.submit r)).event.queued? <;> rfl
  | flush => rfl
  | clear =>
      show Trace.spansAfter [] ((if _ then _ else _) ++ if _ then _ else _) = []
      split <;> split <;> rfl

/-! ## Runs -/

/-- The trace of a run is that of its operations. -/
theorem told_eq (q : Queue α) (ops : List Op) :
    q.told ops = (Turn.trail turn q ops).flatMap fun x => toldBy x.1 x.2 := by
  rw [told, run, Turn.run_entries]
  exact Trace.lines_flatMap (fun x : Queue α × Op => balanced_turn x.1 x.2) _

theorem told_append_cons (q : Queue α) (ops₁ : List Op) (op : Op) (ops₂ : List Op) :
    q.told (ops₁ ++ op :: ops₂) = q.told ops₁ ++ (q.run ops₁).state.toldBy op ++
      ((q.run ops₁).state.turn op).state.told ops₂ := by
  simp only [told_eq, Turn.trail_append, Turn.trail, List.flatMap_append, List.flatMap_cons,
    List.append_assoc]
  rfl

/-- Lines that tell something of single operations tell it of a run in that order. -/
theorem filter_told {β : Type} {p : TraceLine → Bool} {what? : Queue α → Op → Option β}
    {lines : β → List TraceLine}
    (hturn : ∀ q op, (q.toldBy op).filter p = (what? q op).toList.flatMap lines)
    (q : Queue α) (ops : List Op) :
    (q.told ops).filter p =
      ((Turn.trail turn q ops).filterMap fun x => what? x.1 x.2).flatMap lines := by
  rw [told_eq, List.filter_flatMap, List.filterMap_eq_flatMap_toList, List.flatMap_assoc]
  simp only [hturn]

/-- Something that is told of an event. -/
theorem filter_told_event {β : Type} {p : TraceLine → Bool} {what? : Event → Option β}
    {lines : β → List TraceLine}
    (hturn : ∀ (q : Queue α) op,
      (q.toldBy op).filter p = (what? (q.turn op).event).toList.flatMap lines)
    (q : Queue α) (ops : List Op) :
    (q.told ops).filter p = ((q.run ops).events.filterMap what?).flatMap lines := by
  rw [filter_told hturn, run, Turn.run_events, List.filterMap_map]
  rfl

/-- The events of a write count for nothing. -/
theorem filter_submit {p : TraceLine → Bool} (hwrite : ∀ l, l.OfWrite → p l = false)
    (q : Queue α) (r : Request) :
    (q.toldBy (.submit r)).filter p =
      ((q.turn (.submit r)).event.queued?.map TraceLine.queued).toList.filter p := by
  obtain ⟨lines, hlines, htold⟩ := q.toldBy_submit r
  have hnone : lines.filter p = [] :=
    List.filter_eq_nil_iff.2 fun l hl => Bool.eq_false_iff.1 (hwrite l (hlines l hl))
  rw [htold, List.filter_append, hnone, List.nil_append]

theorem queued_turn (q : Queue α) (op : Op) :
    (q.toldBy op).filter (·.hasMessage "queued resource update") =
      (q.turn op).event.queued?.toList.flatMap fun kind => [TraceLine.queued kind] := by
  cases op with
  | submit r =>
      rw [filter_submit (fun l hl => by cases hl <;> rfl)]
      cases (q.turn (.submit r)).event.queued? <;> rfl
  | flush => rfl
  | clear =>
      rw [toldBy_clear, Batch.discardLines]
      split <;> split <;> rfl

theorem isOf_flush_turn (q : Queue α) (op : Op) :
    (q.toldBy op).filter (·.isOf "flush") =
      (q.turn op).event.batch?.toList.flatMap Batch.flushLines := by
  cases op with
  | submit r =>
      rw [filter_submit (fun l hl => by cases hl <;> rfl)]
      cases (q.turn (.submit r)).event.queued? <;> rfl
  | flush => rfl
  | clear =>
      rw [toldBy_clear, Batch.discardLines]
      split <;> split <;> rfl

theorem discards_turn (q : Queue α) (op : Op) :
    (q.toldBy op).filter TraceLine.discards =
      (q.dropped? op).toList.flatMap Batch.discardLines := by
  cases op with
  | submit r =>
      rw [filter_submit (fun l hl => by cases hl <;> rfl)]
      cases (q.turn (.submit r)).event.queued? <;> rfl
  | flush => rfl
  | clear =>
      rw [toldBy_clear]
      show _ = q.held.discardLines ++ []
      rw [Batch.discardLines]
      split <;> split <;> rfl

/-- The trace of a run, whatever the allocator and whatever fails, tells what the requests
did that were carried out, what the flushes handed over and what the clears dropped. Each
flush and each clear tells it in its place. What a request did is told by the name of its
kind, which no other kind has. -/
theorem trace_tells_history (q : Queue α) :
    (∀ ops, (q.told ops).filter (·.hasMessage "queued resource update") =
      ((q.run ops).events.filterMap Event.queued?).map TraceLine.queued) ∧
    Function.Injective UpdateKind.name ∧
    (∀ ops, (q.told ops).filter (·.isOf "flush") =
      ((q.run ops).events.filterMap Event.batch?).flatMap Batch.flushLines) ∧
    (∀ ops, (q.told ops).filter TraceLine.discards =
      (q.dropped ops).flatMap Batch.discardLines) ∧
    ∀ ops₁ ops₂,
      let s := (q.run ops₁).state
      q.told (ops₁ ++ .flush :: ops₂) =
        q.told ops₁ ++ s.flush.1.flushLines ++ s.flush.2.1.told ops₂ ∧
      q.told (ops₁ ++ .clear :: ops₂) =
        q.told ops₁ ++ s.held.discardLines ++ s.clear.1.told ops₂ := by
  refine ⟨fun ops => ?_, UpdateKind.name_injective, filter_told_event isOf_flush_turn q,
    filter_told discards_turn q, fun ops₁ ops₂ => ⟨?_, ?_⟩⟩
  · rw [filter_told_event queued_turn, List.map_eq_flatMap]
  · rw [told_append_cons, toldBy_flush]
    rfl
  · rw [told_append_cons, toldBy_clear]
    rfl

/-- The second request finds no segment, and the second flush and the second clear
find nothing. -/
example :
    (ofConfig Packer.stuttering ⟨4⟩).map (fun q => q.told [.submit (.addFont ⟨1, 2⟩ [1, 2, 3] 7),
      .submit (.addFont ⟨1, 3⟩ [4, 5] 0), .flush, .flush, .submit (.deleteFont ⟨1, 4⟩), .clear,
      .clear]) = .ok
    ([.event .trace "allocated segment"
        [("class", .text "small"), ("size", .number 4), ("actual", .number 6)] [],
      .queued .addFont,
      .event .warn "segment allocation failed"
        [("class", .text "small"), ("size", .number 4),
          ("error", .text "segment allocation failed: none left")] []] ++
      Batch.flushLines
        ⟨[.addFont ⟨1, 2⟩ (.inSmall 0 0 3) 7], { small := [.ofBytes [1, 2, 3, 0, 0, 0]] }⟩ ++
      Batch.flushLines ⟨[], {}⟩ ++
      [.queued .deleteFont,
        .event .debug "discarding pending resource updates" [("updates", .number 1)] []]) := by
  rfl

end Queue

end Parcel
