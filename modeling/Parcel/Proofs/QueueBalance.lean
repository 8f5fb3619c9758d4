import Parcel.Proofs.PackerBalance
import Parcel.Proofs.QueueRun

/-!
# The books of a queue

To its packer a request is one write or nothing (`submit_packs`), so that the books of a
queue are those of its packer with entries about batches added to them. What goes into a
queue is set against the batches that come of it. A batch is handed over by a flush or
dropped by a clear, or it is what the queue still holds, and whatever is added to one by
requests is found again in the sum over all of them (`run_kept`): the bytes that records
lead to, the segments, and the records.

`metrics_conserved` puts the accounts together, for packers and for queues.
-/

namespace Parcel

namespace Queue

open Metrics

variable {α : Type}

/-- What a flush would hand over now. -/
def held (q : Queue α) : Batch := ⟨q.pending, q.packer.segments⟩

def Event.batch? : Event → Option Batch
  | .flushed b => some b
  | .submitted _ _ | .cleared => none

/-- The request of an operation was carried out. -/
def Event.accepted : Event → Bool
  | .submitted _ answer => answer.isOk
  | .flushed _ | .cleared => false

/-- A clear drops the records and the lists as they are. -/
def dropped? (q : Queue α) : Op → Option Batch
  | .clear => some q.held
  | .submit _ | .flush => none

/-- What a batch adds to a metric when it is flushed. -/
def recorded (metric : Metric) (b : Batch) : Nat :=
  match metric with
  | .batchesFlushed => 1
  | .updatesFlushed | .batchUpdates => b.updates.length
  | _ => 0

variable [Allocator α]

/-! ## One turn -/

/-- To its packer a request is nothing or one write, and what is counted of it is what is
counted of that. -/
theorem submit_packs (q : Queue α) (r : Request) :
    ((q.submit r).state.packer = q.packer ∧ ofEntries (q.submit r).entries = []) ∨
      ∃ payload, (q.submit r).state.packer = (q.packer.write payload).state ∧
        ofEntries (q.submit r).entries = ofEntries (q.packer.write payload).entries := by
  have hsubmits := submit_submits q r
  generalize q.submit r = o at hsubmits
  cases hsubmits with
  | invalid _ _ => exact .inl ⟨rfl, rfl⟩
  | unwritten payload _ _ _ _ => exact .inr ⟨payload, rfl, rfl⟩
  | written payload _ _ _ _ =>
      refine .inr ⟨payload, rfl, ?_⟩
      rw [ofEntries_append]
      exact List.append_nil _
  | bare _ _ => exact .inl ⟨rfl, rfl⟩

/-- What writes keep of a packer, requests keep. -/
theorem keeps_submit (P : Packer α → Prop)
    (hwrite : ∀ p payload, P p → P (p.write payload).state) {q : Queue α} (h : P q.packer)
    (r : Request) : P (q.submit r).state.packer := by
  rcases q.submit_packs r with ⟨hpacker, -⟩ | ⟨payload, hpacker, -⟩
  · rwa [hpacker]
  · rw [hpacker]
    exact hwrite q.packer payload h

theorem samples_clear (q : Queue α) : ofEntries (q.turn .clear).entries = [] := by
  show ofEntries ((if q.pending.isEmpty then _ else _) ++ if q.packer.isEmpty then _ else _) = []
  split <;> split <;> rfl

/-- Only requests are on behalf of a class. -/
theorem values_quiet (q : Queue α) {op : Op} (h : ∀ r, op ≠ .submit r) (metric : Metric)
    (cls : SegmentClass) : values (ofEntries (q.turn op).entries) ⟨metric, some cls⟩ = [] := by
  cases op with
  | submit r => exact absurd rfl (h r)
  | flush => cases metric <;> rfl
  | clear => rw [samples_clear]; rfl

/-- What is recorded without a class is recorded of batches. -/
theorem total_turn_batch (q : Queue α) (op : Op) (metric : Metric) :
    total (ofEntries (q.turn op).entries) ⟨metric, none⟩ =
      ((q.turn op).event.batch?.map (recorded metric)).getD 0 := by
  cases op with
  | submit r =>
      show total (ofEntries (q.submit r).entries) _ = 0
      rcases q.submit_packs r with ⟨-, hsamples⟩ | ⟨payload, -, hsamples⟩
      · rw [hsamples]
        rfl
      · rw [hsamples]
        exact total_of_values (q.packer.values_write payload (.inl rfl))
  | flush => cases metric <;> rfl
  | clear => rw [samples_clear]; rfl

/-- A record that is added leads to what was written for it. -/
theorem bytesWritten_submit (q : Queue α) (r : Request) (cls : SegmentClass) :
    ((q.pending.filterMap Change.address?).map (Address.bytesIn cls)).sum +
        total (ofEntries (q.submit r).entries) ⟨.bytesWritten, some cls⟩ =
      (((q.submit r).state.pending.filterMap Change.address?).map (Address.bytesIn cls)).sum := by
  have hsubmits := submit_submits q r
  generalize q.submit r = o at hsubmits
  cases hsubmits with
  | invalid _ _ => rfl
  | unwritten payload _ _ _ hanswer =>
      rw [Packer.total_write_bytesWritten, hanswer]
      rfl
  | written payload a _ hpayload hanswer =>
      have haddress : (r.record a).address? = some a := by
        rw [Request.address?_record, hpayload]
        rfl
      rw [ofEntries_append, total_append, Packer.total_write_bytesWritten, hanswer]
      simp [haddress, Except.toOption, ofEntries, Entry.samples, total, values]
  | bare _ hpayload =>
      have haddress : (r.record .empty).address? = none := by
        rw [Request.address?_record, hpayload]
        rfl
      simp [haddress, ofEntries, Entry.samples, total, values]

theorem requestsFor_turn (q : Queue (Logged α)) (op : Op) (cls : SegmentClass) :
    requestsFor q.packer.chunkSize.bytes cls q.packer.allocator.requests +
        (total (ofEntries (q.turn op).entries) ⟨.segmentsAllocated, some cls⟩ +
          total (ofEntries (q.turn op).entries) ⟨.allocationFailures, some cls⟩) =
      requestsFor q.packer.chunkSize.bytes cls (q.turn op).state.packer.allocator.requests := by
  cases op with
  | submit r =>
      show _ + (total (ofEntries (q.submit r).entries) _ +
        total (ofEntries (q.submit r).entries) _) =
          requestsFor _ _ (q.submit r).state.packer.allocator.requests
      rcases q.submit_packs r with ⟨hpacker, hsamples⟩ | ⟨payload, hpacker, hsamples⟩
      · rw [hpacker, hsamples]
        rfl
      · rw [hpacker, hsamples]
        exact q.packer.requestsFor_write payload cls
  | flush => rfl
  | clear =>
      rw [samples_clear]
      rfl

theorem sizes_submit {q : Queue α} (hq : q.packer.Wf) (h : q.packer.Writable) (r : Request)
    (cls : SegmentClass) :
    (q.submit r).state.packer.segments.sizes cls = q.packer.segments.sizes cls ++
      values (ofEntries (q.submit r).entries) ⟨.segmentBytesAllocated, some cls⟩ := by
  rcases q.submit_packs r with ⟨hpacker, hsamples⟩ | ⟨payload, hpacker, hsamples⟩
  · rw [hpacker, hsamples]
    exact (List.append_nil _).symm
  · rw [hpacker, hsamples]
    exact Packer.sizes_write hq h payload cls

/-- A request that is carried out adds a record, and no other does. -/
theorem pending_submit (q : Queue α) (r : Request) :
    q.pending.length + (if (q.submit r).answer.isOk then 1 else 0) =
      (q.submit r).state.pending.length := by
  have hsubmits := submit_submits q r
  generalize q.submit r = o at hsubmits
  cases hsubmits with
  | invalid _ _ => rfl
  | unwritten _ _ _ _ _ => rfl
  | written _ _ _ _ _ =>
      rw [List.length_append]
      rfl
  | bare _ _ =>
      rw [List.length_append]
      rfl

/-! ## Runs -/

variable {q : Queue α}

/-- What the clears of a run dropped. -/
def dropped (q : Queue α) (ops : List Op) : List Batch := Turn.lost turn dropped? q ops

/-- All batches that there have been: those that flushes handed over, those that clears
dropped, and what the queue still holds. -/
def batches (q : Queue α) (ops : List Op) : List Batch :=
  (q.run ops).events.filterMap Event.batch? ++ q.dropped ops ++ [(q.run ops).state.held]

/-- What requests put into a queue is handed over, dropped or still there. -/
theorem run_kept {P : Queue α → Prop} (load : Batch → Nat) (inflow : Queue α → Op → Nat)
    (hsubmit : ∀ q r, P q → P (q.submit r).state ∧
      load q.held + inflow q (.submit r) = load (q.submit r).state.held)
    (hempty : ∀ q, P q → P ⟨q.packer.emptied, []⟩)
    (hnothing : load ⟨[], {}⟩ = 0) (hquiet : ∀ q op, (∀ r, op ≠ .submit r) → inflow q op = 0)
    (h : P q) (ops : List Op) :
    load q.held + ((Turn.trail turn q ops).map fun x => inflow x.1 x.2).sum =
      ((q.batches ops).map load).sum := by
  refine Turn.run_kept Event.batch? dropped? held load inflow ?_ h ops
  intro q op hq
  cases op with
  | submit r =>
      obtain ⟨hnext, hload⟩ := hsubmit q r hq
      refine ⟨hnext, ?_⟩
      rw [hload]
      simp [Event.batch?, turn, dropped?]
  | flush =>
      refine ⟨hempty q hq, ?_⟩
      rw [hquiet q .flush (by simp)]
      show _ = load q.held + 0 + load ⟨[], {}⟩
      rw [hnothing]
  | clear =>
      refine ⟨hempty q hq, ?_⟩
      rw [hquiet q .clear (by simp)]
      show _ = 0 + load q.held + load ⟨[], {}⟩
      rw [hnothing]
      omega

/-- All that was written lies at the addresses of records. -/
theorem total_run_bytesWritten (hnew : q.pending = []) (ops : List Op) (cls : SegmentClass) :
    total (ofEntries (q.run ops).entries) ⟨.bytesWritten, some cls⟩ =
      (((q.batches ops).flatMap (·.updates.filterMap Change.address?)).map
        (Address.bytesIn cls)).sum := by
  have hkept := @run_kept _ _ q (fun _ => True)
    (fun b => ((b.updates.filterMap Change.address?).map (Address.bytesIn cls)).sum)
    (fun q op => total (ofEntries (q.turn op).entries) ⟨.bytesWritten, some cls⟩)
    (fun q r _ => ⟨trivial, q.bytesWritten_submit r cls⟩) (fun _ _ => trivial) rfl
    (fun q op h => total_of_values (q.values_quiet h _ cls)) trivial ops
  rw [show q.held.updates = [] from hnew, ← total_run] at hkept
  rw [sum_map_flatMap, ← hkept]
  exact (Nat.zero_add _).symm

theorem requestsFor_run (q : Queue α) (ops : List Op) (cls : SegmentClass) :
    total (ofEntries (q.run ops).entries) ⟨.segmentsAllocated, some cls⟩ +
        total (ofEntries (q.run ops).entries) ⟨.allocationFailures, some cls⟩ =
      requestsFor q.packer.chunkSize.bytes cls (q.requested ops) := by
  have hgrows := @Turn.run_grows _ _ _ turn (fun s => s.packer.chunkSize = q.packer.chunkSize)
    (fun s => requestsFor q.packer.chunkSize.bytes cls s.packer.allocator.requests)
    (fun s op => total (ofEntries (s.turn op).entries) ⟨.segmentsAllocated, some cls⟩ +
      total (ofEntries (s.turn op).entries) ⟨.allocationFailures, some cls⟩)
    ?_ q.logged rfl ops
  · rw [List.sum_map_add, ← total_run, ← total_run] at hgrows
    rw [run_logged, requested, run, ← hgrows]
    exact (Nat.zero_add _).symm
  · intro s op hs
    refine ⟨?_, ?_⟩
    · cases op with
      | submit r =>
          exact keeps_submit (fun p => p.chunkSize = q.packer.chunkSize)
            (fun p payload hp => (p.chunkSize_write payload).trans hp) hs r
      | flush => exact hs
      | clear => exact hs
    · rw [← hs]
      exact s.requestsFor_turn op cls

theorem sizes_run (hempty : q.packer.emptied = q.packer)
    (hsteady : Allocator.Steady q.packer.allocator) (ops : List Op) (cls : SegmentClass)
    (w : Nat → Nat) :
    ((values (ofEntries (q.run ops).entries) ⟨.segmentBytesAllocated, some cls⟩).map w).sum =
      (((q.batches ops).map Batch.segments).map fun s => ((s.sizes cls).map w).sum).sum := by
  have hstart : q.packer.Wf ∧ q.packer.Writable := by
    rw [← hempty]
    exact ⟨Packer.wf_emptied _, Packer.writable_emptied hsteady⟩
  have hsubmit : ∀ (s : Queue α) r, s.packer.Wf ∧ s.packer.Writable →
      (s.submit r).state.packer.Wf ∧ (s.submit r).state.packer.Writable :=
    fun s r hs => keeps_submit (fun p => p.Wf ∧ p.Writable) (fun p payload hp =>
      ⟨Packer.wf_write hp.1 payload, Packer.writable_write hp.2 payload⟩) hs r
  have hkept := @run_kept _ _ q (fun s => s.packer.Wf ∧ s.packer.Writable)
    (fun b => ((b.segments.sizes cls).map w).sum)
    (fun s op => ((values (ofEntries (s.turn op).entries)
      ⟨.segmentBytesAllocated, some cls⟩).map w).sum)
    (fun s r hs => ⟨hsubmit s r hs, by
      show (_ : Nat) = ((s.submit r).state.packer.segments.sizes cls |>.map w).sum
      rw [sizes_submit hs.1 hs.2, List.map_append, List.sum_append]
      rfl⟩)
    (fun s hs => ⟨Packer.wf_emptied _, Packer.writable_emptied hs.2.allocator⟩)
    (by cases cls <;> rfl)
    (fun s op h => by rw [s.values_quiet h]; rfl) hstart ops
  have hnothing : ((q.held.segments.sizes cls).map w).sum = 0 := by
    show ((q.packer.segments.sizes cls).map w).sum = 0
    rw [← hempty]
    cases cls <;> rfl
  rw [hnothing, Nat.zero_add, ← sum_map_flatMap, ← values_run] at hkept
  rw [List.map_map]
  exact hkept

theorem values_run_reads (q : Queue α) (ops : List Op) (cls : SegmentClass) :
    values (ofEntries (q.run ops).entries) ⟨.readFailures, some cls⟩ = [] := by
  rw [run, values_run, List.flatMap_eq_nil_iff]
  rintro ⟨s, op⟩ -
  cases op with
  | submit r =>
      show values (ofEntries (s.submit r).entries) _ = []
      rcases s.submit_packs r with ⟨-, hsamples⟩ | ⟨payload, -, hsamples⟩
      · rw [hsamples]
        rfl
      · rw [hsamples]
        exact s.packer.values_write payload (.inr rfl)
  | flush => rfl
  | clear =>
      rw [samples_clear]
      rfl

/-- What is recorded of batches is recorded of those that flushes handed over. -/
theorem total_run_batch (q : Queue α) (ops : List Op) (metric : Metric) :
    total (ofEntries (q.run ops).entries) ⟨metric, none⟩ =
      (((q.run ops).events.filterMap Event.batch?).map (recorded metric)).sum := by
  rw [sum_map_filterMap, run, Turn.run_events, total_run, List.map_map]
  simp only [total_turn_batch]
  rfl

/-- Of each request that was carried out there is a record. -/
theorem countP_accepted_run (hnew : q.pending = []) (ops : List Op) :
    (q.run ops).events.countP Event.accepted =
      ((q.batches ops).map (·.updates.length)).sum := by
  have hkept := @run_kept _ _ q (fun _ => True) (·.updates.length)
    (fun q op => if (q.turn op).event.accepted then 1 else 0)
    (fun q r _ => ⟨trivial, q.pending_submit r⟩) (fun _ _ => trivial) rfl
    (fun q op h => by
      cases op with
      | submit r => exact absurd rfl (h r)
      | flush => rfl
      | clear => rfl) trivial ops
  rw [← hkept, show q.held.updates = [] from hnew, run, Turn.run_events, ← sum_map_ite,
    List.map_map]
  exact (Nat.zero_add _).symm

theorem classBalance_run (hnew : q.pending = []) (ops : List Op) (cls : SegmentClass)
    (reads : List Query) :
    ClassBalance (ofEntries ((q.run ops).entries ++ reads.flatMap Query.entries))
      q.packer.chunkSize.bytes cls
      ((q.batches ops).flatMap (·.updates.filterMap Change.address?)) (q.requested ops) reads :=
  classBalance_of_run (total_run_bytesWritten hnew ops cls) (requestsFor_run q ops cls)
    (values_run_reads q ops cls) reads

theorem segmentBalance_run (hempty : q.packer.emptied = q.packer)
    (hsteady : Allocator.Steady q.packer.allocator) (ops : List Op) (cls : SegmentClass)
    (reads : List Query) :
    SegmentBalance (ofEntries ((q.run ops).entries ++ reads.flatMap Query.entries)) cls
      (((q.batches ops).map Batch.segments).flatMap (·.ofClass cls)) :=
  segmentBalance_of_values (sizes_run hempty hsteady ops cls) reads

end Queue

/-- The books balance, for every allocator and every run of a packer or of a queue, and
whatever is read after it. By class, what was written is what addresses lead to, each
request to the allocator was counted once, as answered or as failed, and so was each read
that failed. Over a steady allocator the segments that were obtained are those that
flushes handed over, those that clears dropped and those still there. A queue has counted
its flushes and the records in them, and these are the requests that it carried out, less
those that were cleared or are pending. -/
theorem metrics_conserved {α : Type} [Allocator α] {allocator : α} {size : UInt64}
    {p : Packer α} {q : Queue α} (hp : Packer.ofSize allocator size = .ok p)
    (hq : Queue.ofConfig allocator ⟨size⟩ = .ok q) (reads : List Query) :
    (∀ ops cls,
      let samples := Metrics.ofEntries ((p.run ops).entries ++ reads.flatMap Query.entries)
      ClassBalance samples size.toNat cls
        ((p.run ops).events.filterMap Packer.Event.address?) (p.requested ops) reads ∧
      (Allocator.Steady allocator →
        SegmentBalance samples cls ((p.lists ops).flatMap (·.ofClass cls)))) ∧
    ∀ ops,
      let samples := Metrics.ofEntries ((q.run ops).entries ++ reads.flatMap Query.entries)
      (∀ cls,
        ClassBalance samples size.toNat cls
          ((q.batches ops).flatMap (·.updates.filterMap Change.address?)) (q.requested ops)
          reads ∧
        (Allocator.Steady allocator →
          SegmentBalance samples cls
            (((q.batches ops).map Batch.segments).flatMap (·.ofClass cls)))) ∧
      Metrics.total samples ⟨.batchesFlushed, none⟩ =
        ((q.run ops).events.filterMap Queue.Event.batch?).length ∧
      Metrics.total samples ⟨.updatesFlushed, none⟩ =
        (Metrics.values samples ⟨.batchUpdates, none⟩).sum ∧
      Metrics.total samples ⟨.updatesFlushed, none⟩ +
          ((q.dropped ops).map (·.updates.length)).sum + (q.run ops).state.pending.length =
        (q.run ops).events.countP Queue.Event.accepted := by
  obtain ⟨hnew, hpacker⟩ := Queue.new_of_ofConfig hq
  refine ⟨fun ops cls => ⟨?_, fun hsteady => ?_⟩, fun ops => ⟨fun cls => ⟨?_, fun hsteady => ?_⟩,
    ?_, ?_, ?_⟩⟩
  · rw [← Packer.chunkSize_of_ofSize hp]
    exact p.classBalance_run ops cls reads
  · rw [← Packer.allocator_of_ofSize hp] at hsteady
    exact Packer.segmentBalance_run (Packer.emptied_of_ofSize hp) hsteady ops cls reads
  · rw [← Packer.chunkSize_of_ofSize hpacker]
    exact Queue.classBalance_run hnew ops cls reads
  · rw [← Packer.allocator_of_ofSize hpacker] at hsteady
    exact Queue.segmentBalance_run (Packer.emptied_of_ofSize hpacker) hsteady ops cls reads
  · have hrecorded : Queue.recorded .batchesFlushed = fun _ => 1 := rfl
    rw [Metrics.total_before _ reads (by decide), Queue.total_run_batch, hrecorded]
    simp
  · rw [Metrics.total_before _ reads (by decide), Metrics.values_before _ reads (by decide),
      Queue.total_run_batch]
    exact (q.total_run_batch ops .batchUpdates).symm
  · have hrecorded : Queue.recorded .updatesFlushed = fun b => b.updates.length := rfl
    rw [Metrics.total_before _ reads (by decide), Queue.total_run_batch, hrecorded,
      Queue.countP_accepted_run hnew, Queue.batches]
    simp [Queue.held, Nat.add_assoc]

/-- A packer whose second request fails drops two segments, hands one of each class over
and still has one; a queue flushes a record, drops one and has one pending. Of the reads
two fail for a small address and one for a large one. -/
theorem metrics_conserved_stuttering :
    ∃ (p : Packer Scripted) (q : Queue Scripted),
      Packer.ofSize Packer.stuttering 4 = .ok p ∧
      Queue.ofConfig Packer.stuttering ⟨4⟩ = .ok q ∧
      let s : Segments := { small := [.ofBytes [1, 2, 3]] }
      let reads : List Query := [.bytes s (.inSmall 0 0 3), .values UInt16 s (.inSmall 0 0 3),
        .onto s (.inSmall 0 1 3) [], .payload ⟨[], s⟩ (.addFont ⟨1, 2⟩ (.inLarge 0 5) 0)]
      let ops : List Packer.Op := [.write [1, 2, 3], .write [4, 5], .writeValues [(6 : UInt16)],
        .clear, .write [8, 8, 8, 8, 8], .write [], .write [7], .flush, .write [9]]
      let requests : List Queue.Op := [.submit (.addFont ⟨1, 2⟩ [1, 2, 3] 7), .clear,
        .submit (.addFont ⟨1, 3⟩ [4, 5] 0), .submit (.addFont ⟨1, 4⟩ [4, 5] 0), .flush,
        .submit (.deleteFont ⟨1, 4⟩)]
      let samples := Metrics.ofEntries ((p.run ops).entries ++ reads.flatMap Query.entries)
      let samples' := Metrics.ofEntries ((q.run requests).entries ++ reads.flatMap Query.entries)
      Metrics.total samples ⟨.bytesWritten, some .small⟩ = 7 ∧
      Metrics.total samples ⟨.segmentsAllocated, some .small⟩ +
        Metrics.total samples ⟨.allocationFailures, some .small⟩ = 5 ∧
      Metrics.total samples ⟨.segmentsAllocated, some .small⟩ = 4 ∧
      Metrics.total samples ⟨.segmentBytesAllocated, some .large⟩ = 7 ∧
      Metrics.total samples ⟨.readFailures, some .small⟩ = 2 ∧
      Metrics.total samples' ⟨.bytesWritten, some .small⟩ = 5 ∧
      Metrics.total samples' ⟨.segmentBytesAllocated, some .small⟩ = 12 ∧
      Metrics.total samples' ⟨.batchesFlushed, none⟩ = 1 ∧
      Metrics.total samples' ⟨.updatesFlushed, none⟩ + 1 + 1 = 3 := by
  obtain ⟨p, hp⟩ : ∃ p, Packer.ofSize Packer.stuttering 4 = .ok p := ⟨_, rfl⟩
  obtain ⟨q, hq⟩ : ∃ q, Queue.ofConfig Packer.stuttering ⟨4⟩ = .ok q := ⟨_, rfl⟩
  refine ⟨p, q, hp, hq, ?_⟩
  intro s reads ops requests samples samples'
  obtain ⟨hpacker, hqueue⟩ := metrics_conserved hp hq reads
  obtain ⟨hsmall, hsegments⟩ := hpacker ops .small
  obtain ⟨-, hlarge⟩ := hpacker ops .large
  obtain ⟨hclasses, hbatches, -, hupdates⟩ := hqueue requests
  obtain ⟨hwritten, hheld⟩ := hclasses .small
  cases hp
  cases hq
  exact ⟨hsmall.written, hsmall.requested, (hsegments Packer.steady_stuttering).count,
    (hlarge Packer.steady_stuttering).bytes, hsmall.refused, hwritten.written,
    (hheld Packer.steady_stuttering).bytes, hbatches, hupdates⟩

end Parcel
