import Parcel.Proofs.AllocatorLog
import Parcel.Proofs.PackerWritable
import Parcel.Proofs.Tally

/-!
# The books of a packer

What a packer reports is kept in books, which are the metrics. This file sets them against
what happened: the addresses that writes were answered with, the requests that the
allocator saw, and the segments that flushes handed over and clears dropped, or that are
still there.

Each write settles its own account. It asks for at most one segment, so that either one
request is counted or none (`requestsFor_write`), and a request is counted once, as
answered or as failed (`total_acquire`). What is written is what the answer spells out
(`total_write_bytesWritten`). And over a steady allocator a segment that was obtained is
in a list when the write is over (`sizes_write`): the one way to lose it would be that
access to it is refused after it was granted.
-/

namespace Parcel

namespace Packer

open Metrics

variable {α : Type}

/-- The address that a write was answered with. -/
def Event.address? : Event → Option Address
  | .wrote _ answer => answer.toOption
  | .flushed _ | .cleared => none

def Event.segments? : Event → Option Segments
  | .flushed s => some s
  | .wrote _ _ | .cleared => none

variable [Allocator α] {p : Packer α} {payload : List UInt8}

/-! ## One request -/

/-- A request is counted once, whether it is answered or fails. -/
theorem total_acquire (p : Packer α) (cls cls' : SegmentClass) (size : Nat) :
    total (ofEntries (p.acquire cls size).entries) ⟨.segmentsAllocated, some cls'⟩ +
      total (ofEntries (p.acquire cls size).entries) ⟨.allocationFailures, some cls'⟩ =
        if cls = cls' then 1 else 0 := by
  have hacquires := acquire_acquires p cls size
  generalize p.acquire cls size = o at hacquires
  cases hacquires <;> cases cls <;> cases cls' <;> rfl

/-- Only metrics of segments speak of requests. -/
theorem values_acquire (p : Packer α) (cls : SegmentClass) (size : Nat) {series : Series}
    (h : series.cls = none ∨ series.metric = .bytesWritten ∨ series.metric = .readFailures) :
    values (ofEntries (p.acquire cls size).entries) series = [] := by
  have hacquires := acquire_acquires p cls size
  generalize p.acquire cls size = o at hacquires
  obtain ⟨metric, cls'⟩ := series
  rcases h with rfl | rfl | rfl
  · cases hacquires <;> cases metric <;> rfl
  · cases hacquires <;> rfl
  · cases hacquires <;> rfl

/-! ## One write -/

/-- An address says how long its payload is. -/
theorem length_written {a : Address} (h : (p.write payload).answer = .ok a) :
    a.length.toNat = payload.length := by
  have haddressable := p.chunkSize.addressable
  have hwrites := write_writes p payload
  generalize p.write payload = o at hwrites h
  cases hwrites with
  | empty hempty =>
      cases h
      rw [hempty]
      rfl
  | refused _ _ _ _ _ => cases h
  | placed _ _ _ _ hfit _ _ =>
      cases h
      exact UInt32.toNat_ofNat_of_lt' (by omega)
  | withdrawn _ _ _ _ _ _ _ => cases h
  | stored _ _ _ _ hshort _ _ _ =>
      cases h
      exact UInt32.toNat_ofNat_of_lt' hshort

omit [Allocator α] in
/-- Of a payload that was written nothing but its length is recorded. -/
theorem values_written (answer : Except Fault Address) {series : Series}
    (h : series.cls = none ∨ series.metric ≠ .bytesWritten) :
    values (ofEntries (written payload answer)) series = [] := by
  obtain ⟨metric, cls⟩ := series
  cases answer with
  | error fault => rfl
  | ok a =>
      rw [written]
      split
      · rfl
      · rcases h with rfl | h
        · cases metric <;> rfl
        · cases metric with
          | bytesWritten => exact absurd rfl h
          | _ => rfl

/-- What a write adds to the length of payloads is the length at its address. -/
theorem total_write_bytesWritten (p : Packer α) (payload : List UInt8) (cls : SegmentClass) :
    total (ofEntries (p.write payload).entries) ⟨.bytesWritten, some cls⟩ =
      ((p.write payload).answer.toOption.map (Address.bytesIn cls)).getD 0 := by
  have hwritten : total (ofEntries (written payload (p.write payload).answer))
      ⟨.bytesWritten, some cls⟩ =
        ((p.write payload).answer.toOption.map (Address.bytesIn cls)).getD 0 := by
    cases hanswer : (p.write payload).answer with
    | error fault => rfl
    | ok a =>
        show _ = a.bytesIn cls
        rw [Address.bytesIn, length_written hanswer, written]
        by_cases hempty : payload = []
        · rw [if_pos hempty, hempty, List.length_nil, ite_self]
          rfl
        · rw [if_neg hempty]
          cases cls <;> cases hcls : a.cls <;> simp [total, values, ofEntries, Entry.samples,
            Sample.bytesWritten, Sample.ofClass]
  rcases p.write_asks payload with ⟨-, hentries⟩ | ⟨cls', size, -, -, hentries⟩
  · rw [hentries, hwritten]
  · rw [hentries, ofEntries_append, total_append,
      total_of_values (values_acquire p cls' size (.inr (.inl rfl))), List.sum_nil,
      Nat.zero_add, hwritten]

/-- No write fails to read, and none is about batches. -/
theorem values_write (p : Packer α) (payload : List UInt8) {series : Series}
    (h : series.cls = none ∨ series.metric = .readFailures) :
    values (ofEntries (p.write payload).entries) series = [] := by
  have hwritten : values (ofEntries (written payload (p.write payload).answer)) series = [] :=
    values_written _ (h.imp_right fun hreads => by rw [hreads]; decide)
  rcases p.write_asks payload with ⟨-, hentries⟩ | ⟨cls', size, -, -, hentries⟩
  · rw [hentries, hwritten]
  · rw [hentries, ofEntries_append, values_append,
      values_acquire p cls' size (h.imp_right .inr), hwritten, List.append_nil]

/-- What a refused payload leaves behind is at most an answer of the allocator that is of
no use, if the allocator is steady. -/
theorem Writable.values_refused (h : p.Writable) {fault : Fault} {allocator : α}
    {entries : List Entry} (hrefuses : Refuses p payload fault allocator entries)
    (cls : SegmentClass) :
    values (ofEntries entries) ⟨.segmentBytesAllocated, some cls⟩ = [] := by
  rcases h.refuses hrefuses with ⟨rfl, -⟩ | ⟨cls', size, hacquire⟩
  · rfl
  · have hacquires := acquire_acquires p cls' size
    rw [hacquire] at hacquires
    cases hacquires <;> rfl

omit [Allocator α] in
theorem sizes_refilled {chunk chunk' : Chunk} (hchunk : p.current = some chunk)
    (hsize : chunk'.segment.size = chunk.segment.size) (cls : SegmentClass) :
    ({ p with current := some chunk' } : Packer α).segments.sizes cls = p.segments.sizes cls := by
  cases cls with
  | large => rfl
  | small =>
      show (p.filled ++ [chunk'.segment]).map Segment.size = p.small.map Segment.size
      rw [small_of_current hchunk, List.map_append, List.map_append, List.map_singleton, hsize]
      rfl

/-- A segment that was obtained was reported with its size. -/
theorem values_acquired {p' : Packer α} {cls : SegmentClass} {size : Nat} {segment : Segment}
    {entries : List Entry} (h : p.acquire cls size = ⟨.ok segment, p', entries⟩)
    (cls' : SegmentClass) :
    values (ofEntries entries) ⟨.segmentBytesAllocated, some cls'⟩ =
      if cls = cls' then [segment.size] else [] := by
  obtain ⟨answered, _, _, _, _, rfl, _, rfl⟩ := acquire_ok h
  cases cls <;> cases cls' <;> rfl

theorem Opens.sizes {p' : Packer α} {n : Nat} {chunk : Chunk} {entries : List Entry}
    (h : Opens p n p' chunk entries) (cls : SegmentClass) :
    p'.segments.sizes cls = p.segments.sizes cls ++
      values (ofEntries entries) ⟨.segmentBytesAllocated, some cls⟩ := by
  cases h with
  | roomy _ _ _ => exact (List.append_nil _).symm
  | fresh segment allocator _ _ _ hacquire =>
      rw [values_acquired hacquire]
      cases cls with
      | large => exact (List.append_nil _).symm
      | small => exact List.map_append

/-- A write puts the segments that it obtains behind the others, and changes the size of
none. -/
theorem sizes_write (hp : p.Wf) (h : p.Writable) (payload : List UInt8) (cls : SegmentClass) :
    (p.write payload).state.segments.sizes cls = p.segments.sizes cls ++
      values (ofEntries (p.write payload).entries) ⟨.segmentBytesAllocated, some cls⟩ := by
  have hlength : ∀ entries cls' n,
      values (ofEntries (entries ++ [.written cls' n])) ⟨.segmentBytesAllocated, some cls⟩ =
        values (ofEntries entries) ⟨.segmentBytesAllocated, some cls⟩ := by
    intro entries cls' n
    rw [ofEntries_append, values_append]
    exact List.append_nil _
  have hwrites := write_writes p payload
  generalize p.write payload = o at hwrites
  cases hwrites with
  | empty _ => exact (List.append_nil _).symm
  | refused fault allocator entries _ hrefuses =>
      rw [h.values_refused hrefuses cls, List.append_nil]
      rfl
  | withdrawn _ _ _ _ _ hopen hgrant =>
      exact absurd hgrant (h.opens hopen).not_refused
  | placed p' chunk entries _ hfit hopen _ =>
      obtain ⟨hp', hchunk, hroom⟩ := hopen.wf hp hfit
      have hlong := hp'.current_size hchunk
      rw [hlength, ← hopen.sizes cls]
      exact sizes_refilled hchunk (size_filled (by omega)) cls
  | stored segment allocator entries _ _ _ hacquire _ =>
      have hsize := @size_filled segment 0 payload
        (by have hlong := size_of_acquire_ok hacquire; omega)
      rw [hlength, values_acquired hacquire]
      cases cls with
      | small => exact (List.append_nil _).symm
      | large =>
          show (p.large ++ [_]).map Segment.size = p.large.map Segment.size ++ [segment.size]
          rw [List.map_append, List.map_singleton, hsize]

/-! ## One turn -/

/-- Nothing that is counted happens in a flush or a clear. -/
theorem samples_of_no_payload {op : Op} (h : op.payload? = none) :
    ofEntries (p.turn op).entries = [] := by
  cases op with
  | write _ => cases h
  | writeValues _ => cases h
  | flush => rfl
  | clear =>
      show ofEntries (if p.isEmpty then _ else _) = []
      split <;> rfl

theorem total_turn_bytesWritten (p : Packer α) (op : Op) (cls : SegmentClass) :
    total (ofEntries (p.turn op).entries) ⟨.bytesWritten, some cls⟩ =
      ((p.turn op).event.address?.map (Address.bytesIn cls)).getD 0 := by
  rcases op.kinds with ⟨payload, hpayload⟩ | rfl | rfl
  · rw [turn_of_payload hpayload]
    exact total_write_bytesWritten p payload cls
  · rfl
  · rw [samples_of_no_payload rfl]
    rfl

theorem values_turn (p : Packer α) (op : Op) {series : Series}
    (h : series.cls = none ∨ series.metric = .readFailures) :
    values (ofEntries (p.turn op).entries) series = [] := by
  cases hpayload : op.payload? with
  | some payload =>
      rw [turn_of_payload hpayload]
      exact values_write p payload h
  | none =>
      rw [samples_of_no_payload hpayload]
      rfl

omit [Allocator α] in
theorem Needs.ofSize {cls : SegmentClass} {size : Nat} (h : p.Needs payload cls size) :
    SegmentClass.ofSize p.chunkSize.bytes (.ofNat size) = cls := by
  have haddressable := p.chunkSize.addressable
  have hword : UInt32.size ≤ UInt64.size := by decide
  cases h with
  | small _ _ _ =>
      rw [SegmentClass.ofSize, UInt64.toNat_ofNat_of_lt' (by omega), if_pos (Nat.le_refl _)]
  | large hlong hshort =>
      rw [SegmentClass.ofSize, UInt64.toNat_ofNat_of_lt' (by omega),
        if_neg (Nat.not_le_of_lt hlong)]

/-- The log of an allocator grows by what the metrics count. -/
theorem requestsFor_write (p : Packer (Logged α)) (payload : List UInt8) (cls : SegmentClass) :
    requestsFor p.chunkSize.bytes cls p.allocator.requests +
        (total (ofEntries (p.write payload).entries) ⟨.segmentsAllocated, some cls⟩ +
          total (ofEntries (p.write payload).entries) ⟨.allocationFailures, some cls⟩) =
      requestsFor p.chunkSize.bytes cls (p.write payload).state.allocator.requests := by
  have hwritten : ∀ metric, metric ≠ .bytesWritten →
      total (ofEntries (written payload (p.write payload).answer)) ⟨metric, some cls⟩ = 0 :=
    fun metric hmetric => total_of_values (values_written _ (.inr hmetric))
  rcases p.write_asks payload with
    ⟨hallocator, hentries⟩ | ⟨cls', size, hneeds, hallocator, hentries⟩
  · rw [hallocator, hentries, hwritten _ (by decide), hwritten _ (by decide)]
    rfl
  · rw [hallocator, hentries, ofEntries_append, total_append, total_append,
      hwritten _ (by decide), hwritten _ (by decide), Nat.add_zero, Nat.add_zero,
      total_acquire, requests_acquire, requestsFor_concat, hneeds.ofSize]

theorem requestsFor_turn (p : Packer (Logged α)) (op : Op) (cls : SegmentClass) :
    requestsFor p.chunkSize.bytes cls p.allocator.requests +
        (total (ofEntries (p.turn op).entries) ⟨.segmentsAllocated, some cls⟩ +
          total (ofEntries (p.turn op).entries) ⟨.allocationFailures, some cls⟩) =
      requestsFor p.chunkSize.bytes cls (p.turn op).state.allocator.requests := by
  cases hpayload : op.payload? with
  | some payload =>
      rw [turn_of_payload hpayload]
      exact requestsFor_write p payload cls
  | none =>
      rw [samples_of_no_payload hpayload, state_of_no_payload hpayload]
      rfl

/-! ## Runs -/

/-- A clear drops the lists as they are. -/
def dropped? (p : Packer α) : Op → Option Segments
  | .clear => some p.segments
  | _ => none

/-- All lists that there have been: those that flushes handed over, those that clears
dropped, and the ones that the packer still has. -/
def lists (p : Packer α) (ops : List Op) : List Segments :=
  (p.run ops).events.filterMap Event.segments? ++ Turn.lost turn dropped? p ops ++
    [(p.run ops).state.segments]

theorem total_run_bytesWritten (p : Packer α) (ops : List Op) (cls : SegmentClass) :
    total (ofEntries (p.run ops).entries) ⟨.bytesWritten, some cls⟩ =
      (((p.run ops).events.filterMap Event.address?).map (Address.bytesIn cls)).sum := by
  rw [sum_map_filterMap, run, Turn.run_events, total_run, List.map_map]
  simp only [total_turn_bytesWritten]
  rfl

theorem requestsFor_run (p : Packer α) (ops : List Op) (cls : SegmentClass) :
    total (ofEntries (p.run ops).entries) ⟨.segmentsAllocated, some cls⟩ +
        total (ofEntries (p.run ops).entries) ⟨.allocationFailures, some cls⟩ =
      requestsFor p.chunkSize.bytes cls (p.requested ops) := by
  have hgrows := @Turn.run_grows _ _ _ turn (fun q => q.chunkSize = p.chunkSize)
    (fun q => requestsFor p.chunkSize.bytes cls q.allocator.requests)
    (fun q op => total (ofEntries (q.turn op).entries) ⟨.segmentsAllocated, some cls⟩ +
      total (ofEntries (q.turn op).entries) ⟨.allocationFailures, some cls⟩)
    ?_ p.logged rfl ops
  · -- The log is empty at the start, and what it holds at the end are the requests.
    rw [List.sum_map_add, ← total_run, ← total_run] at hgrows
    rw [run_logged, requested, run, ← hgrows]
    exact (Nat.zero_add _).symm
  · intro q op hq
    refine ⟨(chunkSize_turn q op).trans hq, ?_⟩
    rw [← hq]
    exact requestsFor_turn q op cls

/-- What a turn obtains joins the lists, unless the turn gives them away or drops them. -/
theorem sizes_turn (hp : p.Wf) (h : p.Writable) (op : Op) (cls : SegmentClass) (w : Nat → Nat) :
    let load := fun s : Segments => ((s.sizes cls).map w).sum
    load p.segments + ((values (ofEntries (p.turn op).entries)
        ⟨.segmentBytesAllocated, some cls⟩).map w).sum =
      ((p.turn op).event.segments?.map load).getD 0 + ((p.dropped? op).map load).getD 0 +
        load (p.turn op).state.segments := by
  intro load
  have hemptied : load p.emptied.segments = 0 := by cases cls <;> rfl
  rcases op.kinds with ⟨payload, hpayload⟩ | rfl | rfl
  · have hdropped : p.dropped? op = none := by
      cases op with
      | clear => cases hpayload
      | _ => rfl
    rw [turn_of_payload hpayload, hdropped]
    simp only [load, sizes_write hp h, List.map_append, List.sum_append]
    simp [Event.segments?]
  · rw [samples_of_no_payload rfl, state_of_no_payload rfl, hemptied]
    rfl
  · rw [samples_of_no_payload rfl, state_of_no_payload rfl, hemptied]
    simp [values, turn, Event.segments?, dropped?]

theorem writable_turn (h : p.Writable) (op : Op) : (p.turn op).state.Writable := by
  cases hpayload : op.payload? with
  | some payload =>
      rw [turn_of_payload hpayload]
      exact writable_write h payload
  | none =>
      rw [state_of_no_payload hpayload]
      exact writable_emptied h.allocator

/-- Over a steady allocator no segment is obtained that is not kept. -/
theorem sizes_run (hempty : p.emptied = p) (hsteady : Allocator.Steady p.allocator)
    (ops : List Op) (cls : SegmentClass) (w : Nat → Nat) :
    ((values (ofEntries (p.run ops).entries) ⟨.segmentBytesAllocated, some cls⟩).map w).sum =
      ((p.lists ops).map fun s => ((s.sizes cls).map w).sum).sum := by
  have hstart : p.Wf ∧ p.Writable := by
    rw [← hempty]
    exact ⟨wf_emptied p, writable_emptied hsteady⟩
  have hkept := @Turn.run_kept _ _ _ turn _ (fun q : Packer α => q.Wf ∧ q.Writable)
    Event.segments? dropped? segments (fun s => ((s.sizes cls).map w).sum)
    (fun q op => ((values (ofEntries (q.turn op).entries)
      ⟨.segmentBytesAllocated, some cls⟩).map w).sum)
    (fun q op hq => ⟨⟨wf_turn hq.1 op, writable_turn hq.2 op⟩,
      sizes_turn hq.1 hq.2 op cls w⟩) p hstart ops
  have hnothing : ((p.segments.sizes cls).map w).sum = 0 := by
    rw [← hempty]
    cases cls <;> rfl
  rw [hnothing, Nat.zero_add, ← sum_map_flatMap, ← values_run] at hkept
  exact hkept

theorem values_run_reads (p : Packer α) (ops : List Op) (cls : SegmentClass) :
    values (ofEntries (p.run ops).entries) ⟨.readFailures, some cls⟩ = [] := by
  rw [run, values_run, List.flatMap_eq_nil_iff]
  exact fun x _ => values_turn x.1 x.2 (.inr rfl)

theorem classBalance_run (p : Packer α) (ops : List Op) (cls : SegmentClass)
    (reads : List Query) :
    ClassBalance (ofEntries ((p.run ops).entries ++ reads.flatMap Query.entries))
      p.chunkSize.bytes cls ((p.run ops).events.filterMap Event.address?) (p.requested ops)
      reads :=
  classBalance_of_run (total_run_bytesWritten p ops cls) (requestsFor_run p ops cls)
    (values_run_reads p ops cls) reads

theorem segmentBalance_run (hempty : p.emptied = p) (hsteady : Allocator.Steady p.allocator)
    (ops : List Op) (cls : SegmentClass) (reads : List Query) :
    SegmentBalance (ofEntries ((p.run ops).entries ++ reads.flatMap Query.entries)) cls
      ((p.lists ops).flatMap (·.ofClass cls)) :=
  segmentBalance_of_values (sizes_run hempty hsteady ops cls) reads

end Packer

end Parcel
