import Mathlib.Algebra.BigOperators.Group.List.Basic
import Mathlib.Algebra.GroupWithZero.Nat
import Parcel.Batch.Basic
import Parcel.Journal.Metrics
import Parcel.Proofs.Fitting
import Parcel.Proofs.Runs

/-!
# What entries add up to

The metrics of a run are sums over its entries, and its entries are those of its turns.
The sum over a run is thus the sum over its turns (`Metrics.total_run`), and one turn at a
time has to be looked at. What comes in during a run can be found where it has gone
(`Turn.run_kept`). Of a segment that was obtained the size is recorded, so that counting
segments and adding up their sizes are two readings of one list
(`Metrics.total_segmentsAllocated`).

What is read of a metric is what was added up, as far as words and doubles can tell
(`Metrics.readings_show`).

The reads that may follow a run are put under one roof here as well (`Query`). A read that
fails is reported once, with the address that it was refused for
(`Query.total_readFailures`), and no read adds to any other metric
(`Query.values_entries`).
-/

namespace Parcel

universe u

/-- A sum over what a part of a list is mapped to. -/
theorem sum_map_filterMap {β : Type u} {γ : Type} (g : β → Option γ) (f : γ → Nat)
    (l : List β) : ((l.filterMap g).map f).sum = (l.map fun x => ((g x).map f).getD 0).sum := by
  induction l with
  | nil => rfl
  | cons x l ih =>
      cases hx : g x with
      | none => simp [hx, ih]
      | some y => simp [hx, ih]

theorem sum_map_flatMap {β : Type u} {γ : Type} (g : β → List γ) (f : γ → Nat) (l : List β) :
    ((l.flatMap g).map f).sum = (l.map fun x => ((g x).map f).sum).sum := by
  induction l with
  | nil => rfl
  | cons x l ih => simp [ih]

/-- Counting is adding up. -/
theorem sum_map_ite {β : Type u} (p : β → Bool) (l : List β) :
    (l.map fun x => if p x then 1 else 0).sum = l.countP p := by
  induction l with
  | nil => rfl
  | cons x l ih => rw [List.map_cons, List.sum_cons, ih, List.countP_cons, Nat.add_comm]

namespace Turn

variable {σ ε : Type} {ι : Type u} {turn : σ → ι → Turn σ ε}

/-- What goes in during a run is given to its caller, lost or still held at the end. -/
theorem run_kept {β : Type} {P : σ → Prop} (gift? : ε → Option β) (loss? : σ → ι → Option β)
    (held : σ → β) (load : β → Nat) (inflow : σ → ι → Nat)
    (hturn : ∀ s op, P s → P (turn s op).state ∧
      load (held s) + inflow s op = ((gift? (turn s op).event).map load).getD 0 +
        ((loss? s op).map load).getD 0 + load (held (turn s op).state))
    {s : σ} (h : P s) (ops : List ι) :
    load (held s) + ((trail turn s ops).map fun x => inflow x.1 x.2).sum =
      (((run turn s ops).events.filterMap gift? ++ lost turn loss? s ops ++
        [held (run turn s ops).state]).map load).sum := by
  induction ops generalizing s with
  | nil => simp [trail, run, lost]
  | cons op ops ih =>
      obtain ⟨hnext, hbalance⟩ := hturn s op h
      have hrest := ih hnext
      simp only [List.map_append, List.sum_append_nat, sum_map_filterMap, lost, trail, run,
        List.map_cons, List.sum_cons] at hrest ⊢
      omega

/-- A measure of the state grows by what comes in, if it does so in every turn. -/
theorem run_grows {P : σ → Prop} (measure : σ → Nat) (inflow : σ → ι → Nat)
    (hturn : ∀ s op, P s → P (turn s op).state ∧
      measure s + inflow s op = measure (turn s op).state)
    {s : σ} (h : P s) (ops : List ι) :
    measure s + ((trail turn s ops).map fun x => inflow x.1 x.2).sum =
      measure (run turn s ops).state := by
  induction ops generalizing s with
  | nil => rfl
  | cons op ops ih =>
      obtain ⟨hnext, hgrows⟩ := hturn s op h
      rw [trail, List.map_cons, List.sum_cons, ← Nat.add_assoc, hgrows, ih hnext, run]

end Turn

namespace Metrics

theorem total_of_values {samples : List Sample} {series : Series} {amounts : List Nat}
    (h : values samples series = amounts) : total samples series = amounts.sum :=
  congrArg List.sum h

theorem values_flatMap {β : Type u} (l : List β) (f : β → List Entry) (series : Series) :
    values (ofEntries (l.flatMap f)) series =
      l.flatMap fun x => values (ofEntries (f x)) series := by
  induction l with
  | nil => rfl
  | cons x l ih => simp [ih]

theorem total_flatMap {β : Type u} (l : List β) (f : β → List Entry) (series : Series) :
    total (ofEntries (l.flatMap f)) series =
      (l.map fun x => total (ofEntries (f x)) series).sum := by
  induction l with
  | nil => rfl
  | cons x l ih => simp [ih]

variable {σ ε : Type} {ι : Type u} {turn : σ → ι → Turn σ ε}

theorem values_run (s : σ) (ops : List ι) (series : Series) :
    values (ofEntries (Turn.run turn s ops).entries) series =
      (Turn.trail turn s ops).flatMap fun x =>
        values (ofEntries (turn x.1 x.2).entries) series := by
  rw [Turn.run_entries, values_flatMap]

theorem total_run (s : σ) (ops : List ι) (series : Series) :
    total (ofEntries (Turn.run turn s ops).entries) series =
      ((Turn.trail turn s ops).map fun x =>
        total (ofEntries (turn x.1 x.2).entries) series).sum := by
  rw [Turn.run_entries, total_flatMap]

/-- Of each segment that is obtained, the size is recorded. -/
theorem total_segmentsAllocated (entries : List Entry) (cls : SegmentClass) :
    total (ofEntries entries) ⟨.segmentsAllocated, some cls⟩ =
      (values (ofEntries entries) ⟨.segmentBytesAllocated, some cls⟩).length := by
  induction entries with
  | nil => rfl
  | cons e entries ih =>
      rw [← List.singleton_append, ofEntries_append, total_append, values_append,
        List.length_append, ih]
      congr 1
      cases e with
      | allocated cls' _ _ => cases cls <;> cases cls' <;> rfl
      | _ => rfl

/-! ## What is read of a metric -/

/-- The double that stands for a number has 53 bits in front of its unit in the last place,
and is off by half of that unit at most. -/
theorem nearestDouble_near (n : Nat) :
    ∃ m ≤ 2 ^ 53, nearestDouble n = m * 2 ^ (n.log2 + 1 - 53) ∧
      2 * nearestDouble n ≤ 2 * n + 2 ^ (n.log2 + 1 - 53) ∧
      2 * n ≤ 2 * nearestDouble n + 2 ^ (n.log2 + 1 - 53) := by
  have hunit : 1 <<< (n.log2 + 1 - 53) = 2 ^ (n.log2 + 1 - 53) := Nat.one_shiftLeft _
  have hbits : n / 2 ^ (n.log2 + 1 - 53) < 2 ^ 53 := by
    rw [Nat.div_lt_iff_lt_mul (Nat.two_pow_pos _), ← Nat.pow_add]
    exact Nat.lt_of_lt_of_le Nat.lt_log2_self (Nat.pow_le_pow_right (by decide) (by omega))
  have hsplit := Nat.div_add_mod' n (2 ^ (n.log2 + 1 - 53))
  have hrest := Nat.mod_lt n (Nat.two_pow_pos (n.log2 + 1 - 53))
  rw [nearestDouble, hunit]
  generalize 2 ^ (n.log2 + 1 - 53) = unit at *
  split
  · refine ⟨n / unit + 1, hbits, rfl, ?_, ?_⟩ <;> rw [Nat.add_mul] <;> omega
  · refine ⟨n / unit, Nat.le_of_lt hbits, rfl, ?_, ?_⟩ <;> omega

theorem nearestDouble_of_lt {n : Nat} (h : n < 2 ^ 53) : nearestDouble n = n := by
  have hbits : n.log2 + 1 - 53 = 0 := by
    by_cases hzero : n = 0
    · rw [hzero]
      rfl
    · have hlog := (Nat.log2_lt hzero).2 h
      omega
  obtain ⟨_, _, _, hupper, hlower⟩ := nearestDouble_near n
  rw [hbits] at hupper hlower
  omega

theorem toNat_recorded {n : Nat} (h : n < 2 ^ 53) : (recorded n).toNat = n := by
  have hword : n ≤ UInt64.size - 1 := Nat.le_trans (Nat.le_of_lt h) (by decide)
  rw [recorded, nearestDouble_of_lt h, Nat.min_eq_left hword]
  exact UInt64.toNat_ofNat_of_lt' (Nat.lt_of_le_of_lt hword (by decide))

/-- A counter shows its total as far as that is a word, and a histogram shows what was
recorded in it as far as doubles can. -/
inductive Shows (samples : List Sample) (series : Series) : Reading → Prop
  | count (w : UInt64) (h : w.toNat = total samples series % UInt64.size) :
      Shows samples series (.count w)
  | values (ws : List UInt64)
      (h : List.Forall₂ (fun n w => n < 2 ^ 53 → w.toNat = n) (values samples series) ws) :
      Shows samples series (.values ws)

theorem read_shows (samples : List Sample) (series : Series) :
    Shows samples series (read samples series) := by
  rw [read]
  split
  · refine .values _ ?_
    rw [List.forall₂_map_right_iff, List.forall₂_same]
    exact fun n _ => toNat_recorded
  · exact .count _ (UInt64.toNat_ofNat' ..)

/-- There is one reading for each series that was ever added to, and it shows what was. -/
theorem readings_show (samples : List Sample) (series : Series) (reading : Reading) :
    ((series, reading) ∈ readings samples ↔
      (∃ x ∈ samples, x.series = series) ∧ reading = read samples series) ∧
    ((series, reading) ∈ readings samples → Shows samples series reading) := by
  have hmem : (series, reading) ∈ readings samples ↔
      (∃ x ∈ samples, x.series = series) ∧ reading = read samples series := by
    simp only [readings, List.mem_map, List.mem_eraseDups, Prod.mk.injEq]
    constructor
    · rintro ⟨_, hseries, rfl, rfl⟩
      exact ⟨hseries, rfl⟩
    · rintro ⟨hseries, rfl⟩
      exact ⟨series, hseries, rfl, rfl⟩
  refine ⟨hmem, fun h => ?_⟩
  rw [(hmem.1 h).2]
  exact read_shows samples series

end Metrics

/-! ## Reads -/

/-- A read of segments. -/
inductive Query : Type 1
  | bytes (s : Segments) (a : Address)
  | onto (s : Segments) (a : Address) (buffer : List UInt8)
  | values (β : Type) [Packed β] (s : Segments) (a : Address)
  | payload (b : Batch) (u : Update)
  | variations (b : Batch) (u : Update)

namespace Query

/-- Where the read looks. Some records lead nowhere. -/
def address? : Query → Option Address
  | bytes _ a | onto _ a _ | values _ _ a => some a
  | payload _ u => u.address?
  | variations _ (.addFontInstance _ _ _ _ _ a) => some a
  | variations _ _ => none

/-- Whether a read succeeds, and what it reports. -/
def outcome : Query → Bool × List Entry
  | bytes s a => ((s.read a).1.isOk, (s.read a).2)
  | onto s a buffer => ((s.readOnto a buffer).answer.isOk, (s.readOnto a buffer).entries)
  | values β s a => ((s.readValues β a).1.isOk, (s.readValues β a).2)
  | payload b u => ((b.payload u).1.isOk, (b.payload u).2)
  | variations b u => ((b.variations u).1.isOk, (b.variations u).2)

def entries (r : Query) : List Entry := r.outcome.2

/-- The read looks into a segment of the class, and fails. -/
def refused (cls : SegmentClass) (r : Query) : Bool :=
  !r.outcome.1 && r.address?.any (·.cls = cls)

variable {s : Segments} {a : Address}

theorem outcome_onto (buffer : List UInt8) : outcome (onto s a buffer) = outcome (bytes s a) := by
  rw [outcome, outcome, Segments.readOnto]
  rcases s.read a with ⟨_ | _, _⟩ <;> rfl

theorem outcome_payload {b : Batch} {u : Update} (h : u.address? = some a) :
    outcome (payload b u) = outcome (bytes b.segments a) := by
  simp only [outcome, Batch.payload, h]
  rcases b.segments.read a with ⟨_ | _, _⟩ <;> rfl

/-- A read succeeds and has nothing to report, or it reports once what it failed for. -/
inductive Reports (r : Query) : Prop
  | nothing (h : r.outcome = (true, []))
  | refusal (a : Address) (cause : AddressFault) (haddress : r.address? = some a)
      (h : r.outcome = (false, [.readRejected a cause]))

theorem reports_reported {β : Type} {r : Query} (x : Except AddressFault β)
    (haddress : r.address? = some a)
    (h : r.outcome = ((Segments.reported a x).1.isOk, (Segments.reported a x).2)) : r.Reports := by
  cases x with
  | ok _ => exact .nothing h
  | error cause => exact .refusal a cause haddress h

theorem reports (r : Query) : r.Reports := by
  cases r with
  | bytes s a => exact reports_reported (s.resolve a) rfl rfl
  | onto s a buffer => exact reports_reported (s.resolve a) rfl (outcome_onto buffer)
  | values β s a => exact reports_reported (s.resolveValues β a) rfl rfl
  | payload b u =>
      cases haddress : u.address? with
      | none => exact .nothing (by rw [outcome, Batch.payload, haddress]; rfl)
      | some a =>
          exact reports_reported (b.segments.resolve a) haddress (outcome_payload haddress)
  | variations b u =>
      cases u with
      | addFontInstance _ _ _ _ _ a =>
          exact reports_reported (b.segments.resolveValues FontVariation a) rfl rfl
      | _ => exact .nothing rfl

theorem total_readFailures (r : Query) (cls : SegmentClass) :
    Metrics.total (Metrics.ofEntries r.entries) ⟨.readFailures, some cls⟩ =
      if r.refused cls then 1 else 0 := by
  cases r.reports with
  | nothing h =>
      rw [entries, refused, h]
      rfl
  | refusal a cause haddress h =>
      rw [entries, refused, h, haddress]
      cases cls <;> cases hcls : a.cls <;> simp [Metrics.total, Metrics.values,
        Metrics.ofEntries, Entry.samples, Sample.readFailure, Sample.ofClass, hcls]

/-- Nothing but the failures of reads is counted. -/
theorem values_entries (r : Query) {metric : Metric} {cls : Option SegmentClass}
    (h : metric ≠ .readFailures) :
    Metrics.values (Metrics.ofEntries r.entries) ⟨metric, cls⟩ = [] := by
  cases r.reports with
  | nothing h =>
      rw [entries, h]
      rfl
  | refusal a cause _ hr =>
      rw [entries, hr]
      simp [Metrics.values, Metrics.ofEntries, Entry.samples, Sample.readFailure,
        Sample.ofClass, h.symm]

end Query

theorem Metrics.total_queries (reads : List Query) (cls : SegmentClass) :
    total (ofEntries (reads.flatMap Query.entries)) ⟨.readFailures, some cls⟩ =
      reads.countP (·.refused cls) := by
  rw [total_flatMap, ← sum_map_ite]
  simp only [Query.total_readFailures]

theorem Metrics.values_queries (reads : List Query) {metric : Metric}
    {cls : Option SegmentClass} (h : metric ≠ .readFailures) :
    values (ofEntries (reads.flatMap Query.entries)) ⟨metric, cls⟩ = [] := by
  rw [values_flatMap, List.flatMap_eq_nil_iff]
  exact fun r _ => r.values_entries h

/-- Reads that follow add to nothing but the failures of reads. -/
theorem Metrics.values_before (entries : List Entry) (reads : List Query) {metric : Metric}
    {cls : Option SegmentClass} (h : metric ≠ .readFailures) :
    values (ofEntries (entries ++ reads.flatMap Query.entries)) ⟨metric, cls⟩ =
      values (ofEntries entries) ⟨metric, cls⟩ := by
  rw [ofEntries_append, values_append, values_queries reads h, List.append_nil]

theorem Metrics.total_before (entries : List Entry) (reads : List Query) {metric : Metric}
    {cls : Option SegmentClass} (h : metric ≠ .readFailures) :
    total (ofEntries (entries ++ reads.flatMap Query.entries)) ⟨metric, cls⟩ =
      total (ofEntries entries) ⟨metric, cls⟩ :=
  congrArg List.sum (values_before entries reads h)

/-! ## What the metrics are weighed against -/

/-- The bytes that an address of the class leads to. -/
def Address.bytesIn (cls : SegmentClass) (a : Address) : Nat :=
  if a.cls = cls then a.length.toNat else 0

/-- The addresses of empty payloads add nothing. -/
theorem Address.sum_bytesIn (cls : SegmentClass) (addresses : List Address) :
    (addresses.map (bytesIn cls)).sum =
      ((addresses.filter fun a => a.cls = cls ∧ ¬ a.isEmpty).map (·.length.toNat)).sum := by
  induction addresses with
  | nil => rfl
  | cons a addresses ih =>
      rw [List.map_cons, List.sum_cons, ih, bytesIn]
      by_cases hcls : a.cls = cls
      · cases hempty : a.isEmpty with
        | true => simp [hcls, hempty, Address.isEmpty_iff.1 hempty]
        | false => simp [hcls, hempty]
      · simp [hcls]

/-- What a request of this size is for, where chunks are `c` bytes long. -/
def SegmentClass.ofSize (c : Nat) (size : UInt64) : SegmentClass :=
  if size.toNat ≤ c then .small else .large

/-- The number of requests on behalf of a class. -/
def requestsFor (c : Nat) (cls : SegmentClass) (sizes : List UInt64) : Nat :=
  sizes.countP fun size => SegmentClass.ofSize c size = cls

theorem requestsFor_concat (c : Nat) (cls : SegmentClass) (sizes : List UInt64) (size : UInt64) :
    requestsFor c cls (sizes ++ [size]) =
      requestsFor c cls sizes + if SegmentClass.ofSize c size = cls then 1 else 0 := by
  simp [requestsFor, List.countP_append, List.countP_singleton]

/-- The metrics of a class are those of what was done on its behalf: of the payloads at
these addresses, of the requests for segments of these sizes, and of these reads. -/
structure ClassBalance (samples : List Sample) (c : Nat) (cls : SegmentClass)
    (addresses : List Address) (sizes : List UInt64) (reads : List Query) : Prop where
  written : Metrics.total samples ⟨.bytesWritten, some cls⟩ =
    ((addresses.filter fun a => a.cls = cls ∧ ¬ a.isEmpty).map (·.length.toNat)).sum
  requested : Metrics.total samples ⟨.segmentsAllocated, some cls⟩ +
    Metrics.total samples ⟨.allocationFailures, some cls⟩ = requestsFor c cls sizes
  refused : Metrics.total samples ⟨.readFailures, some cls⟩ = reads.countP (·.refused cls)

/-- No segment of the class was obtained but these. -/
structure SegmentBalance (samples : List Sample) (cls : SegmentClass)
    (segments : List Segment) : Prop where
  count : Metrics.total samples ⟨.segmentsAllocated, some cls⟩ = segments.length
  bytes : Metrics.total samples ⟨.segmentBytesAllocated, some cls⟩ =
    (segments.map Segment.size).sum

/-- The sizes of the segments of a class. -/
def Segments.sizes (s : Segments) (cls : SegmentClass) : List Nat :=
  (s.ofClass cls).map Segment.size

/-- What is recorded of the segments that were obtained tells their number and their size. -/
theorem segmentBalance_of_values {entries : List Entry} {cls : SegmentClass}
    {lists : List Segments}
    (h : ∀ w : Nat → Nat,
      ((Metrics.values (Metrics.ofEntries entries)
        ⟨.segmentBytesAllocated, some cls⟩).map w).sum =
      (lists.map fun s => ((s.sizes cls).map w).sum).sum) (reads : List Query) :
    SegmentBalance (Metrics.ofEntries (entries ++ reads.flatMap Query.entries)) cls
      (lists.flatMap (·.ofClass cls)) where
  count := by
    have hcount := h fun _ => 1
    simp only [List.map_const', List.sum_replicate_nat, Nat.mul_one, Segments.sizes,
      List.length_map] at hcount
    rw [Metrics.total_before entries reads (by decide), Metrics.total_segmentsAllocated, hcount,
      List.length_flatMap]
  bytes := by
    have hbytes := h id
    simp only [List.map_id, Segments.sizes] at hbytes
    rw [Metrics.total_before entries reads (by decide), sum_map_flatMap, ← hbytes]
    rfl

theorem classBalance_of_run {entries : List Entry} {c : Nat} {cls : SegmentClass}
    {addresses : List Address} {sizes : List UInt64}
    (hwritten : Metrics.total (Metrics.ofEntries entries) ⟨.bytesWritten, some cls⟩ =
      (addresses.map (Address.bytesIn cls)).sum)
    (hrequested : Metrics.total (Metrics.ofEntries entries) ⟨.segmentsAllocated, some cls⟩ +
      Metrics.total (Metrics.ofEntries entries) ⟨.allocationFailures, some cls⟩ =
        requestsFor c cls sizes)
    (hrefused : Metrics.values (Metrics.ofEntries entries) ⟨.readFailures, some cls⟩ = [])
    (reads : List Query) :
    ClassBalance (Metrics.ofEntries (entries ++ reads.flatMap Query.entries)) c cls addresses
      sizes reads where
  written := by
    rw [Metrics.total_before entries reads (by decide), hwritten, Address.sum_bytesIn]
  requested := by
    rw [Metrics.total_before entries reads (by decide),
      Metrics.total_before entries reads (by decide), hrequested]
  refused := by
    rw [Metrics.ofEntries_append, Metrics.total_append, Metrics.total_of_values hrefused,
      Metrics.total_queries]
    exact Nat.zero_add _

end Parcel
