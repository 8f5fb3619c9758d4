import Mathlib.Data.List.Nodup
import Parcel.Proofs.PackerWritable
import Parcel.Proofs.QueueWellFormed

/-!
# No segment without a record

Segments are costly, and a consumer maps every one that it is sent. None should
be in a batch that no record leads to. A large segment never is: it joins the
list with the payload that it was obtained for, and the record follows
(`Orderly.countP_liesIn`). A small segment joins the list empty, and it is the
payload put there next that gives it its record (`fresh_small_written`). Between
the two the write can only fail if the segment goes back on the access that it
has granted, so that over a steady allocator the gap is closed
(`Justified`).

What is left when nothing is pending is then nothing at all, and the queue is
empty just when its list of records is (`Justified.isEmpty_iff`).
-/

namespace Parcel

/-- The record leads to at least one byte of the `i`-th segment of the class. -/
def Change.LiesIn (cls : SegmentClass) (i : Nat) (u : Update) : Bool :=
  match u.address? with
  | none => false
  | some a => a.cls == cls && a.index.toNat == i && a.length != 0

theorem Request.liesIn_record {r : Request} {payload : List UInt8} {a : Address}
    {cls : SegmentClass} {i : Nat} (hpayload : r.payload? = some payload) (hcls : a.cls = cls)
    (hindex : a.index.toNat = i) (hlength : a.length ≠ 0) : (r.record a).LiesIn cls i = true := by
  simp [Change.LiesIn, address?_record, hpayload, hcls, hindex, hlength]

/-- Large addresses are never empty. -/
theorem Change.WellFormed.liesIn_large_iff {c i : Nat} {s : Segments} {u : Update}
    (h : u.WellFormed c s) : u.LiesIn .large i = true ↔ (u.largeIndex? == some i) = true := by
  cases haddress : u.address? with
  | none => simp [LiesIn, largeIndex?, haddress]
  | some a =>
      cases h.sits a haddress with
      | empty hempty => simp [LiesIn, largeIndex?, haddress, hempty, Address.empty,
          Address.inSmall, Address.largeIndex?]
      | small hcls _ _ _ => simp [LiesIn, largeIndex?, haddress, hcls, Address.largeIndex?]
      | large hcls _ _ hlength =>
          have hne : a.length ≠ 0 := by
            intro hzero
            rw [hzero] at hlength
            exact Nat.not_lt_zero _ hlength
          simp [LiesIn, largeIndex?, haddress, hcls, hne, Address.largeIndex?]

namespace Packer

variable {α : Type} [Allocator α] {p : Packer α} {payload : List UInt8}

/-- A small segment that was not in the list before a write is the one that the write
put its payload in. -/
theorem fresh_small_written (hp : p.Wf) {a : Address} (h : (p.write payload).answer = .ok a)
    {i : Nat} (hnew : p.small.length ≤ i) (hi : i < (p.write payload).state.small.length) :
    a.cls = .small ∧ a.index.toNat = i ∧ a.length ≠ 0 := by
  have hlength := (sits_written hp h).2
  have hwrites := write_writes p payload
  generalize p.write payload = o at hwrites h hi
  cases hwrites with
  | empty _ => exact absurd hi (Nat.not_lt_of_le hnew)
  | refused _ _ _ _ _ => cases h
  | withdrawn _ _ _ _ _ _ _ => cases h
  | stored _ _ _ _ _ _ _ _ => exact absurd hi (Nat.not_lt_of_le hnew)
  | placed p' chunk _ hne hfit hopen _ =>
      cases h
      obtain ⟨_, hchunk, _⟩ := hopen.wf hp hfit
      have hi' : i < p'.small.length := Nat.lt_of_lt_of_eq hi (length_refilled hchunk .small)
      refine ⟨rfl, ?_, fun hzero => ?_⟩
      · cases hopen with
        | roomy _ _ _ => exact absurd hi' (Nat.not_lt_of_le hnew)
        | fresh segment _ _ _ hbound _ =>
            have hlast : i < (p.small ++ [segment]).length := hi'
            rw [List.length_append, List.length_singleton] at hlast
            show (UInt32.ofNat p.small.length).toNat = i
            rw [UInt32.toNat_ofNat_of_lt' hbound]
            omega
      · rw [hzero] at hlength
        exact hne (List.eq_nil_of_length_eq_zero hlength.symm)

end Packer

namespace Queue

variable {α : Type}

/-- In a queue that has a record for each large segment, no large segment has two. -/
theorem Orderly.countP_liesIn {c : Nat} {q : Queue α} (h : Orderly c q) {i : Nat}
    (hi : i < q.packer.large.length) : q.pending.countP (·.LiesIn .large i) = 1 := by
  have hrange : i ∈ q.pending.filterMap Change.largeIndex? := by
    rw [h.numbered]
    exact List.mem_range.2 hi
  have hnodup : (q.pending.filterMap Change.largeIndex?).Nodup := by
    rw [h.numbered]
    exact List.nodup_range
  have hcount := List.count_eq_one_of_mem hnodup hrange
  rw [List.count_filterMap] at hcount
  rw [← hcount]
  exact List.countP_congr fun u hu => (h.records u hu).liesIn_large_iff

variable [Allocator α]

/-- Each small segment has a record, and none will be added without one. -/
structure Justified (q : Queue α) : Prop where
  writable : q.packer.Writable
  small : ∀ i < q.packer.small.length, ∃ u ∈ q.pending, u.LiesIn .small i = true

variable {q : Queue α} {c : Nat}

theorem justified_emptied {p : Packer α} (h : Allocator.Steady p.allocator) :
    Justified (⟨p.emptied, []⟩ : Queue α) where
  writable := Packer.writable_emptied h
  small i hi := absurd hi (Nat.not_lt_zero i)

theorem justified_submit (hq : Orderly c q) (h : Justified q) (r : Request) :
    Justified (q.submit r).state := by
  have hsubmits := submit_submits q r
  generalize q.submit r = o at hsubmits
  cases hsubmits with
  | invalid _ _ => exact h
  | unwritten payload _ _ _ hanswer =>
      -- A write that failed has opened no chunk, since no chunk would have refused the payload.
      refine ⟨Packer.writable_write h.writable payload, ?_⟩
      obtain ⟨allocator, entries, -, hwrite⟩ := h.writable.write_error hanswer
      rw [hwrite]
      exact h.small
  | written payload a _ hpayload hanswer =>
      refine ⟨Packer.writable_write h.writable payload, fun i hi => ?_⟩
      rcases Nat.lt_or_ge i q.packer.small.length with hold | hnew
      · obtain ⟨u, hu, hlies⟩ := h.small i hold
        exact ⟨u, List.mem_append_left _ hu, hlies⟩
      · obtain ⟨hcls, hindex, hlength⟩ := Packer.fresh_small_written hq.wf hanswer hnew hi
        exact ⟨r.record a, List.mem_append_right _ List.mem_cons_self,
          Request.liesIn_record hpayload hcls hindex hlength⟩
  | bare _ _ =>
      refine ⟨h.writable, fun i hi => ?_⟩
      obtain ⟨u, hu, hlies⟩ := h.small i hi
      exact ⟨u, List.mem_append_left _ hu, hlies⟩

theorem justified_turn (hq : Orderly c q) (h : Justified q) (op : Op) :
    Justified (q.turn op).state := by
  cases op with
  | submit r => exact justified_submit hq h r
  | flush => exact justified_emptied h.writable.allocator
  | clear => exact justified_emptied h.writable.allocator

theorem justified_run {allocator : α} {config : QueueConfig}
    (hsteady : Allocator.Steady allocator) (hq : ofConfig allocator config = .ok q)
    (ops : List Op) : Justified (q.run ops).state := by
  obtain ⟨hpending, hpacker⟩ := new_of_ofConfig hq
  have hnew : Justified q := by
    rw [← Packer.allocator_of_ofSize hpacker] at hsteady
    have hemptied := justified_emptied hsteady
    rwa [Packer.emptied_of_ofSize hpacker, ← hpending] at hemptied
  have hstart : Orderly config.chunkSize.toNat q := orderly_run hq []
  exact (Turn.run_invariant
    (P := fun q => Orderly config.chunkSize.toNat q ∧ Justified q)
    (fun _ op h => ⟨orderly_turn h.1 op, justified_turn h.1 h.2 op⟩) ⟨hstart, hnew⟩ ops).2

/-- What is not pending holds no segment. -/
theorem Justified.isEmpty_iff (hq : Orderly c q) (h : Justified q) :
    q.isEmpty = true ↔ q.pending = [] := by
  refine ⟨fun hempty => ?_, fun hpending => ?_⟩
  · rw [isEmpty, Bool.and_eq_true] at hempty
    exact List.isEmpty_iff.1 hempty.1
  · have hsmall : q.packer.small = [] := by
      by_contra hne
      obtain ⟨u, hu, -⟩ := h.small 0 (List.length_pos_iff.2 hne)
      rw [hpending] at hu
      cases hu
    have hlarge : q.packer.large = [] := by
      have hnumbered := congrArg List.length hq.numbered
      rw [hpending, List.length_range] at hnumbered
      exact List.eq_nil_of_length_eq_zero hnumbered.symm
    simp [isEmpty, hpending, Packer.isEmpty, Packer.segments, Segments.isEmpty, hsmall, hlarge]

/-- Over a steady allocator a batch has no segment to spare: each small one holds the
payload of some record, and each large one that of just one record. No write finds
that it cannot fill a segment that it was given: a fault of segments is never
anything but the answer of the allocator. And a queue without records is empty. -/
theorem flushed_segments_justified {allocator : α} {config : QueueConfig}
    (hsteady : Allocator.Steady allocator) (hq : ofConfig allocator config = .ok q)
    (ops : List Op) :
    (∀ before b after, (q.run ops).events = before ++ .flushed b :: after →
      (∀ i < b.segments.small.length, ∃ u ∈ b.updates, u.LiesIn .small i = true) ∧
      ∀ i < b.segments.large.length, b.updates.countP (·.LiesIn .large i) = 1) ∧
    (∀ payload cause,
      ((q.run ops).state.packer.write payload).answer = .error (.segment cause) →
      ∃ cls size, ((q.run ops).state.packer.write payload).entries =
        [.allocationFailed cls size (.segment cause)]) ∧
    ((q.run ops).state.isEmpty = true ↔ (q.run ops).state.pending = []) := by
  refine ⟨fun before b after hrun => ?_, fun payload cause hfailed => ?_, ?_⟩
  · rw [run] at hrun
    obtain ⟨ops₁, op, ops₂, -, -, hflushed, -⟩ := Turn.run_split hrun
    have horderly := orderly_run hq ops₁
    have hjustified := justified_run hsteady hq ops₁
    rw [run] at horderly hjustified
    rw [batch_of_flushed hflushed]
    exact ⟨hjustified.small, fun i hi => horderly.countP_liesIn hi⟩
  · exact (justified_run hsteady hq ops).writable.write_segment_fault hfailed
  · exact (justified_run hsteady hq ops).isEmpty_iff (orderly_run hq ops)

/-- One request gets no chunk and leaves no trace; the one after it gets a chunk. -/
theorem flushed_segments_justified_stuttering :
    ∃ q b, ofConfig Packer.stuttering ⟨4⟩ = .ok q ∧
      (q.run [.submit (.addFont ⟨1, 2⟩ [1, 2, 3] 7), .submit (.addFont ⟨1, 3⟩ [4, 5] 0),
          .submit (.addFont ⟨1, 4⟩ [4, 5] 0), .submit (.addFont ⟨1, 5⟩ [6, 7, 8, 9, 10] 0),
          .flush]).events =
        [.submitted (.addFont ⟨1, 2⟩ [1, 2, 3] 7) (.ok ()),
          .submitted (.addFont ⟨1, 3⟩ [4, 5] 0) (.error (.allocation (.other "none left"))),
          .submitted (.addFont ⟨1, 4⟩ [4, 5] 0) (.ok ()),
          .submitted (.addFont ⟨1, 5⟩ [6, 7, 8, 9, 10] 0) (.ok ()), .flushed b] ∧
      b.segments.small.length = 2 ∧ b.segments.large.length = 1 ∧
      (∃ u ∈ b.updates, u.LiesIn .small 1 = true) ∧
      b.updates.countP (·.LiesIn .large 0) = 1 := by
  obtain ⟨q, hq⟩ : ∃ q, ofConfig Packer.stuttering ⟨4⟩ = .ok q := ⟨_, rfl⟩
  obtain ⟨hbatches, -⟩ := flushed_segments_justified Packer.steady_stuttering hq
    [.submit (.addFont ⟨1, 2⟩ [1, 2, 3] 7), .submit (.addFont ⟨1, 3⟩ [4, 5] 0),
      .submit (.addFont ⟨1, 4⟩ [4, 5] 0), .submit (.addFont ⟨1, 5⟩ [6, 7, 8, 9, 10] 0), .flush]
  cases hq
  obtain ⟨hsmall, hlarge⟩ := hbatches [_, _, _, _] _ [] rfl
  exact ⟨_, _, rfl, rfl, rfl, rfl, hsmall 1 (by decide), hlarge 0 (by decide)⟩

end Queue

end Parcel
