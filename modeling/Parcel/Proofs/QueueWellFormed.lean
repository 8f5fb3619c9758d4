import Parcel.Proofs.PackerGuarded
import Parcel.Proofs.PackerLayout
import Parcel.Proofs.PixelBounds
import Parcel.Proofs.QueueRoundTrip

/-!
# Flushed batches are well formed

A consumer that trusts the queue reads a batch without checking anything: it
takes the segment that an address names, and the bytes of pixels by the numbers
of the descriptor. What it relies on is `Change.WellFormed`. The address of each
record sits where a payload can lie (`Address.Sits`), and a record whose payload
has a shape has an address that is long enough for it (`Change.Shaped`).

Both are settled when the record is made, by the check of the request and by the
place that the packer chose, and nothing that happens later to the packer spoils
them, for its lists only grow until the next flush. Large segments are besides
numbered in the order of their records (`Orderly.numbered`): whatever gets a
large segment also gets a record, so that no two records share one.
-/

namespace Parcel

namespace Address

/-- Where the payload of a record can lie, if chunks have `c` bytes. -/
inductive Sits (c : Nat) (s : Segments) (a : Address) : Prop
  | empty (hempty : a = .empty)
  | small (hcls : a.cls = .small) (hindex : a.index.toNat < s.small.length)
      (hlength : 1 ≤ a.length.toNat) (hstop : a.offset.toNat + a.length.toNat ≤ c)
  | large (hcls : a.cls = .large) (hindex : a.index.toNat < s.large.length)
      (hoffset : a.offset = 0) (hlength : c < a.length.toNat)

def largeIndex? (a : Address) : Option Nat :=
  match a.cls with
  | .small => none
  | .large => some a.index.toNat

theorem Sits.mono {c : Nat} {s t : Segments} {a : Address} (h : a.Sits c s)
    (hlists : ∀ cls, (s.ofClass cls).length ≤ (t.ofClass cls).length) : a.Sits c t := by
  cases h with
  | empty hempty => exact .empty hempty
  | small hcls hindex hlength hstop =>
      exact .small hcls (Nat.lt_of_lt_of_le hindex (hlists .small)) hlength hstop
  | large hcls hindex hoffset hlength =>
      exact .large hcls (Nat.lt_of_lt_of_le hindex (hlists .large)) hoffset hlength

end Address

/-! ## Where a write puts its payload -/

namespace Packer

variable {α : Type} [Allocator α] {p p' : Packer α}

/-- Opening a chunk may put one more segment on the list of the small ones. -/
theorem Opens.length_le {n : Nat} {chunk : Chunk} {entries : List Entry}
    (h : Opens p n p' chunk entries) (cls : SegmentClass) :
    (p.segments.ofClass cls).length ≤ (p'.segments.ofClass cls).length := by
  cases h with
  | roomy _ _ _ => exact Nat.le_refl _
  | fresh segment _ _ _ _ _ =>
      cases cls with
      | large => exact Nat.le_refl _
      | small =>
          show p.small.length ≤ (p.small ++ [segment]).length
          rw [List.length_append]
          exact Nat.le_add_right ..

theorem length_le_write (hp : p.Wf) (payload : List UInt8) (cls : SegmentClass) :
    (p.segments.ofClass cls).length ≤
      ((p.write payload).state.segments.ofClass cls).length := by
  have hwrites := write_writes p payload
  generalize p.write payload = o at hwrites
  cases hwrites with
  | empty _ => exact Nat.le_refl _
  | refused _ _ _ _ _ => exact Nat.le_refl _
  | placed p' chunk _ _ hfit hopen _ =>
      obtain ⟨_, hchunk, _⟩ := hopen.wf hp hfit
      exact Nat.le_trans (hopen.length_le cls) (Nat.le_of_eq (length_refilled hchunk cls).symm)
  | withdrawn p' chunk _ _ hfit hopen _ =>
      obtain ⟨_, hchunk, _⟩ := hopen.wf hp hfit
      exact Nat.le_trans (hopen.length_le cls) (Nat.le_of_eq (length_refilled hchunk cls).symm)
  | stored segment _ _ _ _ _ _ _ =>
      cases cls with
      | small => exact Nat.le_refl _
      | large =>
          show p.large.length ≤ (p.large ++ [_]).length
          rw [List.length_append]
          exact Nat.le_add_right ..

theorem large_of_write_error {payload : List UInt8} {fault : Fault}
    (h : (p.write payload).answer = .error fault) :
    (p.write payload).state.large = p.large := by
  have hwrites := write_writes p payload
  generalize p.write payload = o at hwrites h
  cases hwrites with
  | empty _ => cases h
  | refused _ _ _ _ _ => rfl
  | placed _ _ _ _ _ _ _ => cases h
  | withdrawn _ _ _ _ _ hopen _ => exact hopen.large
  | stored _ _ _ _ _ _ _ _ => cases h

/-- The address of a large payload has the next number. -/
theorem range_large_written {payload : List UInt8} {a : Address}
    (h : (p.write payload).answer = .ok a) :
    List.range (p.write payload).state.large.length =
      List.range p.large.length ++ a.largeIndex?.toList := by
  have hwrites := write_writes p payload
  generalize p.write payload = o at hwrites h
  cases hwrites with
  | empty _ =>
      cases h
      exact (List.append_nil _).symm
  | refused _ _ _ _ _ => cases h
  | withdrawn _ _ _ _ _ _ _ => cases h
  | placed p' _ _ _ _ hopen _ =>
      cases h
      show List.range p'.large.length = _ ++ []
      rw [hopen.large, List.append_nil]
  | stored segment _ _ _ _ hindex _ _ =>
      cases h
      show List.range (p.large ++ [_]).length = _ ++ [(UInt32.ofNat p.large.length).toNat]
      rw [List.length_append, List.length_singleton, List.range_succ,
        UInt32.toNat_ofNat_of_lt' hindex]

/-- The address of a payload sits at the end of its list, where the packer has just
put it, and the small ones end at the cursor. -/
theorem sits_written (hp : p.Wf) {payload : List UInt8} {a : Address}
    (h : (p.write payload).answer = .ok a) :
    a.Sits p.chunkSize.bytes (p.write payload).state.segments ∧
      a.length.toNat = payload.length := by
  have hlocated := located_of_written hp h
  have hcursor := (wf_write hp payload).cursor_le
  rw [chunkSize_write] at hcursor
  have hwrites := write_writes p payload
  generalize p.write payload = o at hlocated hcursor hwrites h
  cases hwrites with
  | empty hempty =>
      cases h
      exact ⟨.empty rfl, by rw [hempty]; rfl⟩
  | refused _ _ _ _ _ => cases h
  | withdrawn _ _ _ _ _ _ _ => cases h
  | placed p' chunk _ hne _ _ _ =>
      cases h
      have hpos := List.length_pos_of_ne_nil hne
      cases hlocated with
      | empty hempty _ => exact absurd hempty hne
      | small hcls hindex hoffset hlength =>
          refine ⟨.small hcls ?_ ?_ ?_, hlength⟩
          · exact Nat.lt_of_succ_le (Nat.le_of_eq hindex)
          · rw [hlength]
            exact hpos
          · rw [hlength, hoffset]
            exact hcursor
      | large hcls _ _ _ => cases hcls
  | stored segment _ _ hlong _ _ _ _ =>
      cases h
      cases hlocated with
      | empty hempty _ => simp [hempty] at hlong
      | small hcls _ _ _ => cases hcls
      | large hcls hindex hoffset hlength =>
          refine ⟨.large hcls ?_ hoffset ?_, hlength⟩
          · exact Nat.lt_of_succ_le (Nat.le_of_eq hindex)
          · rw [hlength]
            exact hlong

end Packer

/-! ## Records -/

namespace Change

def largeIndex? (u : Update) : Option Nat := u.address?.bind Address.largeIndex?

/-- No large segment belongs to both. -/
def LargeApart (u v : Update) : Prop :=
  ∀ i, u.largeIndex? = some i → v.largeIndex? ≠ some i

/-- A payload with a shape lies at an address that is long enough for it. -/
def Shaped : Update → Prop
  | .addImage _ descriptor address | .updateImage _ descriptor address =>
    descriptor.check = .ok () ∧ address.length ≠ 0 ∧
      descriptor.PixelsWithin address.length.toNat
  | .addBlobImage _ descriptor _ | .updateBlobImage _ descriptor _ => descriptor.check = .ok ()
  | .addFontInstance _ _ _ _ _ address => 8 ∣ address.length.toNat
  | _ => True

structure WellFormed (c : Nat) (s : Segments) (u : Update) : Prop where
  sits : ∀ a, u.address? = some a → a.Sits c s
  shaped : u.Shaped

theorem WellFormed.mono {c : Nat} {s t : Segments} {u : Update} (h : u.WellFormed c s)
    (hlists : ∀ cls, (s.ofClass cls).length ≤ (t.ofClass cls).length) : u.WellFormed c t where
  sits a ha := (h.sits a ha).mono hlists
  shaped := h.shaped

end Change

theorem ImageDescriptor.shaped_of_checkPayload {d : ImageDescriptor} {length : UInt32}
    (h : d.checkPayload length.toNat = .ok ()) :
    d.check = .ok () ∧ length ≠ 0 ∧ d.PixelsWithin length.toNat := by
  have hshort : length.toNat < UInt64.size - 1 :=
    Nat.lt_of_lt_of_le length.toNat_lt (by decide)
  obtain ⟨hgood, hspan⟩ := (d.checkPayload_ok_iff hshort).1 h
  have hwithin := (ImageDescriptor.pixelsWithin_iff hgood).2 hspan
  refine ⟨ImageDescriptor.check_ok_iff.2 hgood, ?_, hwithin⟩
  -- There is a first pixel, and it lies in the payload.
  rintro rfl
  exact Nat.not_lt_zero _ (hwithin 0 0 hgood.pos.1 hgood.pos.2)

/-- A request that passed its check leaves a record of the right shape, wherever its
payload was put. -/
theorem Request.shaped_record {r : Request} {a : Address} (hcheck : r.check = .ok ())
    (hlength : ∀ payload, r.payload? = some payload → a.length.toNat = payload.length) :
    (r.record a).Shaped := by
  cases r with
  | addImage _ d bytes =>
      rw [check, ← hlength bytes rfl] at hcheck
      exact ImageDescriptor.shaped_of_checkPayload hcheck
  | updateImage _ d bytes =>
      rw [check, ← hlength bytes rfl] at hcheck
      exact ImageDescriptor.shaped_of_checkPayload hcheck
  | addBlobImage _ _ _ => exact hcheck
  | updateBlobImage _ _ _ => exact hcheck
  | addFontInstance _ _ _ _ _ variations =>
      show 8 ∣ a.length.toNat
      rw [hlength _ rfl, Packed.length_packAll]
      exact Nat.dvd_mul_left 8 _
  | _ => trivial

theorem Request.wellFormed_record {r : Request} {a : Address} {c : Nat} {s : Segments}
    (hcheck : r.check = .ok ())
    (hplace : ∀ payload, r.payload? = some payload →
      a.Sits c s ∧ a.length.toNat = payload.length) : (r.record a).WellFormed c s where
  sits a' ha' := by
    rw [address?_record] at ha'
    obtain ⟨payload, hpayload, rfl⟩ := Option.map_eq_some_iff.1 ha'
    exact (hplace payload hpayload).1
  shaped := shaped_record hcheck fun payload hpayload => (hplace payload hpayload).2

theorem Request.largeIndex?_record (r : Request) (a : Address) :
    (r.record a).largeIndex? = r.payload?.bind fun _ => a.largeIndex? := by
  cases r <;> rfl

theorem Change.filterMap_largeIndex?_concat (us : List Update) (u : Update) :
    (us ++ [u]).filterMap largeIndex? = us.filterMap largeIndex? ++ u.largeIndex?.toList := by
  rw [List.filterMap_append]
  cases hindex : u.largeIndex? <;> simp [hindex]

namespace Queue

variable {α : Type}

/-- What holds of a queue with chunks of `c` bytes at all times. -/
structure Orderly (c : Nat) (q : Queue α) : Prop where
  wf : q.packer.Wf
  chunk : q.packer.chunkSize.bytes = c
  records : ∀ u ∈ q.pending, u.WellFormed c q.packer.segments
  numbered : q.pending.filterMap Change.largeIndex? = List.range q.packer.large.length

theorem orderly_emptied {p : Packer α} {c : Nat} (h : p.chunkSize.bytes = c) :
    Orderly c (⟨p.emptied, []⟩ : Queue α) where
  wf := Packer.wf_emptied p
  chunk := h
  records u hu := by cases hu
  numbered := rfl

variable [Allocator α] {c : Nat} {q : Queue α}

/-- A write spoils no record, however it ends. -/
theorem Orderly.write (h : Orderly c q) (payload : List UInt8) :
    (q.packer.write payload).state.Wf ∧ (q.packer.write payload).state.chunkSize.bytes = c ∧
      ∀ u ∈ q.pending, u.WellFormed c (q.packer.write payload).state.segments := by
  refine ⟨Packer.wf_write h.wf payload, ?_, fun u hu => ?_⟩
  · rw [Packer.chunkSize_write]
    exact h.chunk
  · exact (h.records u hu).mono (Packer.length_le_write h.wf payload)

theorem orderly_submit (h : Orderly c q) (r : Request) : Orderly c (q.submit r).state := by
  have hsubmits := submit_submits q r
  generalize q.submit r = o at hsubmits
  cases hsubmits with
  | invalid _ _ => exact h
  | unwritten payload _ _ _ hanswer =>
      -- The packer may have closed a chunk, but a large segment stays only if it was filled.
      obtain ⟨hwf, hchunk, hrecords⟩ := h.write payload
      refine ⟨hwf, hchunk, hrecords, ?_⟩
      show q.pending.filterMap _ = List.range (q.packer.write payload).state.large.length
      rw [Packer.large_of_write_error hanswer, h.numbered]
  | written payload a hcheck hpayload hanswer =>
      have hplace := Packer.sits_written h.wf hanswer
      rw [h.chunk] at hplace
      have hrecord : (r.record a).WellFormed c (q.packer.write payload).state.segments := by
        refine Request.wellFormed_record hcheck fun payload' hpayload' => ?_
        rw [hpayload] at hpayload'
        cases hpayload'
        exact hplace
      -- The record joins the list together with the large segment that it may have got.
      obtain ⟨hwf, hchunk, hrecords⟩ := h.write payload
      refine ⟨hwf, hchunk, ?_, ?_⟩
      · exact List.forall_mem_append.2 ⟨hrecords, List.forall_mem_singleton.2 hrecord⟩
      · rw [Change.filterMap_largeIndex?_concat, Request.largeIndex?_record, hpayload, h.numbered]
        exact (Packer.range_large_written hanswer).symm
  | bare hcheck hpayload =>
      have hrecord : (r.record .empty).WellFormed c q.packer.segments := by
        refine Request.wellFormed_record hcheck fun payload hpayload' => ?_
        rw [hpayload] at hpayload'
        cases hpayload'
      refine ⟨h.wf, h.chunk, ?_, ?_⟩
      · exact List.forall_mem_append.2 ⟨h.records, List.forall_mem_singleton.2 hrecord⟩
      · rw [Change.filterMap_largeIndex?_concat, Request.largeIndex?_record, hpayload, h.numbered]
        exact List.append_nil _

theorem orderly_turn (h : Orderly c q) (op : Op) : Orderly c (q.turn op).state := by
  cases op with
  | submit r => exact orderly_submit h r
  | flush => exact orderly_emptied h.chunk
  | clear => exact orderly_emptied h.chunk

theorem orderly_run {allocator : α} {config : QueueConfig}
    (hq : ofConfig allocator config = .ok q) (ops : List Op) :
    Orderly config.chunkSize.toNat (q.run ops).state := by
  obtain ⟨hpending, hpacker⟩ := new_of_ofConfig hq
  have hnew : Orderly config.chunkSize.toNat q := by
    have hemptied := orderly_emptied (Packer.chunkSize_of_ofSize hpacker)
    rwa [Packer.emptied_of_ofSize hpacker, ← hpending] at hemptied
  exact Turn.run_invariant (P := Orderly config.chunkSize.toNat)
    (fun _ op h => orderly_turn h op) hnew ops

omit [Allocator α] in
theorem Orderly.large_apart (h : Orderly c q) : q.pending.Pairwise Change.LargeApart := by
  have hnodup : (q.pending.filterMap Change.largeIndex?).Nodup := by
    rw [h.numbered]
    exact List.nodup_range
  refine (List.pairwise_filterMap.1 hnodup).imp ?_
  intro u v hdistinct i hu hv
  exact hdistinct i hu i hv rfl

omit [Allocator α] in
/-- What the packer holds for a record is as long as its address says. -/
theorem Promised.resolves {rs : List Request} (h : Promised rs q) {u : Update}
    (hu : u ∈ q.pending) {a : Address} (ha : u.address? = some a) :
    ∃ bytes, q.packer.segments.resolve a = .ok bytes ∧ bytes.length = a.length.toNat := by
  obtain ⟨i, hi, rfl⟩ := List.getElem_of_mem hu
  have hlength := h.keeps.length_eq
  obtain ⟨a', hrecord, hholds⟩ := h.keeps.get (hlength ▸ hi) hi
  rw [List.get_eq_getElem] at hrecord
  rw [hrecord, Request.address?_record] at ha
  obtain ⟨payload, hpayload, rfl⟩ := Option.map_eq_some_iff.1 ha
  have hpacked := hholds payload hpayload
  exact ⟨payload, hpacked.resolve, hpacked.names.covers.length⟩

/-- Every record of a batch is well formed, its address resolves in the segments of
the batch to as many bytes as it says, and no two records share a large segment. -/
theorem flushed_batch_wellFormed {allocator : α} {config : QueueConfig} {ops : List Op}
    {before after : List Event} {b : Batch} (hq : ofConfig allocator config = .ok q)
    (hrun : (q.run ops).events = before ++ .flushed b :: after) :
    (∀ u ∈ b.updates, u.WellFormed config.chunkSize.toNat b.segments ∧
      ∀ a, u.address? = some a →
        ∃ bytes, b.segments.resolve a = .ok bytes ∧ bytes.length = a.length.toNat) ∧
    b.updates.Pairwise Change.LargeApart := by
  rw [run] at hrun
  obtain ⟨ops₁, op, ops₂, -, -, hflushed, -⟩ := Turn.run_split hrun
  have horderly := orderly_run hq ops₁
  have hpromised := promised_run hq ops₁
  rw [run] at horderly hpromised
  rw [batch_of_flushed hflushed]
  refine ⟨fun u hu => ⟨horderly.records u hu, fun a ha => ?_⟩, horderly.large_apart⟩
  exact hpromised.resolves hu ha

/-- A font in a small segment, an image in a large one, and one that had to do without. -/
theorem flushed_batch_wellFormed_stuttering :
    ∃ q b, ofConfig Packer.stuttering ⟨4⟩ = .ok q ∧
      (q.run [.submit (.addFont ⟨1, 2⟩ [1, 2, 3] 7), .submit (.addFont ⟨1, 3⟩ [4, 5] 0),
          .submit (.addImage ⟨1, 4⟩ ⟨.r8, 2, 2, none, 1, {}⟩ [6, 7, 8, 9, 10]), .flush]).events =
        [.submitted (.addFont ⟨1, 2⟩ [1, 2, 3] 7) (.ok ()),
          .submitted (.addFont ⟨1, 3⟩ [4, 5] 0) (.error (.allocation (.other "none left"))),
          .submitted (.addImage ⟨1, 4⟩ ⟨.r8, 2, 2, none, 1, {}⟩ [6, 7, 8, 9, 10]) (.ok ()),
          .flushed b] ∧
      ∀ u ∈ b.updates, u.WellFormed 4 b.segments := by
  refine ⟨_, _, rfl, rfl, fun u hu => ?_⟩
  exact ((@flushed_batch_wellFormed _ _ _ Packer.stuttering ⟨4⟩
    [.submit (.addFont ⟨1, 2⟩ [1, 2, 3] 7), .submit (.addFont ⟨1, 3⟩ [4, 5] 0),
      .submit (.addImage ⟨1, 4⟩ ⟨.r8, 2, 2, none, 1, {}⟩ [6, 7, 8, 9, 10]), .flush]
    [_, _, _] [] _ rfl rfl).1 u hu).1

end Queue

end Parcel
