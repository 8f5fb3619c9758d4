import Mathlib.Data.List.Forall2
import Parcel.Proofs.QueueRun
import Parcel.Proofs.PackerRoundTrip

/-!
# A flushed batch answers for what was submitted

Between two flushes a queue makes one promise for each request that it accepts:
the next batch holds its record, at its place in the order of the calls, and
the record leads back to the payload. What that comes to for each kind of request
is spelled out in `Batch.Answers`. `waiting` sums up which promises are
open, from nothing but what the callers saw, and `Keeps` is what makes a promise
good: the record is that of the request, and the packer holds the payload where
the record says.

A request that is refused opens no promise and breaks none, for the packer keeps
what it holds even when it fails. The same induction therefore covers every
mixture of successes, failures, flushes and clears (`promised_run`), and a flush
turns each open promise into a record with the right answers
(`flushed_batch_answers`).
-/

namespace Parcel

namespace Batch

variable (b : Batch)

/-- What is read of a record: the bytes that it leads to, if any, and its axis values. -/
structure Shows (u : Update) (payload : Option (List UInt8)) (variations : List FontVariation) :
    Prop where
  payload : b.payload u = (.ok payload, [])
  variations : b.variations u = (.ok variations, [])

/-- A batch answers for a request with a record of its kind. Whatever the request says that is
not payload stands in the record as well. The rest, which is either bytes or a list of axis
values, is read back from where the record says it was put. -/
inductive Answers : Request → Update → Prop
  | addImage (key : ImageKey) (descriptor : ImageDescriptor) (bytes : List UInt8) (a : Address)
      (h : b.Shows (.addImage key descriptor a) (some bytes) []) :
      Answers (.addImage key descriptor bytes) (.addImage key descriptor a)
  | updateImage (key : ImageKey) (descriptor : ImageDescriptor) (bytes : List UInt8) (a : Address)
      (h : b.Shows (.updateImage key descriptor a) (some bytes) []) :
      Answers (.updateImage key descriptor bytes) (.updateImage key descriptor a)
  | addBlobImage (key : ImageKey) (descriptor : ImageDescriptor) (bytes : List UInt8) (a : Address)
      (h : b.Shows (.addBlobImage key descriptor a) (some bytes) []) :
      Answers (.addBlobImage key descriptor bytes) (.addBlobImage key descriptor a)
  | updateBlobImage (key : ImageKey) (descriptor : ImageDescriptor) (bytes : List UInt8)
      (a : Address) (h : b.Shows (.updateBlobImage key descriptor a) (some bytes) []) :
      Answers (.updateBlobImage key descriptor bytes) (.updateBlobImage key descriptor a)
  | addExternalImage (key : ImageKey) (externalId : ExternalImageId)
      (h : b.Shows (.addExternalImage key externalId) none []) :
      Answers (.addExternalImage key externalId) (.addExternalImage key externalId)
  | updateExternalImage (key : ImageKey) (descriptor : ImageDescriptor)
      (externalId : ExternalImageId) (imageType : ExternalImageType) (channel : UInt8)
      (h : b.Shows (.updateExternalImage key descriptor externalId imageType channel) none []) :
      Answers (.updateExternalImage key descriptor externalId imageType channel)
        (.updateExternalImage key descriptor externalId imageType channel)
  | deleteImage (key : ImageKey) (h : b.Shows (.deleteImage key) none []) :
      Answers (.deleteImage key) (.deleteImage key)
  | addFont (key : FontKey) (bytes : List UInt8) (index : UInt32) (a : Address)
      (h : b.Shows (.addFont key a index) (some bytes) []) :
      Answers (.addFont key bytes index) (.addFont key a index)
  | deleteFont (key : FontKey) (h : b.Shows (.deleteFont key) none []) :
      Answers (.deleteFont key) (.deleteFont key)
  | addFontInstance (key : FontInstanceKey) (fontKey : FontKey) (glyphSize : Binary32)
      (options : Option FontOptions) (platformOptions : Option FontPlatformOptions)
      (variations : List FontVariation) (a : Address)
      (h : b.Shows (.addFontInstance key fontKey glyphSize options platformOptions a)
        (some (variations.flatMap Packed.pack)) variations) :
      Answers (.addFontInstance key fontKey glyphSize options platformOptions variations)
        (.addFontInstance key fontKey glyphSize options platformOptions a)
  | deleteFontInstance (key : FontInstanceKey) (h : b.Shows (.deleteFontInstance key) none []) :
      Answers (.deleteFontInstance key) (.deleteFontInstance key)

end Batch

namespace Queue

/-- The requests that a caller may expect in the next batch after one more
event, if these were to be expected before. -/
def Event.waiting (rs : List Request) : Event → List Request
  | .submitted r (.ok ()) => rs ++ [r]
  | .submitted _ (.error _) => rs
  | .flushed _ | .cleared => []

/-- The requests accepted since the last flush or clear, in the order of the calls. -/
def waiting (events : List Event) : List Request :=
  events.foldl Event.waiting []

variable {α : Type}

/-- `u` is the record of `r`, and the packer holds the payload where it says. -/
def Keeps (p : Packer α) (r : Request) (u : Update) : Prop :=
  ∃ a, u = r.record a ∧ ∀ payload, r.payload? = some payload → p.Holds a payload

/-- The queue is good for every request in `rs`. -/
structure Promised (rs : List Request) (q : Queue α) : Prop where
  wf : q.packer.Wf
  keeps : List.Forall₂ (Keeps q.packer) rs q.pending

theorem promised_nil {q : Queue α} (hwf : q.packer.Wf) (hpending : q.pending = []) :
    Promised [] q where
  wf := hwf
  keeps := by
    rw [hpending]
    exact .nil

/-- One more promise. -/
theorem keeps_append {p : Packer α} {rs : List Request} {us : List Update} {r : Request}
    {u : Update} (h : List.Forall₂ (Keeps p) rs us) (hlast : Keeps p r u) :
    List.Forall₂ (Keeps p) (rs ++ [r]) (us ++ [u]) :=
  List.rel_append h (.cons hlast .nil)

section

variable [Allocator α]

/-- A write, however it ends, breaks no promise. -/
theorem keeps_write {p : Packer α} {rs : List Request} {us : List Update} (hp : p.Wf)
    (h : List.Forall₂ (Keeps p) rs us) (payload : List UInt8) :
    List.Forall₂ (Keeps (p.write payload).state) rs us := by
  refine h.imp ?_
  rintro r u ⟨a, hrecord, hholds⟩
  exact ⟨a, hrecord, fun old hold => (hholds old hold).write hp payload⟩

theorem promised_submit {rs : List Request} {q : Queue α} (h : Promised rs q) (r : Request) :
    Promised (Event.waiting rs (.submitted r (q.submit r).answer)) (q.submit r).state := by
  have hsubmits := submit_submits q r
  generalize q.submit r = o at hsubmits
  cases hsubmits with
  | invalid _ _ => exact h
  | unwritten payload _ _ _ _ =>
      exact ⟨Packer.wf_write h.wf payload, keeps_write h.wf h.keeps payload⟩
  | written payload a _ hpayload hanswer =>
      -- The write keeps the old promises, and its answer makes the new one good.
      refine ⟨Packer.wf_write h.wf payload, keeps_append (keeps_write h.wf h.keeps payload) ?_⟩
      refine ⟨a, rfl, fun payload' hpayload' => ?_⟩
      rw [hpayload] at hpayload'
      cases hpayload'
      exact Packer.holds_written h.wf hanswer
  | bare _ hpayload =>
      refine ⟨h.wf, keeps_append h.keeps ⟨.empty, rfl, fun payload' hpayload' => ?_⟩⟩
      rw [hpayload] at hpayload'
      cases hpayload'

theorem promised_turn {rs : List Request} {q : Queue α} (h : Promised rs q) (op : Op) :
    Promised ((q.turn op).event.waiting rs) (q.turn op).state := by
  cases op with
  | submit r => exact promised_submit h r
  | flush => exact promised_nil (Packer.wf_emptied q.packer) rfl
  | clear => exact promised_nil (Packer.wf_emptied q.packer) rfl

/-- Whatever is done with a new queue, it is good for what its callers expect. -/
theorem promised_run {allocator : α} {config : QueueConfig} {q : Queue α}
    (hq : ofConfig allocator config = .ok q) (ops : List Op) :
    Promised (waiting (q.run ops).events) (q.run ops).state := by
  obtain ⟨hpending, hpacker⟩ := new_of_ofConfig hq
  have hturn : ∀ rs (q : Queue α) op, Promised rs q →
      Promised (Event.waiting rs (q.turn op).event) (q.turn op).state :=
    fun _ _ op h => promised_turn h op
  have hnew : Promised [] q := promised_nil (Packer.wf_ofSize hpacker) hpending
  exact Turn.run_history hturn hnew ops

end

/-! ## What the consumer reads -/

theorem payload_of_holds {p : Packer α} {r : Request} {a : Address}
    (h : ∀ payload, r.payload? = some payload → p.Holds a payload) (us : List Update) :
    Batch.payload ⟨us, p.segments⟩ (r.record a) = (.ok r.payload?, []) := by
  rw [Batch.payload, Request.address?_record]
  cases hpayload : r.payload? with
  | none => rfl
  | some payload =>
      have hresolve := (h payload hpayload).resolve
      show ((p.segments.read a).1.map some, (p.segments.read a).2) = _
      rw [Segments.read_of_resolve hresolve]
      rfl

/-- A promise that was kept up to the flush is a record with the right answers. -/
theorem Keeps.answers {p : Packer α} {r : Request} {u : Update} (h : Keeps p r u)
    (us : List Update) : Batch.Answers ⟨us, p.segments⟩ r u := by
  obtain ⟨a, rfl, hholds⟩ := h
  have hpayload := payload_of_holds hholds us
  cases r with
  | addImage key descriptor bytes => exact .addImage key descriptor bytes a ⟨hpayload, rfl⟩
  | updateImage key descriptor bytes => exact .updateImage key descriptor bytes a ⟨hpayload, rfl⟩
  | addBlobImage key descriptor bytes => exact .addBlobImage key descriptor bytes a ⟨hpayload, rfl⟩
  | updateBlobImage key descriptor bytes =>
      exact .updateBlobImage key descriptor bytes a ⟨hpayload, rfl⟩
  | addExternalImage key externalId => exact .addExternalImage key externalId ⟨hpayload, rfl⟩
  | updateExternalImage key descriptor externalId imageType channel =>
      exact .updateExternalImage key descriptor externalId imageType channel ⟨hpayload, rfl⟩
  | deleteImage key => exact .deleteImage key ⟨hpayload, rfl⟩
  | addFont key bytes index => exact .addFont key bytes index a ⟨hpayload, rfl⟩
  | deleteFont key => exact .deleteFont key ⟨hpayload, rfl⟩
  | addFontInstance key fontKey glyphSize options platformOptions variations =>
      -- The axis values are read back from the bytes that they were packed into.
      have hresolve := (hholds _ rfl).resolve
      exact .addFontInstance key fontKey glyphSize options platformOptions variations a
        ⟨hpayload, Segments.readValues_of_resolve (by decide) hresolve⟩
  | deleteFontInstance key => exact .deleteFontInstance key ⟨hpayload, rfl⟩

/-- A batch holds one record for each request that was accepted since the flush
or clear before, in the order of the calls, and answers for every one of them.
Requests that were refused or dropped have no record in any batch. -/
theorem flushed_batch_answers [Allocator α] {allocator : α} {config : QueueConfig}
    {q : Queue α} {ops : List Op} {before after : List Event} {b : Batch}
    (hq : ofConfig allocator config = .ok q)
    (hrun : (q.run ops).events = before ++ .flushed b :: after) :
    List.Forall₂ b.Answers (waiting before) b.updates := by
  rw [run] at hrun
  obtain ⟨ops₁, op, ops₂, -, hbefore, hflushed, -⟩ := Turn.run_split hrun
  have hpromised := promised_run hq ops₁
  rw [run, hbefore] at hpromised
  rw [batch_of_flushed hflushed]
  exact hpromised.keeps.imp fun r u h => h.answers _

/-- A record that is dropped, a request that is refused, and two that are
answered for, one of them with a glyph size that is not a number. -/
theorem flushed_batch_answers_stuttering :
    ∃ q b, ofConfig Packer.stuttering ⟨4⟩ = .ok q ∧
      (q.run [.submit (.deleteFont ⟨1, 1⟩), .clear, .submit (.addFont ⟨1, 2⟩ [1, 2, 3] 7),
          .submit (.addFont ⟨1, 3⟩ [4, 5] 0),
          .submit (.addFontInstance ⟨1, 4⟩ ⟨1, 2⟩ ⟨0x7fc00001⟩ none none [⟨1, ⟨2⟩⟩]),
          .flush]).events =
        [.submitted (.deleteFont ⟨1, 1⟩) (.ok ()), .cleared,
          .submitted (.addFont ⟨1, 2⟩ [1, 2, 3] 7) (.ok ()),
          .submitted (.addFont ⟨1, 3⟩ [4, 5] 0) (.error (.allocation (.other "none left"))),
          .submitted (.addFontInstance ⟨1, 4⟩ ⟨1, 2⟩ ⟨0x7fc00001⟩ none none [⟨1, ⟨2⟩⟩])
            (.ok ()),
          .flushed b] ∧
      List.Forall₂ b.Answers
        [.addFont ⟨1, 2⟩ [1, 2, 3] 7,
          .addFontInstance ⟨1, 4⟩ ⟨1, 2⟩ ⟨0x7fc00001⟩ none none [⟨1, ⟨2⟩⟩]] b.updates := by
  refine ⟨_, _, rfl, rfl, ?_⟩
  exact @flushed_batch_answers _ _ Packer.stuttering ⟨4⟩ _
    [.submit (.deleteFont ⟨1, 1⟩), .clear, .submit (.addFont ⟨1, 2⟩ [1, 2, 3] 7),
      .submit (.addFont ⟨1, 3⟩ [4, 5] 0),
      .submit (.addFontInstance ⟨1, 4⟩ ⟨1, 2⟩ ⟨0x7fc00001⟩ none none [⟨1, ⟨2⟩⟩]), .flush]
    [_, _, _, _, _] [] _ rfl rfl

end Queue

end Parcel
