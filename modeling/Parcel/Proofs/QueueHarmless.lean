import Parcel.Journal.Metrics
import Parcel.Proofs.PixelBounds
import Parcel.Proofs.QueueRoundTrip

/-!
# A refused request does no harm

There are two ways to be refused. The check comes first: it looks at nothing but
the request, and a request that it turns away has not happened as far as the
queue, its allocator and the metrics are concerned (`submit_of_check_error`).
Everything later is the packer's doing. The packer may have moved on by then,
but it goes on holding what it held, and no record was put behind the others.

What the second case leaves intact is `Upholds rs us`: the records `us` are still
in front of all that are pending, and the packer still holds for each of them
the payload of its request. Every request preserves it, whether it is accepted
or not, so that the records that were there at a failure are in the next batch
and lead to their payloads (`failed_submit_harmless`).

Which requests the check turns away is said by `Request.Consistent` without the
words that the check computes with.
-/

namespace Parcel

/-- A payload has fewer bytes, for its length is a signed word. -/
def payloadLimit : Nat := 1 <<< 63

namespace Request

/-- The descriptor is consistent and, unless the image is drawn later, its pixels are there. -/
def Consistent : Request → Prop
  | .addImage _ descriptor bytes | .updateImage _ descriptor bytes =>
    descriptor.Consistent ∧ descriptor.span ≤ bytes.length
  | .addBlobImage _ descriptor _ | .updateBlobImage _ descriptor _ => descriptor.Consistent
  | _ => True

theorem check_ok_iff {r : Request}
    (hlength : ∀ payload, r.payload? = some payload → payload.length < payloadLimit) :
    r.check = .ok () ↔ r.Consistent := by
  have hlimit : payloadLimit < UInt64.size - 1 := by decide
  cases r with
  | addImage _ descriptor bytes =>
      exact descriptor.checkPayload_ok_iff (Nat.lt_trans (hlength bytes rfl) hlimit)
  | updateImage _ descriptor bytes =>
      exact descriptor.checkPayload_ok_iff (Nat.lt_trans (hlength bytes rfl) hlimit)
  | addBlobImage _ _ _ => exact ImageDescriptor.check_ok_iff
  | updateBlobImage _ _ _ => exact ImageDescriptor.check_ok_iff
  | _ => exact ⟨fun _ => trivial, fun _ => rfl⟩

end Request

namespace Queue

variable {α : Type} [Allocator α]

/-- The check comes before anything else, and leaves everything alone. -/
theorem submit_of_check_error {r : Request} {cause : DescriptorFault}
    (h : r.check = .error cause) (q : Queue α) :
    q.submit r = ⟨.error (.descriptor cause), q, []⟩ := by
  rw [submit, h]

/-- At the end of a run it shows in the events and nowhere else. -/
theorem run_of_check_error {r : Request} {cause : DescriptorFault}
    (h : r.check = .error cause) (q : Queue α) (ops : List Op) :
    q.run (ops ++ [.submit r]) =
      ⟨(q.run ops).events ++ [.submitted r (.error (.descriptor cause))], (q.run ops).state,
        (q.run ops).entries⟩ := by
  rw [run, run, Turn.run_append]
  simp only [Turn.run, turn, submit_of_check_error h, List.append_nil]

theorem pending_of_submit_error {q : Queue α} {r : Request} {fault : Fault}
    (h : (q.submit r).answer = .error fault) : (q.submit r).state.pending = q.pending := by
  have hsubmits := submit_submits q r
  generalize q.submit r = o at hsubmits h
  cases hsubmits with
  | invalid _ _ => rfl
  | unwritten _ _ _ _ _ => rfl
  | written _ _ _ _ _ => cases h
  | bare _ _ => cases h

/-- The records `us` come first among those pending, and the packer holds the
payloads of the requests `rs` where they say. -/
structure Upholds (rs : List Request) (us : List Update) (q : Queue α) : Prop where
  wf : q.packer.Wf
  keeps : List.Forall₂ (Keeps q.packer) rs us
  first : us <+: q.pending

omit [Allocator α] in
theorem Promised.upholds {rs : List Request} {q : Queue α} (h : Promised rs q) :
    Upholds rs q.pending q where
  wf := h.wf
  keeps := h.keeps
  first := List.prefix_rfl

theorem Upholds.submit {rs : List Request} {us : List Update} {q : Queue α}
    (h : Upholds rs us q) (r : Request) : Upholds rs us (q.submit r).state := by
  have hsubmits := submit_submits q r
  generalize q.submit r = o at hsubmits
  cases hsubmits with
  | invalid _ _ => exact h
  | unwritten payload _ _ _ _ =>
      exact ⟨Packer.wf_write h.wf payload, keeps_write h.wf h.keeps payload, h.first⟩
  | written payload _ _ _ _ =>
      exact ⟨Packer.wf_write h.wf payload, keeps_write h.wf h.keeps payload,
        h.first.trans (List.prefix_append ..)⟩
  | bare _ _ => exact ⟨h.wf, h.keeps, h.first.trans (List.prefix_append ..)⟩

theorem Upholds.submits {rs : List Request} {us : List Update} {q : Queue α}
    (h : Upholds rs us q) (more : List Request) :
    Upholds rs us (q.run (more.map .submit)).state := by
  induction more generalizing q with
  | nil => exact h
  | cons r more ih => exact ih (h.submit r)

/-- What the next flush hands over, after the requests `more`. -/
def nextBatch (q : Queue α) (more : List Request) : Batch :=
  (q.run (more.map .submit)).state.flush.1

/-- What is upheld up to a flush is what the batch answers for. -/
theorem Upholds.nextBatch {rs : List Request} {us : List Update} {q : Queue α}
    (h : Upholds rs us q) (more : List Request) :
    us <+: (q.nextBatch more).updates ∧ List.Forall₂ (q.nextBatch more).Answers rs us := by
  have hlast := h.submits more
  exact ⟨hlast.first, hlast.keeps.imp fun _ _ hkeeps => hkeeps.answers _⟩

/-- A request that fails leaves the pending records as they are, and whatever is
submitted after it, the next batch has them in front and answers for the requests
they came from. If it was the check that failed, the queue with its packer and its
allocator is the same as before, so that an allocator which counts its calls has
counted none, and so are the metrics. The check fails exactly for the inconsistent
requests, whatever the allocator would have answered. -/
theorem failed_submit_harmless {allocator : α} {config : QueueConfig} {q₀ q : Queue α}
    {ops : List Op} (hq₀ : ofConfig allocator config = .ok q₀) (hq : (q₀.run ops).state = q)
    (r : Request) :
    (∀ fault, (q.submit r).answer = .error fault →
      (q.submit r).state.pending = q.pending ∧
      ∀ more, q.pending <+: ((q.submit r).state.nextBatch more).updates ∧
        List.Forall₂ ((q.submit r).state.nextBatch more).Answers
          (waiting (q₀.run ops).events) q.pending) ∧
    (∀ cause, r.check = .error cause →
      q.submit r = ⟨.error (.descriptor cause), q, []⟩ ∧
      (q₀.run (ops ++ [.submit r])).state = q ∧
      Metrics.ofEntries (q₀.run (ops ++ [.submit r])).entries =
        Metrics.ofEntries (q₀.run ops).entries) ∧
    ((∀ payload, r.payload? = some payload → payload.length < payloadLimit) →
      (r.check = .ok () ↔ r.Consistent) ∧
      (¬ r.Consistent → ∃ cause, (q.submit r).answer = .error (.descriptor cause))) := by
  have hpromised := promised_run hq₀ ops
  rw [hq] at hpromised
  refine ⟨?_, ?_, ?_⟩
  · intro fault hfault
    exact ⟨pending_of_submit_error hfault, (hpromised.upholds.submit r).nextBatch⟩
  · intro cause hcheck
    have hsubmit := submit_of_check_error hcheck q
    have hrun := run_of_check_error hcheck q₀ ops
    rw [hq] at hrun
    exact ⟨hsubmit, by rw [hrun], by rw [hrun]⟩
  · intro hlength
    have hcheck := Request.check_ok_iff hlength
    refine ⟨hcheck, fun hbad => ?_⟩
    cases hanswer : r.check with
    | ok _ => exact absurd (hcheck.1 hanswer) hbad
    | error cause => exact ⟨cause, by rw [submit_of_check_error hanswer q]⟩

/-- The allocator has nothing left for the second font, and the first one is still
there when a third one is queued. An image that lacks its last pixel is turned
away without asking. -/
theorem failed_submit_harmless_stuttering :
    ∃ q₀ q, ofConfig Packer.stuttering ⟨4⟩ = .ok q₀ ∧
      (q₀.run [.submit (.addFont ⟨1, 2⟩ [1, 2, 3] 7)]).state = q ∧
      (q.submit (.addFont ⟨1, 3⟩ [4, 5] 0)).answer =
        .error (.allocation (.other "none left")) ∧
      List.Forall₂
        ((q.submit (.addFont ⟨1, 3⟩ [4, 5] 0)).state.nextBatch [.addFont ⟨1, 4⟩ [6] 0]).Answers
        [.addFont ⟨1, 2⟩ [1, 2, 3] 7] q.pending ∧
      ∃ cause, (q.submit (.addImage ⟨1, 5⟩ ⟨.r8, 2, 2, none, 0, {}⟩ [8, 8, 8])).answer =
        .error (.descriptor cause) := by
  refine ⟨_, _, rfl, rfl, rfl, ?_, ?_⟩
  · have hfont := @failed_submit_harmless _ _ Packer.stuttering ⟨4⟩ _ _
      [.submit (.addFont ⟨1, 2⟩ [1, 2, 3] 7)] rfl rfl (.addFont ⟨1, 3⟩ [4, 5] 0)
    exact ((hfont.1 _ rfl).2 _).2
  · have himage := @failed_submit_harmless _ _ Packer.stuttering ⟨4⟩ _ _
      [.submit (.addFont ⟨1, 2⟩ [1, 2, 3] 7)] rfl rfl
      (.addImage ⟨1, 5⟩ ⟨.r8, 2, 2, none, 0, {}⟩ [8, 8, 8])
    refine (himage.2.2 ?_).2 ?_
    · rintro _ ⟨⟩
      decide
    · rintro ⟨_, hspan⟩
      exact absurd hspan (by decide)

end Queue

end Parcel
