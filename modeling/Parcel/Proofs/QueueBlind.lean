import Parcel.Proofs.AllocatorReach
import Parcel.Proofs.PackerPair
import Parcel.Proofs.PackerRoundTrip
import Parcel.Proofs.QueueRun
import Parcel.Wire.Manifest

/-!
# What payloads hold is not looked at

A queue moves payloads that it has no business to look into. Whatever it does, it does
because of their lengths. Two requests that differ in their bytes and axis values, but in
no length, are said to be of the same shape (`Request.SameShape`), and the two things that a
queue asks a request for before it writes, whether it is valid and how much room it takes,
are the same for both (`SameShape.check`, `SameShape.length_payload?`).

A queue is not alone, though. It asks the owner of a segment for access before each payload,
when others are in the segment already, and an owner who looks at them can answer one run
differently from the other (`contents_observable`). So the segments have to be *blind*
(`Segment.Blind`). An allocator sees nothing of what is written in any case.

Two queues are alike if their segments differ in bytes only (`Segment.Resembles`) and
everything else is the same. For blind segments this is a likeness in the sense of packers,
so that requests of the same shape take alike queues to alike queues, with the same answer
and the same reports (`Queue.Alike.submit`). Over whole runs nothing that a producer sees,
nothing that goes over the wire in frames and nothing that is reported tells the two apart
(`contents_unobservable`).
-/

namespace Parcel

namespace Segment

/-- Access is granted or refused without regard to what the segment holds. -/
def Blind (s : Segment) : Prop :=
  ∀ n (x y : List UInt8), x.length = y.length → s.grants n x = s.grants n y

theorem blind_ofBytes (bytes : List UInt8) : (ofBytes bytes).Blind := fun _ _ _ _ => rfl

/-- As long, and differing in bytes at most. -/
structure Resembles (s t : Segment) : Prop where
  size : s.size = t.size
  rest : { s with bytes := [] } = { t with bytes := [] }

variable {s t : Segment} {x y : List UInt8}

theorem Resembles.refl (s : Segment) : s.Resembles s := ⟨rfl, rfl⟩

theorem Resembles.requestAccess (h : s.Resembles t) (hblind : s.Blind) :
    s.requestAccess.1 = t.requestAccess.1 ∧ s.requestAccess.2.Resembles t.requestAccess.2 := by
  obtain ⟨hsize, hrest⟩ := h
  rw [Segment.mk.injEq] at hrest
  obtain ⟨-, hmemory, hgrants, hasked⟩ := hrest
  refine ⟨?_, hsize, ?_⟩
  · show s.grants s.asked s.bytes = t.grants t.asked t.bytes
    rw [hblind s.asked s.bytes t.bytes hsize, hgrants, hasked]
  · rw [Segment.requestAccess, Segment.requestAccess, hmemory, hgrants, hasked]

/-- Where a payload ends depends on its length only. -/
theorem Resembles.overwrite (h : s.Resembles t) (hlength : x.length = y.length) (offset : Nat) :
    (s.overwrite offset x).Resembles (t.overwrite offset y) := by
  obtain ⟨hsize, hrest⟩ := h
  refine ⟨?_, hrest⟩
  rw [Segment.size, Segment.size] at hsize
  simp [Segment.size, Segment.overwrite, splice, hsize, hlength]

theorem map_size_of_resembles {ss ts : List Segment} (h : List.Forall₂ Resembles ss ts) :
    ss.map size = ts.map size := by
  induction h with
  | nil => rfl
  | cons hst _ ih => rw [List.map_cons, List.map_cons, hst.size, ih]

/-- What two runs of a queue find in the same place. -/
structure BlindlyAlike (s t : Segment) : Prop where
  resembles : s.Resembles t
  blind : s.Blind

end Segment

/-- All segments that the allocator will ever answer with are blind. -/
def Allocator.Blind {α : Type} [Allocator α] (a : α) : Prop := Yields Segment.Blind a

/-- Segments may differ in bytes, and so may payloads. -/
def Likeness.lengths (α : Type) [Allocator α] : Likeness α where
  Allocators a b := a = b ∧ Allocator.Blind a
  Segments := Segment.BlindlyAlike
  Payloads x y := x.length = y.length
  allocate {a b} size h := by
    obtain ⟨rfl, hblind⟩ := h
    refine ⟨?_, rfl, hblind.reaches (Allocator.reaches_request a size)⟩
    cases hanswer : (Allocator.allocate a size).1 with
    | error fault => exact .error fault
    | ok segment => exact .ok ⟨.refl segment, hblind a size segment .refl hanswer⟩
  size h := h.resembles.size
  access h :=
    have haccess := h.resembles.requestAccess h.blind
    ⟨haccess.1, haccess.2, h.blind⟩
  overwrite offset h hlength := ⟨h.resembles.overwrite hlength offset, h.blind⟩
  length h := h

/-! ## Shapes of requests -/

namespace Request

/-- The same request, but for the bytes or the axis values, of which there are as many. -/
inductive SameShape : Request → Request → Prop
  | addImage (key : ImageKey) (descriptor : ImageDescriptor) {x y : List UInt8}
      (h : x.length = y.length) :
      SameShape (.addImage key descriptor x) (.addImage key descriptor y)
  | updateImage (key : ImageKey) (descriptor : ImageDescriptor) {x y : List UInt8}
      (h : x.length = y.length) :
      SameShape (.updateImage key descriptor x) (.updateImage key descriptor y)
  | addBlobImage (key : ImageKey) (descriptor : ImageDescriptor) {x y : List UInt8}
      (h : x.length = y.length) :
      SameShape (.addBlobImage key descriptor x) (.addBlobImage key descriptor y)
  | updateBlobImage (key : ImageKey) (descriptor : ImageDescriptor) {x y : List UInt8}
      (h : x.length = y.length) :
      SameShape (.updateBlobImage key descriptor x) (.updateBlobImage key descriptor y)
  | addExternalImage (key : ImageKey) (externalId : ExternalImageId) :
      SameShape (.addExternalImage key externalId) (.addExternalImage key externalId)
  | updateExternalImage (key : ImageKey) (descriptor : ImageDescriptor)
      (externalId : ExternalImageId) (imageType : ExternalImageType) (channel : UInt8) :
      SameShape (.updateExternalImage key descriptor externalId imageType channel)
        (.updateExternalImage key descriptor externalId imageType channel)
  | deleteImage (key : ImageKey) : SameShape (.deleteImage key) (.deleteImage key)
  | addFont (key : FontKey) {x y : List UInt8} (index : UInt32) (h : x.length = y.length) :
      SameShape (.addFont key x index) (.addFont key y index)
  | deleteFont (key : FontKey) : SameShape (.deleteFont key) (.deleteFont key)
  | addFontInstance (key : FontInstanceKey) (fontKey : FontKey) (glyphSize : Binary32)
      (options : Option FontOptions) (platformOptions : Option FontPlatformOptions)
      {vs ws : List FontVariation} (h : vs.length = ws.length) :
      SameShape (.addFontInstance key fontKey glyphSize options platformOptions vs)
        (.addFontInstance key fontKey glyphSize options platformOptions ws)
  | deleteFontInstance (key : FontInstanceKey) :
      SameShape (.deleteFontInstance key) (.deleteFontInstance key)

variable {r r' : Request}

theorem SameShape.record (h : SameShape r r') (a : Address) : r.record a = r'.record a := by
  cases h <;> rfl

theorem SameShape.check (h : SameShape r r') : r.check = r'.check := by
  cases h with
  | addImage _ descriptor h => exact congrArg descriptor.checkPayload h
  | updateImage _ descriptor h => exact congrArg descriptor.checkPayload h
  | _ => rfl

/-- Requests of the same shape take as much room. -/
theorem SameShape.length_payload? (h : SameShape r r') :
    r.payload?.map List.length = r'.payload?.map List.length := by
  cases h with
  | addImage _ _ h => exact congrArg some h
  | updateImage _ _ h => exact congrArg some h
  | addBlobImage _ _ h => exact congrArg some h
  | updateBlobImage _ _ h => exact congrArg some h
  | addFont _ _ h => exact congrArg some h
  | @addFontInstance _ _ _ _ _ vs ws h =>
      show some (Packed.packAll vs).length = some (Packed.packAll ws).length
      rw [Packed.length_packAll, Packed.length_packAll, h]
  | _ => rfl

end Request

namespace Queue

variable {α : Type} [Allocator α] {q q' : Queue α}

/-- The same but for the bytes in segments. -/
structure Alike (q q' : Queue α) : Prop where
  packer : Packer.Alike (.lengths α) q.packer q'.packer
  pending : q.pending = q'.pending

theorem Alike.pack (h : Alike q q') {r r' : Request} (hr : r.SameShape r') :
    OutcomesAlike Alike Eq (q.pack r) (q'.pack r') := by
  have hlength := hr.length_payload?
  rw [Queue.pack, Queue.pack]
  cases hpayload : r.payload? with
  | none =>
      rw [hpayload] at hlength
      rw [Option.map_eq_none_iff.1 hlength.symm]
      exact ⟨.ok rfl, h, rfl⟩
  | some payload =>
      rw [hpayload] at hlength
      obtain ⟨payload', hpayload', hsame⟩ := Option.map_eq_some_iff.1 hlength.symm
      rw [hpayload']
      have hwrite := h.packer.write (x := payload) (y := payload') hsame.symm
      exact ⟨hwrite.answer, ⟨hwrite.state, h.pending⟩, hwrite.entries⟩

theorem Alike.submit (h : Alike q q') {r r' : Request} (hr : r.SameShape r') :
    OutcomesAlike Alike Eq (q.submit r) (q'.submit r') := by
  rw [Queue.submit, Queue.submit, hr.check]
  cases r'.check with
  | error cause => exact ⟨.error _, h, rfl⟩
  | ok _ =>
      refine (h.pack hr).andThen fun a b s t hab hst => ?_
      subst hab
      rw [hr.record, Queue.push, Queue.push, hst.pending]
      exact ⟨.ok rfl, ⟨hst.packer, rfl⟩, rfl⟩

end Queue

/-! ## Batches -/

/-- The same records, and segments that differ in bytes at most. -/
structure Batch.Resembles (b b' : Batch) : Prop where
  updates : b.updates = b'.updates
  small : List.Forall₂ Segment.Resembles b.segments.small b'.segments.small
  large : List.Forall₂ Segment.Resembles b.segments.large b'.segments.large

namespace Batch

variable {b b' : Batch}

/-- Frames tell how many segments there are, and nothing of what is in them. -/
theorem Resembles.frameBatch (h : b.Resembles b') : frameBatch b = frameBatch b' := by
  rw [Parcel.frameBatch, Parcel.frameBatch, Manifest.ofBatch, Manifest.ofBatch, h.updates,
    h.small.length_eq, h.large.length_eq]

theorem Resembles.totalBytes (h : b.Resembles b') :
    b.segments.totalBytes = b'.segments.totalBytes := by
  rw [Segments.totalBytes, Segments.totalBytes, List.map_append, List.map_append,
    Segment.map_size_of_resembles h.small, Segment.map_size_of_resembles h.large]

end Batch

/-! ## Runs -/

namespace Queue

/-- Operations of the same kind, and requests of the same shape. -/
inductive Op.Alike : Op → Op → Prop
  | submit {r r' : Request} (h : r.SameShape r') : Op.Alike (.submit r) (.submit r')
  | flush : Op.Alike .flush .flush
  | clear : Op.Alike .clear .clear

/-- The same answers, and batches that cannot be told apart without reading their
segments. -/
inductive Event.Alike : Event → Event → Prop
  | submitted {r r' : Request} (h : r.SameShape r') (answer : Except Fault Unit) :
      Event.Alike (.submitted r answer) (.submitted r' answer)
  | flushed {b b' : Batch} (h : b.Resembles b') (hframe : frameBatch b = frameBatch b') :
      Event.Alike (.flushed b) (.flushed b')
  | cleared : Event.Alike .cleared .cleared

variable {α : Type} [Allocator α] {q q' : Queue α}

theorem Alike.resembles (h : Alike q q') :
    Batch.Resembles ⟨q.pending, q.packer.segments⟩ ⟨q'.pending, q'.packer.segments⟩ :=
  ⟨h.pending, h.packer.small.small.imp fun _ _ hst => hst.resembles,
    h.packer.large.large.imp fun _ _ hst => hst.resembles⟩

theorem Alike.emptied (h : Alike q q') :
    Alike (⟨q.packer.emptied, []⟩ : Queue α) ⟨q'.packer.emptied, []⟩ where
  packer :=
    { small := ⟨h.packer.small.chunkSize, h.packer.small.allocators, .nil, .none⟩
      large := ⟨h.packer.small.chunkSize, h.packer.small.allocators, .nil⟩ }
  pending := rfl

theorem Alike.turn (h : Alike q q') {op op' : Op} (hop : op.Alike op') :
    (q.turn op).event.Alike (q'.turn op').event ∧ Alike (q.turn op).state (q'.turn op').state ∧
      (q.turn op).entries = (q'.turn op').entries := by
  have hresembles := h.resembles
  have hsmall : q.packer.small.length = q'.packer.small.length := hresembles.small.length_eq
  have hlarge : q.packer.large.length = q'.packer.large.length := hresembles.large.length_eq
  cases hop with
  | @submit r r' hr =>
      obtain ⟨hanswer, hstate, hentries⟩ := h.submit hr
      refine ⟨?_, hstate, hentries⟩
      show Event.Alike (.submitted r (q.submit r).answer) (.submitted r' (q'.submit r').answer)
      rw [hanswer.eq]
      exact .submitted hr _
  | flush =>
      refine ⟨.flushed hresembles hresembles.frameBatch, h.emptied, ?_⟩
      have hbytes : q.packer.segments.totalBytes = q'.packer.segments.totalBytes :=
        hresembles.totalBytes
      simp [Queue.turn, Queue.flush, Packer.flush, span, hsmall, hlarge, hbytes, h.pending]
  | clear =>
      refine ⟨.cleared, h.emptied, ?_⟩
      have hempty : q.packer.isEmpty = q'.packer.isEmpty := by
        rw [Bool.eq_iff_iff]
        simp only [Packer.isEmpty, Packer.segments, Segments.isEmpty, Bool.and_eq_true,
          List.isEmpty_iff_length_eq_zero, hsmall, hlarge]
      simp [Queue.turn, Queue.clear, Packer.clear, hsmall, hlarge, hempty, h.pending]

/-- Over an allocator of blind segments no run of a queue is influenced by what is in payloads
or in lists of axis values. If those of one run have the lengths of those of the other one, and
everything else is the same, then so are the answers, the records, the numbers and sizes of
segments, the frames, the state of the allocator with its budgets, and all that metrics and the
trace are taken from. -/
theorem contents_unobservable {allocator : α} {config : QueueConfig}
    (hblind : Allocator.Blind allocator) (hq : ofConfig allocator config = .ok q)
    {ops ops' : List Op} (hops : List.Forall₂ Op.Alike ops ops') :
    List.Forall₂ Event.Alike (q.run ops).events (q.run ops').events ∧
      (q.run ops).state.pending = (q.run ops').state.pending ∧
      Batch.Resembles ⟨(q.run ops).state.pending, (q.run ops).state.packer.segments⟩
        ⟨(q.run ops').state.pending, (q.run ops').state.packer.segments⟩ ∧
      (q.run ops).state.packer.allocator = (q.run ops').state.packer.allocator ∧
      (q.run ops).entries = (q.run ops').entries := by
  have hstart : Alike q q := by
    obtain ⟨_, hpacker⟩ := new_of_ofConfig hq
    rw [← Packer.allocator_of_ofSize hpacker] at hblind
    refine ⟨?_, rfl⟩
    rw [← Packer.emptied_of_ofSize hpacker]
    exact ⟨⟨rfl, ⟨rfl, hblind⟩, .nil, .none⟩, ⟨rfl, ⟨rfl, hblind⟩, .nil⟩⟩
  obtain ⟨hevents, hstate, hentries⟩ :=
    Turn.run_pair (fun s t op op' hop hst => hst.turn hop) hops hstart
  exact ⟨hevents, hstate.pending, hstate.resembles, hstate.packer.small.allocators.1, hentries⟩

/-- Requests whose payloads and axis values are all made of `n`. The third one has not as
many pixels as its image. -/
def monotonous (n : UInt8) : List Op :=
  [.submit (.addFont ⟨1, 2⟩ [n, n, n] 7),
    .submit (.addFontInstance ⟨1, 3⟩ ⟨1, 2⟩ ⟨0x41400000⟩ none none [⟨1, ⟨n.toUInt32⟩⟩]),
    .submit (.addImage ⟨1, 4⟩ ⟨.r8, 2, 2, none, 0, {}⟩ [n, n, n]),
    .submit (.addBlobImage ⟨1, 4⟩ ⟨.r8, 2, 2, none, 0, {}⟩ [n, n, n]), .flush,
    .submit (.deleteFont ⟨1, 2⟩)]

/-- The second request fails for want of a segment. The segments that are flushed are not
the same, but their frames are. -/
theorem contents_unobservable_monotonous :
    ∃ q b b', ofConfig Packer.stuttering ⟨8⟩ = .ok q ∧
      (q.run (monotonous 1)).events[4]? = some (.flushed b) ∧
      (q.run (monotonous 2)).events[4]? = some (.flushed b') ∧
      b.segments.small.map Segment.bytes ≠ b'.segments.small.map Segment.bytes ∧
      b.updates.length = 2 ∧ b.updates = b'.updates ∧ frameBatch b = frameBatch b' ∧
      (q.run (monotonous 1)).entries = (q.run (monotonous 2)).entries := by
  obtain ⟨q, hq⟩ : ∃ q, ofConfig Packer.stuttering ⟨8⟩ = .ok q := ⟨_, rfl⟩
  have hblind : Allocator.Blind Packer.stuttering := by
    refine Scripted.yields fun call size segment hanswer => ?_
    obtain ⟨bytes, rfl⟩ := Packer.ofBytes_of_stuttering hanswer
    exact Segment.blind_ofBytes bytes
  obtain ⟨hevents, -, -, -, hentries⟩ := @contents_unobservable _ _ q _ _ hblind hq (monotonous 1)
    (monotonous 2) (.cons (.submit (.addFont _ _ rfl)) (.cons
      (.submit (.addFontInstance _ _ _ _ _ rfl)) (.cons (.submit (.addImage _ _ rfl)) (.cons
      (.submit (.addBlobImage _ _ rfl)) (.cons .flush (.cons (.submit (.deleteFont _)) .nil))))))
  cases hq
  have hflushed : Event.Alike (.flushed _) (.flushed _) :=
    hevents.get (i := 4) (by decide) (by decide)
  cases hflushed with
  | flushed h hframe =>
      exact ⟨_, _, _, rfl, rfl, rfl, by decide, rfl, h.updates, hframe, hentries⟩

/-- Zeroed segments that can be written until their first byte is `0xff`. -/
def sealing : Scripted where
  answer _ size := (Segment.zeroed size).map fun segment =>
    { segment with grants := fun _ bytes => bytes.head? != some 0xff }

/-- Two fonts of one byte each, the first of them being `n`. -/
def fontsFrom (n : UInt8) : List Op :=
  [.submit (.addFont ⟨1, 2⟩ [n] 0), .submit (.addFont ⟨1, 3⟩ [7] 0)]

/-- A font instance whose glyph size is not a number, with one axis value. -/
def sizeless (n : UInt32) : List Op :=
  [.submit (.addFontInstance ⟨1, 3⟩ ⟨1, 2⟩ ⟨0x7fc00000⟩ none none [⟨1, ⟨n⟩⟩])]

/-- An owner who looks at what is in a segment passes on what is there: the same second font
is accepted behind one first font and refused behind another one. And the records of two runs,
though the same bit for bit, need not be equal by their own notion of equality. -/
theorem contents_observable :
    (∃ q : Queue Scripted, ofConfig sealing ⟨8⟩ = .ok q ∧
      List.Forall₂ Op.Alike (fontsFrom 0) (fontsFrom 0xff) ∧
      (q.run (fontsFrom 0)).events[1]? = some (.submitted (.addFont ⟨1, 3⟩ [7] 0) (.ok ())) ∧
      (q.run (fontsFrom 0xff)).events[1]? =
        some (.submitted (.addFont ⟨1, 3⟩ [7] 0) (.error (.segment (.readOnly .small)))) ∧
      ¬ List.Forall₂ Event.Alike (q.run (fontsFrom 0)).events (q.run (fontsFrom 0xff)).events) ∧
    ∃ q : Queue Heap, ofConfig {} ⟨8⟩ = .ok q ∧
      List.Forall₂ Op.Alike (sizeless 2) (sizeless 3) ∧
      Change.equalLists (q.run (sizeless 2)).state.pending
        (q.run (sizeless 3)).state.pending = false := by
  refine ⟨⟨_, rfl, ?_, rfl, rfl, fun hevents => ?_⟩, _, rfl, ?_, rfl⟩
  · exact .cons (.submit (.addFont _ _ rfl)) (.cons (.submit (.addFont _ _ rfl)) .nil)
  · have hsecond : Event.Alike (.submitted (.addFont ⟨1, 3⟩ [7] 0) (.ok ()))
        (.submitted (.addFont ⟨1, 3⟩ [7] 0) (.error (.segment (.readOnly .small)))) :=
      hevents.get (i := 1) (by decide) (by decide)
    cases hsecond
  · exact .cons (.submit (.addFontInstance _ _ _ _ _ rfl)) .nil

end Queue

end Parcel
