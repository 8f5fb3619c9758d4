import Parcel.Proofs.AllocatorReach
import Parcel.Proofs.PackerPair

/-!
# Small and large payloads do not disturb each other

The small segments and the large ones have two things in common, the chunk size,
which is settled, and the allocator. If what the allocator answers depends on the
size that it is asked for and on nothing else (`Allocator.Uniform`), then the two
sides of a packer are independent: leaving out all payloads of one class changes
neither what becomes of the others nor the segments they are in, and a small payload
may change places with a large one next to it.

Both follow from `PackerPair.lean` with equality as the likeness. Payloads that are
left out keep the other side alike (`SmallAlike.skip`, `LargeAlike.skip`), and the
payloads that remain go the same way.
-/

namespace Parcel

namespace Allocator

variable {α : Type} [Allocator α]

/-- Whatever it has been asked for by then, the allocator answers as `answer` says. -/
def Answers (answer : UInt64 → Except Fault Segment) (a : α) : Prop :=
  ∀ b size, Reaches a b → (allocate b size).1 = answer size

/-- Its answer to a request depends on the size only. -/
def Uniform (a : α) : Prop := ∃ answer, Answers answer a

def SameAnswers (a b : α) : Prop := ∃ answer, Answers answer a ∧ Answers answer b

theorem Answers.reaches {answer : UInt64 → Except Fault Segment} {a b : α}
    (h : Answers answer a) (hb : Reaches a b) : Answers answer b :=
  fun c size hc => h c size (hb.trans hc)

theorem uniform_of_stateless {a : α} (h : Stateless a) : Uniform a :=
  ⟨fun size => (allocate a size).1, fun b size hb => by rw [h b hb]⟩

theorem Uniform.reaches {a b : α} (h : Uniform a) (hb : Reaches a b) : Uniform b := by
  obtain ⟨answer, hanswer⟩ := h
  exact ⟨answer, hanswer.reaches hb⟩

theorem SameAnswers.symm {a b : α} (h : SameAnswers a b) : SameAnswers b a := by
  obtain ⟨answer, ha, hb⟩ := h
  exact ⟨answer, hb, ha⟩

theorem SameAnswers.reaches {a a' b : α} (h : SameAnswers a b) (ha : Reaches a a') :
    SameAnswers a' b := by
  obtain ⟨answer, hleft, hright⟩ := h
  exact ⟨answer, hleft.reaches ha, hright⟩

end Allocator

/-- The same bytes, and allocators that give the same answers. -/
def Likeness.sameAnswers (α : Type) [Allocator α] : Likeness α where
  Allocators := Allocator.SameAnswers
  Segments := Eq
  Payloads := Eq
  allocate {a b} size h := by
    have hnext := ((h.reaches (.request .refl size)).symm.reaches (.request .refl size)).symm
    obtain ⟨answer, ha, hb⟩ := h
    rw [ha a size .refl, hb b size .refl]
    exact ⟨.refl (fun _ => rfl) _, hnext⟩
  size h := by rw [h]
  access h := by rw [h]; exact ⟨rfl, rfl⟩
  overwrite offset h hxy := by rw [h, hxy]
  length h := by rw [h]

namespace Packer

/-! ## The class of a payload -/

def Event.payload? : Event → Option (List UInt8)
  | .wrote payload _ => some payload
  | .flushed _ | .cleared => none

/-- At most `c` bytes are written. -/
def Op.atMost (c : Nat) (op : Op) : Bool := op.payload?.any (·.length ≤ c)

/-- More than `c` bytes are written. -/
def Op.moreThan (c : Nat) (op : Op) : Bool := op.payload?.any (c < ·.length)

def Event.atMost (c : Nat) (e : Event) : Bool := e.payload?.any (·.length ≤ c)

def Event.moreThan (c : Nat) (e : Event) : Bool := e.payload?.any (c < ·.length)

variable {α : Type} [Allocator α] {p q : Packer α}

/-- What is seen of a write is seen together with its payload. -/
theorem payload?_turn (p : Packer α) (op : Op) : (p.turn op).event.payload? = op.payload? := by
  cases op with
  | write _ => rfl
  | writeValues _ => rfl
  | flush => rfl
  | clear => rfl

/-! ## Equal on one side -/

theorem ChunksAlike.eq {c d : Chunk} (h : ChunksAlike (.sameAnswers α) c d) : c = d := by
  obtain ⟨segment, used⟩ := c
  obtain ⟨segment', used'⟩ := d
  obtain ⟨hsegment, hused⟩ := h
  exact congr (congrArg Chunk.mk hsegment) hused

theorem smallAlike_iff : SmallAlike (.sameAnswers α) p q ↔
    p.chunkSize = q.chunkSize ∧ Allocator.SameAnswers p.allocator q.allocator ∧
      p.filled = q.filled ∧ p.current = q.current := by
  refine ⟨fun h => ?_, fun ⟨hchunkSize, hallocators, hfilled, hcurrent⟩ => ?_⟩
  · have hfilled : p.filled = q.filled := List.forall₂_eq_eq_eq ▸ h.filled
    have hcurrent := h.current
    refine ⟨h.chunkSize, h.allocators, hfilled, ?_⟩
    generalize p.current = c at hcurrent
    generalize q.current = d at hcurrent
    cases hcurrent with
    | none => rfl
    | some hchunks => rw [hchunks.eq]
  · have hforall : List.Forall₂ Eq p.filled q.filled := List.forall₂_eq_eq_eq ▸ hfilled
    refine ⟨hchunkSize, hallocators, hforall, ?_⟩
    rw [hcurrent]
    cases q.current with
    | none => exact .none
    | some chunk => exact .some ⟨rfl, rfl⟩

theorem largeAlike_iff : LargeAlike (.sameAnswers α) p q ↔
    p.chunkSize = q.chunkSize ∧ Allocator.SameAnswers p.allocator q.allocator ∧
      p.large = q.large := by
  refine ⟨fun h => ⟨h.chunkSize, h.allocators, ?_⟩,
    fun ⟨hchunkSize, hallocators, hlarge⟩ => ⟨hchunkSize, hallocators, ?_⟩⟩
  · exact List.forall₂_eq_eq_eq ▸ h.large
  · exact List.forall₂_eq_eq_eq ▸ hlarge

theorem SmallAlike.symm (h : SmallAlike (.sameAnswers α) p q) :
    SmallAlike (.sameAnswers α) q p := by
  obtain ⟨hchunkSize, hallocators, hfilled, hcurrent⟩ := smallAlike_iff.1 h
  exact smallAlike_iff.2 ⟨hchunkSize.symm, hallocators.symm, hfilled.symm, hcurrent.symm⟩

theorem LargeAlike.symm (h : LargeAlike (.sameAnswers α) p q) :
    LargeAlike (.sameAnswers α) q p := by
  obtain ⟨hchunkSize, hallocators, hlarge⟩ := largeAlike_iff.1 h
  exact largeAlike_iff.2 ⟨hchunkSize.symm, hallocators.symm, hlarge.symm⟩

theorem Alike.symm (h : Alike (.sameAnswers α) p q) : Alike (.sameAnswers α) q p :=
  ⟨h.small.symm, h.large.symm⟩

theorem alike_refl (h : Allocator.Uniform p.allocator) : Alike (.sameAnswers α) p p := by
  obtain ⟨answer, hanswer⟩ := h
  exact ⟨smallAlike_iff.2 ⟨rfl, ⟨answer, hanswer, hanswer⟩, rfl, rfl⟩,
    largeAlike_iff.2 ⟨rfl, ⟨answer, hanswer, hanswer⟩, rfl⟩⟩

/-! ## What one turn does -/

variable {op : Op} {x : List UInt8}

/-- The small side does not see a large payload. -/
theorem SmallAlike.skip (h : SmallAlike (.sameAnswers α) p q) (hop : op.payload? = some x)
    (hlong : p.chunkSize.bytes < x.length) :
    SmallAlike (.sameAnswers α) (p.turn op).state q := by
  obtain ⟨hchunkSize, hallocators, hfilled, hcurrent⟩ := smallAlike_iff.1 h
  obtain ⟨hfilled', hcurrent'⟩ := small_of_lt hlong
  have hreaches := reaches_write p x
  rw [turn_of_payload hop]
  exact smallAlike_iff.2 ⟨(chunkSize_write p x).trans hchunkSize, hallocators.reaches hreaches,
    hfilled'.trans hfilled, hcurrent'.trans hcurrent⟩

/-- The large side does not see a small one. -/
theorem LargeAlike.skip (h : LargeAlike (.sameAnswers α) p q) (hop : op.payload? = some x)
    (hshort : x.length ≤ p.chunkSize.bytes) :
    LargeAlike (.sameAnswers α) (p.turn op).state q := by
  obtain ⟨hchunkSize, hallocators, hlarge⟩ := largeAlike_iff.1 h
  have hreaches := reaches_write p x
  rw [turn_of_payload hop]
  exact largeAlike_iff.2 ⟨(chunkSize_write p x).trans hchunkSize, hallocators.reaches hreaches,
    (large_of_le hshort).trans hlarge⟩

theorem turn_alike {R : Packer α → Packer α → Prop} (hop : op.payload? = some x)
    (h : OutcomesAlike R Eq (p.write x) (q.write x)) :
    (p.turn op).event = (q.turn op).event ∧ R (p.turn op).state (q.turn op).state := by
  rw [turn_of_payload hop, turn_of_payload hop, h.answer.eq]
  exact ⟨rfl, h.state⟩

/-- Allocator aside, packers that are alike are equal. -/
theorem Alike.eq_except (h : Alike (.sameAnswers α) p q) :
    q = { p with allocator := q.allocator } := by
  obtain ⟨hchunkSize, _, hfilled, hcurrent⟩ := smallAlike_iff.1 h.small
  obtain ⟨_, _, hlarge⟩ := largeAlike_iff.1 h.large
  rw [hchunkSize, hfilled, hcurrent, hlarge]

/-- A small payload goes the same way before a large one and after it, and so does the
large one. -/
theorem turns_swap (h : Allocator.Uniform p.allocator) {op op' : Op} {x y : List UInt8}
    (hop : op.payload? = some x) (hop' : op'.payload? = some y)
    (hshort : x.length ≤ p.chunkSize.bytes) (hlong : p.chunkSize.bytes < y.length) :
    (p.turn op).event = ((p.turn op').state.turn op).event ∧
      (p.turn op').event = ((p.turn op).state.turn op').event ∧
      Alike (.sameAnswers α) ((p.turn op).state.turn op').state
        ((p.turn op').state.turn op).state := by
  have hrefl := alike_refl h
  have hlong' : (p.turn op).state.chunkSize.bytes < y.length := by rwa [chunkSize_turn]
  have hshort' : x.length ≤ (p.turn op').state.chunkSize.bytes := by rwa [chunkSize_turn]
  -- Neither side is changed by the payload that comes in between.
  obtain ⟨hevent, hsmall⟩ :=
    turn_alike hop ((hrefl.small.skip hop' hlong).symm.write rfl hshort)
  obtain ⟨hevent', hlarge⟩ :=
    turn_alike hop' ((hrefl.large.skip hop hshort).write rfl hlong')
  exact ⟨hevent, hevent'.symm, hsmall.skip hop' hlong', (hlarge.symm.skip hop hshort').symm⟩

theorem turns_swap_of_ne (h : Allocator.Uniform p.allocator) {op op' : Op}
    (hop : op.payload? ≠ none) (hop' : op'.payload? ≠ none)
    (hclass : op.atMost p.chunkSize.bytes ≠ op'.atMost p.chunkSize.bytes) :
    (p.turn op).event = ((p.turn op').state.turn op).event ∧
      (p.turn op').event = ((p.turn op).state.turn op').event ∧
      Alike (.sameAnswers α) ((p.turn op).state.turn op').state
        ((p.turn op').state.turn op).state := by
  obtain ⟨x, hx⟩ := Option.ne_none_iff_exists'.1 hop
  obtain ⟨y, hy⟩ := Option.ne_none_iff_exists'.1 hop'
  rw [Op.atMost, Op.atMost, hx, hy] at hclass
  by_cases hshort : x.length ≤ p.chunkSize.bytes
  · have hlong : ¬ y.length ≤ p.chunkSize.bytes := fun hle => hclass (by simp [hshort, hle])
    exact turns_swap h hx hy hshort (Nat.lt_of_not_le hlong)
  · have hshort' : y.length ≤ p.chunkSize.bytes := by
      by_contra hlong
      exact hclass (by simp [hshort, hlong])
    obtain ⟨hevent', hevent, halike⟩ := turns_swap h hy hx hshort' (Nat.lt_of_not_le hshort)
    exact ⟨hevent, hevent', halike.symm⟩

/-! ## Runs -/

section

variable {R : Packer α → Packer α → Prop} {c : Nat} {ops : List Op}

/-- A run of writes beside one that leaves some of them out. Which ones is a matter of
their payloads. -/
theorem run_filter (keep : Option (List UInt8) → Bool)
    (hkeep : ∀ s t op x, op.payload? = some x → s.chunkSize.bytes = c → keep (some x) = true →
      R s t → (s.turn op).event = (t.turn op).event ∧ R (s.turn op).state (t.turn op).state)
    (hskip : ∀ s t op x, op.payload? = some x → s.chunkSize.bytes = c → keep (some x) = false →
      R s t → R (s.turn op).state t)
    (hwrites : ∀ op ∈ ops, op.payload? ≠ none) (hc : p.chunkSize.bytes = c) (h : R p q) :
    (p.run ops).events.filter (fun e => keep e.payload?) =
        (q.run (ops.filter fun op => keep op.payload?)).events ∧
      (p.run ops).state.chunkSize.bytes = c ∧
        R (p.run ops).state (q.run (ops.filter fun op => keep op.payload?)).state := by
  -- With the chunk size the classes of all payloads stay what they were.
  have hturn : ∀ (s : Packer α) op, s.chunkSize.bytes = c →
      (s.turn op).state.chunkSize.bytes = c := fun s op hs => by rw [chunkSize_turn, hs]
  refine Turn.run_filter (O := fun op => op.payload? ≠ none)
    (R := fun s t => s.chunkSize.bytes = c ∧ R s t) (fun op => keep op.payload?)
    (fun e : Event => keep e.payload?) (fun s op => congrArg keep (payload?_turn s op))
    (fun s t op hop hk hst => ?_) (fun s t op hop hk hst => ?_) hwrites ⟨hc, h⟩
  · obtain ⟨x, hx⟩ := Option.ne_none_iff_exists'.1 hop
    obtain ⟨hevent, hnext⟩ := hkeep s t op x hx hst.1 (hx ▸ hk) hst.2
    exact ⟨hevent, hturn s op hst.1, hnext⟩
  · obtain ⟨x, hx⟩ := Option.ne_none_iff_exists'.1 hop
    exact ⟨hturn s op hst.1, hskip s t op x hx hst.1 (hx ▸ hk) hst.2⟩

/-- Large payloads may be left out, as far as the small side can tell. -/
theorem SmallAlike.run (h : SmallAlike (.sameAnswers α) p q) (hc : p.chunkSize.bytes = c)
    (hwrites : ∀ op ∈ ops, op.payload? ≠ none) :
    (p.run ops).events.filter (Event.atMost c) = (q.run (ops.filter (Op.atMost c))).events ∧
      SmallAlike (.sameAnswers α) (p.run ops).state
        (q.run (ops.filter (Op.atMost c))).state := by
  obtain ⟨hevents, _, hstate⟩ := run_filter (Option.any (·.length ≤ c))
    (fun _ _ _ _ hop hc hk h => turn_alike hop (h.write rfl (hc ▸ of_decide_eq_true hk)))
    (fun _ _ _ _ hop hc hk h => h.skip hop (hc ▸ Nat.lt_of_not_le (of_decide_eq_false hk)))
    hwrites hc h
  exact ⟨hevents, hstate⟩

/-- Small payloads may be left out, as far as the large side can tell. -/
theorem LargeAlike.run (h : LargeAlike (.sameAnswers α) p q) (hc : p.chunkSize.bytes = c)
    (hwrites : ∀ op ∈ ops, op.payload? ≠ none) :
    (p.run ops).events.filter (Event.moreThan c) = (q.run (ops.filter (Op.moreThan c))).events ∧
      LargeAlike (.sameAnswers α) (p.run ops).state
        (q.run (ops.filter (Op.moreThan c))).state := by
  obtain ⟨hevents, _, hstate⟩ := run_filter (Option.any (c < ·.length))
    (fun _ _ _ _ hop hc hk h => turn_alike hop (h.write rfl (hc ▸ of_decide_eq_true hk)))
    (fun _ _ _ _ hop hc hk h => h.skip hop (hc ▸ Nat.le_of_not_lt (of_decide_eq_false hk)))
    hwrites hc h
  exact ⟨hevents, hstate⟩

/-- Nothing may be left out, if both sides look. -/
theorem Alike.run (h : Alike (.sameAnswers α) p q) (hwrites : ∀ op ∈ ops, op.payload? ≠ none) :
    (p.run ops).events = (q.run ops).events ∧
      Alike (.sameAnswers α) (p.run ops).state (q.run ops).state := by
  refine Turn.run_lockstep (fun s t op hop hst => ?_) hwrites h
  obtain ⟨x, hx⟩ := Option.ne_none_iff_exists'.1 hop
  exact turn_alike hx (Alike.write hst rfl)

/-- Two turns in the middle of a run. -/
theorem run_middle (p : Packer α) (before after : List Op) (op op' : Op) :
    let q := (p.run before).state
    let q' := ((q.turn op).state.turn op').state
    (p.run (before ++ op :: op' :: after)).events = (p.run before).events ++
        (q.turn op).event :: ((q.turn op).state.turn op').event :: (q'.run after).events ∧
      (p.run (before ++ op :: op' :: after)).state = (q'.run after).state := by
  show (Turn.run turn p (before ++ op :: op' :: after)).events = _ ∧
    (Turn.run turn p (before ++ op :: op' :: after)).state = _
  rw [Turn.run_append]
  exact ⟨rfl, rfl⟩

/-- A small payload and a large one next to each other in a run may change places. -/
theorem run_swap (h : Allocator.Uniform p.allocator) {before after : List Op} {op op' : Op}
    (hwrites : ∀ o ∈ before ++ op :: op' :: after, o.payload? ≠ none)
    (hclass : op.atMost p.chunkSize.bytes ≠ op'.atMost p.chunkSize.bytes) :
    ∃ e e' rest,
      (p.run (before ++ op :: op' :: after)).events =
          (p.run before).events ++ e :: e' :: rest ∧
        (p.run (before ++ op' :: op :: after)).events =
          (p.run before).events ++ e' :: e :: rest ∧
        Alike (.sameAnswers α) (p.run (before ++ op :: op' :: after)).state
          (p.run (before ++ op' :: op :: after)).state := by
  have huniform := h.reaches (reaches_run p before)
  rw [← chunkSize_run p before] at hclass
  obtain ⟨hevent, hevent', halike⟩ :=
    turns_swap_of_ne huniform (hwrites op (by simp)) (hwrites op' (by simp)) hclass
  have hafter : ∀ o ∈ after, o.payload? ≠ none := fun o ho => hwrites o (by simp [ho])
  obtain ⟨hevents, hstate⟩ := halike.run hafter
  obtain ⟨hrun, hend⟩ := run_middle p before after op op'
  obtain ⟨hrun', hend'⟩ := run_middle p before after op' op
  rw [← hevent'] at hrun
  rw [← hevent, ← hevents] at hrun'
  rw [hend, hend']
  exact ⟨_, _, _, hrun, hrun', hstate⟩

/-- Over an allocator whose answers depend on the size only, the two classes of
payloads do not disturb each other. What is left when all payloads of the one class
are left out is, for the other class, what there was: the same answers, the same
segments, and the same place for the next small payload. And a small payload may change
places with a large one next to it. That leaves everything as it was but the
allocator, and the allocator too if requests do not change it. -/
theorem classes_independent (huniform : Allocator.Uniform p.allocator)
    (hwrites : ∀ op ∈ ops, op.payload? ≠ none) (hc : p.chunkSize.bytes = c) :
    ((p.run (ops.filter (Op.atMost c))).events = (p.run ops).events.filter (Event.atMost c) ∧
        (p.run (ops.filter (Op.atMost c))).state.small = (p.run ops).state.small ∧
        (p.run (ops.filter (Op.atMost c))).state.cursor = (p.run ops).state.cursor) ∧
      ((p.run (ops.filter (Op.moreThan c))).events =
          (p.run ops).events.filter (Event.moreThan c) ∧
        (p.run (ops.filter (Op.moreThan c))).state.large = (p.run ops).state.large) ∧
      ∀ before op op' after, ops = before ++ op :: op' :: after → op.atMost c ≠ op'.atMost c →
        (∃ e e' rest, (p.run ops).events = (p.run before).events ++ e :: e' :: rest ∧
          (p.run (before ++ op' :: op :: after)).events =
            (p.run before).events ++ e' :: e :: rest) ∧
        (∃ allocator, (p.run (before ++ op' :: op :: after)).state =
          { (p.run ops).state with allocator }) ∧
        (Allocator.Stateless p.allocator →
          (p.run (before ++ op' :: op :: after)).state = (p.run ops).state) := by
  have hrefl := alike_refl huniform
  refine ⟨?_, ?_, ?_⟩
  · obtain ⟨hevents, hstate⟩ := hrefl.small.run hc hwrites
    obtain ⟨_, _, hfilled, hcurrent⟩ := smallAlike_iff.1 hstate
    refine ⟨hevents.symm, ?_, ?_⟩
    · rw [Packer.small, Packer.small, hfilled, hcurrent]
    · rw [Packer.cursor, Packer.cursor, hcurrent]
  · obtain ⟨hevents, hstate⟩ := hrefl.large.run hc hwrites
    obtain ⟨_, _, hlarge⟩ := largeAlike_iff.1 hstate
    exact ⟨hevents.symm, hlarge.symm⟩
  · intro before op op' after hops hclass
    subst hops hc
    obtain ⟨e, e', rest, hevents, hevents', halike⟩ := run_swap huniform hwrites hclass
    refine ⟨⟨e, e', rest, hevents, hevents'⟩, ⟨_, halike.eq_except⟩, fun hstateless => ?_⟩
    rw [halike.eq_except, hstateless _ (reaches_run p _), ← hstateless _ (reaches_run p _)]

end

/-- A small payload, a large one, an empty one, and values that need a fresh chunk. -/
def mixed : List Op :=
  [.write [1, 2, 3], .write [9, 9, 9, 9, 9], .write [], .writeValues [(6 : UInt16)]]

theorem classes_independent_mixed :
    ∃ p : Packer Heap, ofSize {} 4 = .ok p ∧
      (p.run mixed).events = [.wrote [1, 2, 3] (.ok (.inSmall 0 0 3)),
        .wrote [9, 9, 9, 9, 9] (.ok (.inLarge 0 5)), .wrote [] (.ok .empty),
        .wrote [6, 0] (.ok (.inSmall 1 0 2))] ∧
      (p.run (mixed.filter (Op.atMost 4))).events = [.wrote [1, 2, 3] (.ok (.inSmall 0 0 3)),
        .wrote [] (.ok .empty), .wrote [6, 0] (.ok (.inSmall 1 0 2))] ∧
      (p.run (mixed.filter (Op.moreThan 4))).state.large = (p.run mixed).state.large ∧
      (p.run [.write [9, 9, 9, 9, 9], .write [1, 2, 3], .write [],
        .writeValues [(6 : UInt16)]]).state = (p.run mixed).state := by
  obtain ⟨p, hp⟩ : ∃ p : Packer Heap, ofSize {} 4 = .ok p := ⟨_, rfl⟩
  have hstateless := Heap.stateless p.allocator
  obtain ⟨⟨hshort, _⟩, ⟨_, hlarge⟩, hswap⟩ := @classes_independent _ _ p 4 mixed
    (Allocator.uniform_of_stateless hstateless) (by simp [mixed, Op.payload?])
    (by cases hp; rfl)
  obtain ⟨_, _, hstate⟩ := hswap [] (.write [1, 2, 3]) (.write [9, 9, 9, 9, 9])
    [.write [], .writeValues [(6 : UInt16)]] rfl (by decide)
  refine ⟨p, hp, ?_, ?_, hlarge, hstate hstateless⟩
  · cases hp
    rfl
  · rw [hshort]
    cases hp
    rfl

end Packer

end Parcel
