import Mathlib.Data.List.Forall2
import Parcel.Proofs.PackerRun

/-!
# Two packers side by side

Statements about two runs of a packer come down to one question: if two packers
agree as far as a write can tell, do they agree after it? What a write can tell
is laid down by a `Likeness`, three relations that the allocator, access and
overwriting have to respect. Nothing else is asked of it: equality will do, and so
will less, as long as sizes and lengths agree.

A packer has two sides that do not see each other. A payload of at most the
chunk size looks at the small segments and nothing else, and so it comes to the
same in two packers that are alike on that side (`SmallAlike.write`); a longer
payload looks at the large segments (`LargeAlike.write`). There is one lemma for
each function that `write` is made of, and `OutcomesAlike.andThen` joins them as
`andThen` joins the functions.
-/

namespace Parcel

/-- The same fault, or two values that are alike. -/
inductive AnswersAlike {β : Type} (V : β → β → Prop) : Except Fault β → Except Fault β → Prop
  | error (fault : Fault) : AnswersAlike V (.error fault) (.error fault)
  | ok {a b : β} (h : V a b) : AnswersAlike V (.ok a) (.ok b)

theorem AnswersAlike.refl {β : Type} {V : β → β → Prop} (hV : ∀ b, V b b)
    (answer : Except Fault β) : AnswersAlike V answer answer := by
  cases answer with
  | error fault => exact .error fault
  | ok value => exact .ok (hV value)

theorem AnswersAlike.eq {β : Type} {a b : Except Fault β} (h : AnswersAlike Eq a b) : a = b := by
  cases h with
  | error _ => rfl
  | ok h => rw [h]

/-- Alike in what they answer and in what they leave, and the same in what they
report. -/
structure OutcomesAlike {σ β : Type} (R : σ → σ → Prop) (V : β → β → Prop)
    (o o' : Outcome σ β) : Prop where
  answer : AnswersAlike V o.answer o'.answer
  state : R o.state o'.state
  entries : o.entries = o'.entries

theorem OutcomesAlike.andThen {σ β γ : Type} {R : σ → σ → Prop} {V : β → β → Prop}
    {W : γ → γ → Prop} {o o' : Outcome σ β} {next next' : β → σ → Outcome σ γ}
    (h : OutcomesAlike R V o o')
    (hnext : ∀ a b s t, V a b → R s t → OutcomesAlike R W (next a s) (next' b t)) :
    OutcomesAlike R W (o.andThen next) (o'.andThen next') := by
  obtain ⟨answer, s, entries⟩ := o
  obtain ⟨answer', t, entries'⟩ := o'
  obtain ⟨hanswer, hstate, rfl⟩ := h
  cases hanswer with
  | error fault => exact ⟨.error fault, hstate, rfl⟩
  | @ok a b hvalue =>
      have hrest := hnext a b s t hvalue hstate
      exact ⟨hrest.answer, hrest.state, congrArg (entries ++ ·) hrest.entries⟩

/-- What has to agree for two packers to go the same way. -/
structure Likeness (α : Type) [Allocator α] where
  Allocators : α → α → Prop
  Segments : Segment → Segment → Prop
  Payloads : List UInt8 → List UInt8 → Prop
  allocate {a b : α} (size : UInt64) (h : Allocators a b) :
    AnswersAlike Segments (Allocator.allocate a size).1 (Allocator.allocate b size).1 ∧
      Allocators (Allocator.allocate a size).2 (Allocator.allocate b size).2
  size {s t : Segment} (h : Segments s t) : s.size = t.size
  access {s t : Segment} (h : Segments s t) :
    s.requestAccess.1 = t.requestAccess.1 ∧ Segments s.requestAccess.2 t.requestAccess.2
  overwrite {s t : Segment} {x y : List UInt8} (offset : Nat) (h : Segments s t)
    (hxy : Payloads x y) : Segments (s.overwrite offset x) (t.overwrite offset y)
  length {x y : List UInt8} (h : Payloads x y) : x.length = y.length

namespace Packer

variable {α : Type} [Allocator α] {L : Likeness α} {p q : Packer α} {x y : List UInt8}

structure ChunksAlike (L : Likeness α) (c d : Chunk) : Prop where
  segment : L.Segments c.segment d.segment
  used : c.used = d.used

/-- Alike as far as small payloads can tell. -/
structure SmallAlike (L : Likeness α) (p q : Packer α) : Prop where
  chunkSize : p.chunkSize = q.chunkSize
  allocators : L.Allocators p.allocator q.allocator
  filled : List.Forall₂ L.Segments p.filled q.filled
  current : Option.Rel (ChunksAlike L) p.current q.current

/-- Alike as far as large payloads can tell. -/
structure LargeAlike (L : Likeness α) (p q : Packer α) : Prop where
  chunkSize : p.chunkSize = q.chunkSize
  allocators : L.Allocators p.allocator q.allocator
  large : List.Forall₂ L.Segments p.large q.large

/-- A request depends on the allocator only, and it touches nothing else. -/
theorem acquire_alike {R : Packer α → Packer α → Prop}
    (h : L.Allocators p.allocator q.allocator)
    (hR : ∀ a b, L.Allocators a b → R { p with allocator := a } { q with allocator := b })
    (cls : SegmentClass) (size : Nat) :
    OutcomesAlike R L.Segments (p.acquire cls size) (q.acquire cls size) := by
  obtain ⟨hanswer, hnext⟩ := L.allocate (.ofNat size) h
  rw [acquire, acquire]
  generalize Allocator.allocate p.allocator (.ofNat size) = r at hanswer hnext
  generalize Allocator.allocate q.allocator (.ofNat size) = r' at hanswer hnext
  obtain ⟨answer, a⟩ := r
  obtain ⟨answer', b⟩ := r'
  have hstate : R { p with allocator := a } { q with allocator := b } := hR a b hnext
  -- Answers that are alike take both requests down the same branch.
  cases hanswer with
  | error fault => exact ⟨.error fault, hstate, rfl⟩
  | @ok s t hsegments =>
      have hsize := L.size hsegments
      obtain ⟨hgrant, hasked⟩ := L.access hsegments
      by_cases hshort : s.size < size
      · have hshort' : t.size < size := hsize ▸ hshort
        simp only [if_pos hshort', hsize]
        exact ⟨.error _, hstate, rfl⟩
      · have hshort' : ¬ t.size < size := hsize ▸ hshort
        simp only [if_neg hshort, if_neg hshort', hgrant]
        split
        · exact ⟨.ok hasked, hstate, by simp [hsize]⟩
        · exact ⟨.error _, hstate, rfl⟩

theorem write_of_le (hne : x ≠ []) (hshort : x.length ≤ p.chunkSize.bytes) :
    p.write x = p.writeSmall x := by
  have haddressable := p.chunkSize.addressable
  rw [write, if_neg (by simpa using hne), if_neg (by omega), if_neg (by omega)]

theorem write_of_lt (hlong : p.chunkSize.bytes < x.length) (hsize : x.length < UInt32.size) :
    p.write x = p.writeLarge x := by
  have hne : x ≠ [] := List.ne_nil_of_length_pos (by omega)
  rw [write, if_neg (by simpa using hne), if_neg (by omega), if_pos hlong]

theorem write_of_tooLong (hsize : UInt32.size ≤ x.length) :
    p.write x = ⟨.error (.allocation (.payloadTooLong x.length)), p, []⟩ := by
  have hne : x ≠ [] := List.ne_nil_of_length_pos (Nat.lt_of_lt_of_le (by decide) hsize)
  rw [write, if_neg (by simpa using hne), if_pos hsize]

/-! ## The small side -/

namespace SmallAlike

theorem small (h : SmallAlike L p q) : List.Forall₂ L.Segments p.small q.small := by
  refine List.rel_append h.filled ?_
  have hcurrent := h.current
  generalize p.current = c at hcurrent ⊢
  generalize q.current = d at hcurrent ⊢
  cases hcurrent with
  | none => exact .nil
  | some hchunks => exact .cons hchunks.segment .nil

theorem acquire (h : SmallAlike L p q) (cls : SegmentClass) (size : Nat) :
    OutcomesAlike (SmallAlike L) L.Segments (p.acquire cls size) (q.acquire cls size) :=
  acquire_alike h.allocators (fun _ _ hab => ⟨h.chunkSize, hab, h.filled, h.current⟩) cls size

theorem rotate (h : SmallAlike L p q) :
    OutcomesAlike (SmallAlike L) (ChunksAlike L) p.rotate q.rotate := by
  rw [Packer.rotate, Packer.rotate, ← h.small.length_eq, ← h.chunkSize]
  cases checkIndex p.small.length with
  | error fault => exact ⟨.error fault, h, rfl⟩
  | ok _ =>
      refine (h.acquire .small p.chunkSize.bytes).andThen fun s t p' q' hsegments h' => ?_
      have hchunks : ChunksAlike L ⟨s, 0⟩ ⟨t, 0⟩ := ⟨hsegments, rfl⟩
      exact ⟨.ok hchunks, ⟨h'.chunkSize, h'.allocators, h'.small, .some hchunks⟩, rfl⟩

theorem place (h : SmallAlike L p q) {c d : Chunk} (hchunks : ChunksAlike L c d)
    (hxy : L.Payloads x y) : OutcomesAlike (SmallAlike L) Eq (p.place c x) (q.place d y) := by
  obtain ⟨hgrant, hasked⟩ := L.access hchunks.segment
  have hused := hchunks.used
  have hlength := L.length hxy
  have hset : ∀ c' d', ChunksAlike L c' d' →
      SmallAlike L { p with current := some c' } { q with current := some d' } :=
    fun c' d' h' => ⟨h.chunkSize, h.allocators, h.filled, .some h'⟩
  cases hgranted : c.segment.requestAccess.1 with
  | false =>
      rw [place_of_refusal hgranted, place_of_refusal (hgrant ▸ hgranted)]
      exact ⟨.error _, hset _ _ ⟨hasked, hused⟩, rfl⟩
  | true =>
      rw [place_of_grant hgranted, place_of_grant (hgrant ▸ hgranted), ← h.filled.length_eq,
        ← hused, ← hlength]
      exact ⟨.ok rfl, hset _ _ ⟨L.overwrite _ hasked hxy, rfl⟩, rfl⟩

theorem writeSmall (h : SmallAlike L p q) (hxy : L.Payloads x y) :
    OutcomesAlike (SmallAlike L) Eq (p.writeSmall x) (q.writeSmall y) := by
  have hrotate : OutcomesAlike (SmallAlike L) Eq
      (p.rotate.andThen fun chunk p => p.place chunk x)
      (q.rotate.andThen fun chunk q => q.place chunk y) :=
    h.rotate.andThen fun _ _ _ _ hchunks h' => h'.place hchunks hxy
  have hcurrent := h.current
  rw [Packer.writeSmall, Packer.writeSmall]
  generalize p.current = c at hcurrent ⊢
  generalize q.current = d at hcurrent ⊢
  cases hcurrent with
  | none => exact hrotate
  | some hchunks =>
      simp only [← h.chunkSize, ← hchunks.used, ← L.length hxy]
      split
      · exact h.place hchunks hxy
      · exact hrotate

/-- A payload that fits into a chunk sees the small side only. -/
theorem write (h : SmallAlike L p q) (hxy : L.Payloads x y)
    (hshort : x.length ≤ p.chunkSize.bytes) :
    OutcomesAlike (SmallAlike L) Eq (p.write x) (q.write y) := by
  have hlength := L.length hxy
  by_cases hx : x = []
  · subst hx
    obtain rfl : y = [] := List.length_eq_zero_iff.1 hlength.symm
    exact ⟨.ok rfl, h, rfl⟩
  · have hy : y ≠ [] := fun hy => hx (List.length_eq_zero_iff.1 (by rw [hlength, hy]; rfl))
    rw [write_of_le hx hshort, write_of_le hy (by rw [← hlength, ← h.chunkSize]; exact hshort)]
    exact h.writeSmall hxy

end SmallAlike

/-! ## The large side -/

namespace LargeAlike

theorem acquire (h : LargeAlike L p q) (cls : SegmentClass) (size : Nat) :
    OutcomesAlike (LargeAlike L) L.Segments (p.acquire cls size) (q.acquire cls size) :=
  acquire_alike h.allocators (fun _ _ hab => ⟨h.chunkSize, hab, h.large⟩) cls size

theorem writeLarge (h : LargeAlike L p q) (hxy : L.Payloads x y) :
    OutcomesAlike (LargeAlike L) Eq (p.writeLarge x) (q.writeLarge y) := by
  rw [Packer.writeLarge, Packer.writeLarge, ← h.large.length_eq, ← L.length hxy]
  cases checkIndex p.large.length with
  | error fault => exact ⟨.error fault, h, rfl⟩
  | ok _ =>
      refine (h.acquire .large x.length).andThen fun s t p' q' hsegments h' => ?_
      obtain ⟨hgrant, hasked⟩ := L.access hsegments
      simp only [hgrant, ← h'.large.length_eq]
      split
      · have hlarge := List.rel_append h'.large (.cons (L.overwrite 0 hasked hxy) .nil)
        exact ⟨.ok rfl, ⟨h'.chunkSize, h'.allocators, hlarge⟩, rfl⟩
      · exact ⟨.error _, h', rfl⟩

/-- A payload that does not fit into a chunk sees the large side only. -/
theorem write (h : LargeAlike L p q) (hxy : L.Payloads x y)
    (hlong : p.chunkSize.bytes < x.length) :
    OutcomesAlike (LargeAlike L) Eq (p.write x) (q.write y) := by
  have hlength := L.length hxy
  have hlong' : q.chunkSize.bytes < y.length := by
    rw [← hlength, ← h.chunkSize]
    exact hlong
  by_cases hsize : x.length < UInt32.size
  · rw [write_of_lt hlong hsize, write_of_lt hlong' (hlength ▸ hsize)]
    exact h.writeLarge hxy
  · rw [write_of_tooLong (Nat.le_of_not_lt hsize),
      write_of_tooLong (hlength ▸ Nat.le_of_not_lt hsize), hlength]
    exact ⟨.error _, h, rfl⟩

end LargeAlike

/-! ## Both sides -/

/-- Alike on both sides. -/
structure Alike (L : Likeness α) (p q : Packer α) : Prop where
  small : SmallAlike L p q
  large : LargeAlike L p q

/-- A payload that fits into a chunk leaves the large segments alone. -/
theorem large_of_le (hshort : x.length ≤ p.chunkSize.bytes) :
    (p.write x).state.large = p.large := by
  have hwrites := write_writes p x
  generalize p.write x = o at hwrites
  cases hwrites with
  | empty _ => rfl
  | refused _ _ _ _ _ => rfl
  | placed _ _ _ _ _ hopen _ => exact hopen.large
  | withdrawn _ _ _ _ _ hopen _ => exact hopen.large
  | stored _ _ _ hlong _ _ _ _ => omega

/-- A longer one leaves the small segments alone, and the place in the last of them. -/
theorem small_of_lt (hlong : p.chunkSize.bytes < x.length) :
    (p.write x).state.filled = p.filled ∧ (p.write x).state.current = p.current := by
  have hwrites := write_writes p x
  generalize p.write x = o at hwrites
  cases hwrites with
  | empty _ => exact ⟨rfl, rfl⟩
  | refused _ _ _ _ _ => exact ⟨rfl, rfl⟩
  | placed _ _ _ _ hfit _ _ => omega
  | withdrawn _ _ _ _ hfit _ _ => omega
  | stored _ _ _ _ _ _ _ _ => exact ⟨rfl, rfl⟩

/-- Packers that are alike on both sides go the same way with every payload. -/
theorem Alike.write (h : Alike L p q) (hxy : L.Payloads x y) :
    OutcomesAlike (Alike L) Eq (p.write x) (q.write y) := by
  have hlength := L.length hxy
  by_cases hshort : x.length ≤ p.chunkSize.bytes
  · have hshort' : y.length ≤ q.chunkSize.bytes := by
      rw [← hlength, ← h.small.chunkSize]
      exact hshort
    obtain ⟨hanswer, hsmall, hentries⟩ := h.small.write hxy hshort
    have hlarge := h.large.large
    rw [← large_of_le hshort, ← large_of_le hshort'] at hlarge
    exact ⟨hanswer, ⟨hsmall, hsmall.chunkSize, hsmall.allocators, hlarge⟩, hentries⟩
  · have hlong := Nat.lt_of_not_le hshort
    have hlong' : q.chunkSize.bytes < y.length := by
      rw [← hlength, ← h.small.chunkSize]
      exact hlong
    obtain ⟨hanswer, hlarge, hentries⟩ := h.large.write hxy hlong
    obtain ⟨hfilled, hcurrent⟩ := small_of_lt hlong
    obtain ⟨hfilled', hcurrent'⟩ := small_of_lt hlong'
    have hsmall : SmallAlike L (p.write x).state (q.write y).state :=
      ⟨hlarge.chunkSize, hlarge.allocators, hfilled ▸ hfilled' ▸ h.small.filled,
        hcurrent ▸ hcurrent' ▸ h.small.current⟩
    exact ⟨hanswer, ⟨hsmall, hlarge⟩, hentries⟩

end Packer

end Parcel
