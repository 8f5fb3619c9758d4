import Mathlib.Algebra.Order.Floor.Div
import Mathlib.Order.Bounds.Basic
import Parcel.Proofs.BudgetCap
import Parcel.Proofs.PackerRun

/-!
# Whole pages

`roundUp?` adds the page less one and clears the low bits. Here it is held to what it is
for: its answer is the least multiple of the page that is not below the size, and it has
none just when that multiple is not a word (`roundUp?_eq_some_iff`, `roundUp?_eq_none_iff`).
Both come down to one number, `page * (size ⌈/⌉ page)`. The overflow test looks at another
number, but no multiple of the page lies between the two, and the first number that is
not a word is such a multiple (`size_le_padded_iff`).

An allocator of whole pages rounds first. What it hands out is as long as the least number
of pages that does, so that a packer never finds it too short. A request that cannot be
rounded is refused before the system is asked for a file: `newSegmentBy` is the same
allocation over a system that may be anything, and such a request leaves its state alone.
-/

namespace Parcel

/-! ## Rounding -/

/-- The multiples of the page that a size fits in. -/
def multiplesFrom (size page : Nat) : Set Nat := {n | page ∣ n ∧ size ≤ n}

theorem ceilDiv_eq_div {page : Nat} (hpage : 0 < page) (size : Nat) :
    size ⌈/⌉ page = (size + (page - 1)) / page := by
  rw [Nat.ceilDiv_eq_add_pred_div, ← Nat.add_sub_assoc hpage]

theorem isLeast_ceilDiv {page : Nat} (hpage : 0 < page) (size : Nat) :
    IsLeast (multiplesFrom size page) (page * (size ⌈/⌉ page)) := by
  refine ⟨⟨Nat.dvd_mul_right .., le_smul_ceilDiv hpage⟩, ?_⟩
  rintro n ⟨⟨pages, rfl⟩, hsize⟩
  exact Nat.mul_le_mul_left page ((ceilDiv_le_iff_le_mul hpage).2 hsize)

section

variable {size page : UInt64} {k : Nat}

theorem pos_of_pow (hpage : page.toNat = 2 ^ k) : 0 < page.toNat := by
  rw [hpage]
  exact Nat.two_pow_pos k

theorem toNat_pad (hpage : page.toNat = 2 ^ k) : (page - 1).toNat = page.toNat - 1 := by
  have hle : (1 : UInt64) ≤ page := UInt64.le_iff_toNat_le.2 (pos_of_pow hpage)
  rw [UInt64.toNat_sub_of_le _ _ hle]
  rfl

/-- Every number of words is a number of pages. -/
theorem page_dvd_size (hpage : page.toNat = 2 ^ k) : page.toNat ∣ UInt64.size := by
  have hk : k ≤ 64 := by
    have hlt := page.toNat_lt
    rw [hpage, Nat.pow_lt_pow_iff_right (by decide)] at hlt
    exact Nat.le_of_lt hlt
  rw [hpage]
  exact Nat.pow_dvd_pow 2 hk

/-- The padded size is a word just when the rounded one is. -/
theorem size_le_padded_iff (hpage : page.toNat = 2 ^ k) :
    UInt64.size ≤ size.toNat + (page - 1).toNat ↔
      UInt64.size ≤ page.toNat * (size.toNat ⌈/⌉ page.toNat) := by
  have hpos := pos_of_pow hpage
  obtain ⟨pages, hpages⟩ := page_dvd_size hpage
  rw [hpages, Nat.mul_le_mul_left_iff hpos, ceilDiv_eq_div hpos, Nat.le_div_iff_mul_le hpos,
    toNat_pad hpage, Nat.mul_comm]

/-- Clearing the low bits rounds down, so that the answer is the rounded size. -/
theorem toNat_of_roundUp? (hpage : page.toNat = 2 ^ k) {r : UInt64}
    (h : roundUp? size page = some r) :
    r.toNat = page.toNat * (size.toNat ⌈/⌉ page.toNat) := by
  simp only [roundUp?] at h
  split at h
  · next hword =>
      cases h
      have hsplit := toNat_mask_partition (size + (page - 1)) (page - 1)
      have hlow : ((size + (page - 1)) &&& (page - 1)).toNat =
          (size.toNat + (page.toNat - 1)) % page.toNat := by
        rw [UInt64.toNat_and, UInt64.toNat_add, Nat.mod_eq_of_lt hword, toNat_pad hpage, hpage,
          Nat.and_two_pow_sub_one_eq_mod]
      rw [hlow, UInt64.toNat_add, Nat.mod_eq_of_lt hword, toNat_pad hpage] at hsplit
      have hdiv := Nat.div_add_mod (size.toNat + (page.toNat - 1)) page.toNat
      rw [ceilDiv_eq_div (pos_of_pow hpage)]
      omega
  · cases h

theorem roundUp?_eq_none_iff_size (hpage : page.toNat = 2 ^ k) :
    roundUp? size page = none ↔
      UInt64.size ≤ page.toNat * (size.toNat ⌈/⌉ page.toNat) := by
  rw [← size_le_padded_iff hpage, roundUp?]
  simp only [ite_eq_right_iff, reduceCtorEq, imp_false, Nat.not_lt]

theorem roundUp?_eq_some_iff (hpage : page.toNat = 2 ^ k) {r : UInt64} :
    roundUp? size page = some r ↔
      IsLeast (multiplesFrom size.toNat page.toNat) r.toNat := by
  have hleast := isLeast_ceilDiv (pos_of_pow hpage) size.toNat
  constructor
  · intro h
    rw [toNat_of_roundUp? hpage h]
    exact hleast
  · intro h
    have hr := h.unique hleast
    cases hround : roundUp? size page with
    | none =>
        have hlarge := (roundUp?_eq_none_iff_size hpage).1 hround
        have hword : r.toNat < UInt64.size := r.toNat_lt
        omega
    | some r' =>
        rw [← toNat_of_roundUp? hpage hround] at hr
        rw [UInt64.toNat_inj.1 hr]

theorem roundUp?_eq_none_iff (hpage : page.toNat = 2 ^ k) :
    roundUp? size page = none ↔
      ∀ n ∈ multiplesFrom size.toNat page.toNat, UInt64.size ≤ n := by
  have hleast := isLeast_ceilDiv (pos_of_pow hpage) size.toNat
  rw [roundUp?_eq_none_iff_size hpage]
  exact ⟨fun h n hn => Nat.le_trans h (hleast.2 hn), fun h => h _ hleast.1⟩

end

/-! ## Allocators of whole pages -/

namespace PagedShared

/-- The same allocation over any system that makes files and has a state. -/
def newSegmentBy {σ : Type} (makeFile : String → UInt64 → σ → Except Fault Segment × σ)
    (a : PagedShared) (size : UInt64) (s : σ) : Except Fault Segment × σ :=
  match roundUp? (max size 1) a.page with
  | none => (.error (.allocation (.pastLastPage size.toNat)), s)
  | some rounded => makeFile a.name rounded s

variable {a : PagedShared} {size : UInt64} {k : Nat}

theorem newSegmentBy_shared {σ : Type} (a : PagedShared) (size : UInt64) (s : σ) :
    a.newSegmentBy (fun name size s => (Segment.shared name size a.limits, s)) size s =
      (a.newSegment size, s) := by
  rw [newSegmentBy, newSegment]
  cases roundUp? (max size 1) a.page with
  | none => rfl
  | some _ => rfl

theorem toNat_max_one (size : UInt64) : (max size 1).toNat = max size.toNat 1 := by
  show (if size ≤ 1 then 1 else size).toNat = max size.toNat 1
  split
  · next hle => exact (Nat.max_eq_right (UInt64.le_iff_toNat_le.1 hle)).symm
  · next hlt =>
      rw [UInt64.le_iff_toNat_le] at hlt
      exact (Nat.max_eq_left (Nat.le_of_not_le hlt)).symm

/-- The multiples that a request is served with: a request for nothing gets a page. -/
theorem multiplesFrom_max (size : UInt64) (page : Nat) :
    multiplesFrom (max size 1).toNat page = {n ∈ multiplesFrom size.toNat page | 0 < n} := by
  ext n
  rw [toNat_max_one]
  exact ⟨fun ⟨hpage, hmax⟩ => ⟨⟨hpage, (Nat.max_le.1 hmax).1⟩, (Nat.max_le.1 hmax).2⟩,
    fun ⟨⟨hpage, hsize⟩, hpos⟩ => ⟨hpage, Nat.max_le.2 ⟨hsize, hpos⟩⟩⟩

theorem isLeast_size_of_newSegment (hpage : a.page.toNat = 2 ^ k) {segment : Segment}
    (h : a.newSegment size = .ok segment) :
    IsLeast {n ∈ multiplesFrom size.toNat a.page.toNat | 0 < n} segment.size := by
  rw [newSegment] at h
  split at h
  · cases h
  · next rounded hrounded =>
      rw [Segment.size_of_shared h, ← multiplesFrom_max]
      exact (roundUp?_eq_some_iff hpage).1 hrounded

/-- A request that cannot be rounded does not get as far as the system. -/
theorem newSegmentBy_of_unroundable {σ : Type} (hpage : a.page.toNat = 2 ^ k)
    (h : ∀ n ∈ multiplesFrom size.toNat a.page.toNat, 0 < n → UInt64.size ≤ n)
    (makeFile : String → UInt64 → σ → Except Fault Segment × σ) (s : σ) :
    a.newSegmentBy makeFile size s = (.error (.allocation (.pastLastPage size.toNat)), s) := by
  have hnone : roundUp? (max size 1) a.page = none := by
    rw [roundUp?_eq_none_iff hpage, multiplesFrom_max]
    exact fun n hn => h n hn.1 hn.2
  rw [newSegmentBy, hnone]

/-- Whatever an allocator of whole pages complains of, it is not the length of a segment. -/
theorem newSegment_ne_undersized (a : PagedShared) (size : UInt64) (cls : SegmentClass)
    (obtained needed : Nat) :
    a.newSegment size ≠ .error (.allocation (.undersized cls obtained needed)) := by
  intro h
  rw [newSegment] at h
  split at h
  · cases h
  · next rounded _ =>
      rw [Segment.shared] at h
      rcases SharedMemory.newFile_cases a.name rounded a.limits with
        ⟨hfile, -⟩ | hfile | ⟨_, hfile⟩ | ⟨_, hfile⟩ <;>
        rw [hfile] at h <;> cases h

end PagedShared

/-! ## Packers over them -/

namespace Packer

variable {α : Type} [Allocator α] [LawfulAllocator α] {p : Packer α} {cls : SegmentClass}
  {obtained needed : Nat}

/-- A packer over a lawful allocator finds no segment too short by itself. -/
theorem undersized_of_acquire {cls' : SegmentClass} {size : Nat} (hword : size < UInt64.size)
    (h : (p.acquire cls' size).answer = .error (.allocation (.undersized cls obtained needed))) :
    (Allocator.allocate p.allocator (.ofNat size)).1 =
      .error (.allocation (.undersized cls obtained needed)) := by
  have hacquires := acquire_acquires p cls' size
  generalize p.acquire cls' size = o at hacquires h
  cases hacquires with
  | failed fault _ hanswer => cases h; exact congrArg Prod.fst hanswer
  | undersized segment _ hanswer hsize =>
      have hlong := LawfulAllocator.size_le hanswer
      rw [UInt64.toNat_ofNat_of_lt' hword] at hlong
      exact absurd hsize (Nat.not_lt_of_le hlong)
  | readOnly _ _ _ _ _ => cases h
  | granted _ _ _ _ _ => cases h

theorem undersized_of_write {payload : List UInt8}
    (h : (p.write payload).answer = .error (.allocation (.undersized cls obtained needed))) :
    ∃ size, (Allocator.allocate p.allocator size).1 =
      .error (.allocation (.undersized cls obtained needed)) := by
  have hwords : UInt32.size < UInt64.size := by decide
  have hwrites := write_writes p payload
  generalize p.write payload = o at hwrites h
  cases hwrites with
  | empty _ => cases h
  | placed _ _ _ _ _ _ _ => cases h
  | withdrawn _ _ _ _ _ _ _ => cases h
  | stored _ _ _ _ _ _ _ _ => cases h
  | refused _ _ _ _ hrefuses =>
      cases h
      cases hrefuses with
      | smallSegment _ _ _ _ _ _ hacquire =>
          exact ⟨_, undersized_of_acquire (Nat.lt_trans p.chunkSize.addressable hwords)
            (congrArg Outcome.answer hacquire)⟩
      | largeSegment _ _ _ _ hshort _ hacquire =>
          exact ⟨_, undersized_of_acquire (Nat.lt_trans hshort hwords)
            (congrArg Outcome.answer hacquire)⟩

theorem undersized_of_run {ops : List Op} {payload : List UInt8}
    (h : .wrote payload (.error (.allocation (.undersized cls obtained needed))) ∈
      (p.run ops).events) :
    ∃ (a : α) (size : UInt64), (Allocator.allocate a size).1 =
      .error (.allocation (.undersized cls obtained needed)) := by
  rw [run, Turn.run_events] at h
  obtain ⟨⟨s, op⟩, -, hevent⟩ := List.mem_map.1 h
  rw [turn_of_payload (payload?_of_event hevent), Event.wrote.injEq] at hevent
  exact ⟨s.allocator, undersized_of_write hevent.2⟩

end Packer

/-- Rounding up is exact for every page that is a power of two, at the end of the words as
elsewhere: its answer is the least multiple that the size fits in, and there is none just
when no such multiple is a word. Segments of whole pages are therefore as long as the least
number of pages, one at least, that the request fits in. A request for which there is no
such number is refused as it stands, and no file is made for it, whatever the system is like.
And no write to a packer over such an allocator fails because a segment is too short. -/
theorem page_rounding_exact {page : UInt64} {k : Nat} (hpage : page.toNat = 2 ^ k) :
    (∀ size r, roundUp? size page = some r ↔
      IsLeast (multiplesFrom size.toNat page.toNat) r.toNat) ∧
    (∀ size, roundUp? size page = none ↔
      ∀ n ∈ multiplesFrom size.toNat page.toNat, UInt64.size ≤ n) ∧
    (∀ name limits size,
      let a : PagedShared := { name, page, limits }
      (∀ segment, (Allocator.allocate a size).1 = .ok segment →
        IsLeast {n ∈ multiplesFrom size.toNat page.toNat | 0 < n} segment.size) ∧
      (∀ (σ : Type) (s : σ),
        a.newSegmentBy (fun name size s => (Segment.shared name size limits, s)) size s =
          ((Allocator.allocate a size).1, s)) ∧
      ((∀ n ∈ multiplesFrom size.toNat page.toNat, 0 < n → UInt64.size ≤ n) →
        (Allocator.allocate a size).1 = .error (.allocation (.pastLastPage size.toNat)) ∧
        ∀ (σ : Type) (makeFile : String → UInt64 → σ → Except Fault Segment × σ) (s : σ),
          a.newSegmentBy makeFile size s =
            (.error (.allocation (.pastLastPage size.toNat)), s))) ∧
    ∀ (p : Packer PagedShared) (ops : List Packer.Op) payload cls obtained needed,
      .wrote payload (.error (.allocation (.undersized cls obtained needed))) ∉
        (p.run ops).events := by
  refine ⟨fun size r => roundUp?_eq_some_iff hpage, fun size => roundUp?_eq_none_iff hpage,
    fun name limits size => ?_, fun p ops payload cls obtained needed h => ?_⟩
  · intro a
    refine ⟨fun segment => PagedShared.isLeast_size_of_newSegment hpage,
      fun σ s => a.newSegmentBy_shared size s, fun hlarge => ?_⟩
    have hrefused := @PagedShared.newSegmentBy_of_unroundable a size k
    refine ⟨?_, fun σ makeFile s => hrefused hpage hlarge makeFile s⟩
    have hsystem := hrefused hpage hlarge
      (fun name size s => (Segment.shared name size limits, s)) ()
    rw [a.newSegmentBy_shared size ()] at hsystem
    exact congrArg Prod.fst hsystem
  · obtain ⟨a, size, hanswer⟩ := Packer.undersized_of_run h
    exact a.newSegment_ne_undersized size cls obtained needed hanswer

/-- The start of the last page of all is rounded to itself and the byte behind it to nothing;
one byte more than a page takes two pages. -/
theorem page_rounding_exact_last_page :
    (4096 : UInt64).toNat = 2 ^ 12 ∧
    roundUp? 0xfffffffffffff000 4096 = some 0xfffffffffffff000 ∧
    IsLeast (multiplesFrom 0xfffffffffffff000 4096) 0xfffffffffffff000 ∧
    roundUp? 0xfffffffffffff001 4096 = none ∧
    (Allocator.allocate ({} : PagedShared) 0xfffffffffffff001).1 =
      .error (.allocation (.pastLastPage 0xfffffffffffff001)) ∧
    ∃ segment, (Allocator.allocate ({} : PagedShared) 4097).1 = .ok segment ∧
      IsLeast {n ∈ multiplesFrom 4097 4096 | 0 < n} segment.size := by
  have hpage : (4096 : UInt64).toNat = 2 ^ 12 := rfl
  obtain ⟨hsome, hnone, hpages, -⟩ := page_rounding_exact hpage
  have hlast : roundUp? 0xfffffffffffff000 4096 = some 0xfffffffffffff000 := rfl
  have hbehind : roundUp? 0xfffffffffffff001 4096 = none := rfl
  obtain ⟨-, -, hrefused⟩ := hpages "ferry" {} 0xfffffffffffff001
  obtain ⟨segment, hsegment⟩ : ∃ segment,
      (Allocator.allocate ({} : PagedShared) 4097).1 = .ok segment := ⟨_, rfl⟩
  exact ⟨hpage, hlast, (hsome _ _).1 hlast, hbehind,
    (hrefused fun n hn _ => (hnone _).1 hbehind n hn).1, segment, hsegment,
    (hpages "ferry" {} 4097).1 segment hsegment⟩

end Parcel
