import Parcel.Proofs.BudgetRun

/-!
# What a budget caps

A budget counts what it is asked for. What it hands out is a different sum: an
allocator may answer with a longer segment than it was asked for, as one of
whole pages does nearly always, and then the segments that went through a budget
can be longer in total than its limit (`paged_exceeds_limit`).

How far they exceed it is known exactly. The bytes handed out since the last
reset are those asked for and the surplus of each segment, so that they stay
within the limit just as long as the surplus stays within what the budget says
remains (`handedOut_le_limit_iff`). Of allocators it is used only that they
answer with no less than they were asked for, which all of them do.
-/

namespace Parcel

/-- No segment is shorter than it was asked to be. -/
class LawfulAllocator (α : Type) [Allocator α] : Prop where
  size_le : ∀ {a a' : α} {size : UInt64} {segment : Segment},
    Allocator.allocate a size = (.ok segment, a') → size.toNat ≤ segment.size

theorem Segment.size_of_zeroed {size : UInt64} {segment : Segment}
    (h : Segment.zeroed size = .ok segment) : segment.size = size.toNat := by
  rw [zeroed] at h
  split at h
  · cases h
  · cases h
    exact List.length_replicate

theorem SharedMemory.length_of_newFile {name : String} {size : UInt64} {limits : SystemLimits}
    {file : List UInt8} (h : newFile name size limits = .ok file) :
    file.length = size.toNat := by
  rw [(eq_of_newFile h).1, List.length_replicate]

theorem Segment.size_of_shared {name : String} {size : UInt64} {limits : SystemLimits}
    {segment : Segment} (h : Segment.shared name size limits = .ok segment) :
    segment.size = size.toNat := by
  rw [shared] at h
  cases hfile : SharedMemory.newFile name size limits with
  | error fault => rw [hfile] at h; cases h
  | ok file =>
      rw [hfile] at h
      cases h
      exact SharedMemory.length_of_newFile hfile

/-- Rounding up takes nothing away, and a request for nothing gets something. -/
theorem PagedShared.le_size_of_newSegment {a : PagedShared} {size : UInt64} {segment : Segment}
    (h : a.newSegment size = .ok segment) : size.toNat ≤ segment.size := by
  rw [newSegment] at h
  split at h
  · cases h
  · next rounded hrounded =>
      have hmax : size.toNat ≤ (max size 1).toNat := by
        show size.toNat ≤ (if size ≤ 1 then 1 else size).toNat
        split
        · next hle => exact UInt64.le_iff_toNat_le.1 hle
        · exact Nat.le_refl _
      rw [Segment.size_of_shared h]
      exact Nat.le_trans hmax (le_of_roundUp? hrounded)

instance : LawfulAllocator Heap where
  size_le h := Nat.le_of_eq (Segment.size_of_zeroed (congrArg Prod.fst h)).symm

instance : LawfulAllocator PagedShared where
  size_le h := PagedShared.le_size_of_newSegment (congrArg Prod.fst h)

namespace Budgeted

variable {α : Type} [Allocator α]

instance [LawfulAllocator α] : LawfulAllocator (Budgeted α) where
  size_le h := LawfulAllocator.size_le (charged_of_ok (congrArg Prod.fst h)).1

def Honoured (grants : List Grant) : Prop := ∀ g ∈ grants, g.size.toNat ≤ g.segment.size

def handedOut (grants : List Grant) : Nat := (grants.map (·.segment.size)).foldr (· + ·) 0

/-- The bytes of them that nobody asked for. -/
def surplus (grants : List Grant) : Nat :=
  (grants.map fun g => g.segment.size - g.size.toNat).foldr (· + ·) 0

omit [Allocator α] in
/-- Segments that are long enough consist of what was asked for and a surplus. -/
theorem handedOut_eq {grants : List Grant} (h : Honoured grants) :
    handedOut grants = requested grants + surplus grants := by
  induction grants with
  | nil => rfl
  | cons g grants ih =>
      have hfirst := h g List.mem_cons_self
      have hrest := ih fun g' hg' => h g' (List.mem_cons_of_mem g hg')
      simp only [handedOut, requested, surplus, List.map_cons, List.foldr_cons] at hrest ⊢
      omega

theorem surplus_le {grants : List Grant} {k : Nat}
    (h : ∀ g ∈ grants, g.segment.size ≤ g.size.toNat + k) :
    surplus grants ≤ grants.length * k := by
  induction grants with
  | nil => exact Nat.zero_le _
  | cons g grants ih =>
      have hfirst := h g List.mem_cons_self
      have hrest := ih fun g' hg' => h g' (List.mem_cons_of_mem g hg')
      simp only [surplus, List.map_cons, List.foldr_cons, List.length_cons, Nat.succ_mul] at hrest ⊢
      omega

theorem honoured_turn [LawfulAllocator α] {depth : Nat} {grants : List Grant}
    (h : Honoured grants) (a : Budgeted α) (op : Op) :
    Honoured ((a.turn op).event.granted depth grants) := by
  cases op with
  | allocate size =>
      show Honoured (Event.granted depth grants (.answered size (Allocator.allocate a size).1))
      rcases hanswer : Allocator.allocate a size with ⟨fault | segment, a'⟩
      · exact h
      · intro g hg
        rcases List.mem_append.1 hg with hold | hnew
        · exact h g hold
        · rw [List.mem_singleton.1 hnew]
          exact LawfulAllocator.size_le hanswer
  | reset depth' =>
      show Honoured (if depth' = depth then [] else grants)
      split
      · exact fun g hg => by cases hg
      · exact h

theorem honoured_run [LawfulAllocator α] (base : α) (limits : List UInt64) (ops : List Op)
    (depth : Nat) : Honoured (granted depth ((ofLimits base limits).run ops).events) := by
  have hnew : Honoured [] := fun g hg => by cases hg
  exact @Turn.run_history _ _ _ turn _ _ (fun grants _ => Honoured grants)
    (fun _ a op h => honoured_turn h a op) _ (ofLimits base limits) hnew ops

/-- What a budget has handed out since its last reset. What was asked for never
exceeds the limit. What was handed out is that and the surplus, and so it exceeds
the limit just when the surplus exceeds what remains; it cannot exceed it by more
than a surplus in each segment, and not at all if no segment has one. -/
theorem handedOut_le_limit_iff [LawfulAllocator α] (base : α) (limits : List UInt64)
    (ops : List Op) {depth : Nat} {b : Budget}
    (hb : ((ofLimits base limits).run ops).state.budgets[depth]? = some b) :
    let grants := granted depth ((ofLimits base limits).run ops).events
    requested grants ≤ b.limit.toNat ∧
    handedOut grants = requested grants + surplus grants ∧
    (handedOut grants ≤ b.limit.toNat ↔ surplus grants ≤ b.remaining.toNat) ∧
    ∀ k, (∀ g ∈ grants, g.segment.size ≤ g.size.toNat + k) →
      handedOut grants ≤ b.limit.toNat + grants.length * k := by
  intro grants
  obtain ⟨hle, hused⟩ := accounts_run base limits ops depth b hb
  have hsum : handedOut grants = requested grants + surplus grants :=
    handedOut_eq (honoured_run base limits ops depth)
  have hremaining := Budget.toNat_remaining hle
  have hlimit := UInt64.le_iff_toNat_le.1 hle
  have hrequested : requested grants ≤ b.limit.toNat := by rwa [hused] at hlimit
  refine ⟨hrequested, hsum, ?_, fun k hk => ?_⟩
  · rw [hsum, hremaining, hused]
    show _ ↔ _ ≤ b.limit.toNat - requested grants
    omega
  · rw [hsum]
    exact Nat.add_le_add hrequested (surplus_le hk)

/-- What is obtained by asking for one byte of shared memory. -/
def freshPage : Segment := { bytes := List.replicate 4096 0, memory := .shared }

theorem size_freshPage : freshPage.size = 4096 := List.length_replicate

/-- Out of a budget of one page, two requests for a byte each get a page each. -/
theorem handedOut_two_pages :
    handedOut (granted 0 ((ofLimits ({} : PagedShared) [4096]).run
      [.allocate 1, .allocate 1]).events) = 8192 := by
  have hevents : ((ofLimits ({} : PagedShared) [4096]).run [.allocate 1, .allocate 1]).events =
      [.answered 1 (.ok freshPage), .answered 1 (.ok freshPage)] := rfl
  simp only [hevents, granted, Event.granted, List.foldl_cons, List.foldl_nil, handedOut,
    List.nil_append, List.cons_append, List.map_cons, List.map_nil, List.foldr_cons,
    List.foldr_nil, size_freshPage]

/-- A budget over whole pages counts two bytes, says that nearly all of it remains,
and has handed out twice its limit. -/
theorem handedOut_le_limit_iff_two_pages :
    ∃ b, ((ofLimits ({} : PagedShared) [4096]).run
        [.allocate 1, .allocate 1]).state.budgets[0]? = some b ∧
      b.limit = 4096 ∧ b.remaining = 4094 ∧
      ¬ surplus (granted 0 ((ofLimits ({} : PagedShared) [4096]).run
        [.allocate 1, .allocate 1]).events) ≤ 4094 := by
  obtain ⟨b, hb, hlimit, hremaining⟩ : ∃ b, ((ofLimits ({} : PagedShared) [4096]).run
      [.allocate 1, .allocate 1]).state.budgets[0]? = some b ∧
        b.limit = 4096 ∧ b.remaining = 4094 := ⟨_, rfl, rfl, rfl⟩
  obtain ⟨-, -, hiff, -⟩ :=
    handedOut_le_limit_iff ({} : PagedShared) [4096] [.allocate 1, .allocate 1] hb
  rw [handedOut_two_pages, hlimit, hremaining] at hiff
  refine ⟨b, hb, hlimit, hremaining, fun hsurplus => ?_⟩
  have hbound := hiff.2 hsurplus
  revert hbound
  decide

/-- That the allocator is lawful does not make a budget a cap on what is handed out. -/
theorem paged_exceeds_limit :
    ¬ ∀ (α : Type) [Allocator α] [LawfulAllocator α] (base : α) (limit : UInt64) (ops : List Op),
      handedOut (granted 0 ((ofLimits base [limit]).run ops).events) ≤ limit.toNat := by
  intro hcap
  have hbound := hcap PagedShared {} 4096 [.allocate 1, .allocate 1]
  rw [handedOut_two_pages] at hbound
  revert hbound
  decide

end Budgeted

end Parcel
