import Mathlib.Data.List.Forall2
import Parcel.Memory.Budget
import Parcel.Proofs.Runs

/-!
# Budgets account for what they let through

A request goes through a stack of budgets from the outside in. Each budget on
the way reserves it, and what was reserved is given back on the way out if
something further in says no. Between two requests nothing of this is to be
seen: `Takes` lists the three things that a request can come to, and in none of
them is a reservation left over. Either there is a budget without room, and then
the outermost one of these answers and nobody behind it was asked; or all have
room and the base refuses; or the base grants, and every budget has been charged
with exactly what was asked for.

A run of requests and resets is summed up for each budget by the grants since it
was last reset (`granted`). That the sizes of these grants add up to what the
budget says it has used, and that this never exceeds its limit, is the invariant
(`Accounts`); the sums are sums of numbers, so that no word has wrapped around.
-/

namespace Parcel

namespace Budget

/-- The request fits into what is left. The sum is a number and does not wrap. -/
def HasRoom (b : Budget) (size : UInt64) : Prop :=
  b.used.toNat + size.toNat ≤ b.limit.toNat

def charge (b : Budget) (size : UInt64) : Budget := { b with used := b.used + size }

theorem toNat_used_charge {b : Budget} {size : UInt64} (h : b.HasRoom size) :
    (b.charge size).used.toNat = b.used.toNat + size.toNat := by
  have hlimit := b.limit.toNat_lt
  rw [HasRoom] at h
  rw [charge, UInt64.toNat_add, Nat.mod_eq_of_lt (by omega)]

theorem reserve?_of_room {b : Budget} {size : UInt64} (h : b.HasRoom size) :
    b.reserve? size = some (b.charge size) := by
  have hlimit : b.limit.toNat < UInt64.size := b.limit.toNat_lt
  have hsum := toNat_used_charge h
  rw [HasRoom] at h
  refine if_pos ⟨by omega, ?_⟩
  rw [UInt64.le_iff_toNat_le]
  exact Nat.le_trans (Nat.le_of_eq hsum) h

theorem reserve?_of_full {b : Budget} {size : UInt64} (h : ¬ b.HasRoom size) :
    b.reserve? size = none := by
  refine if_neg ?_
  rintro ⟨hword, hle⟩
  rw [UInt64.le_iff_toNat_le, UInt64.toNat_add, Nat.mod_eq_of_lt hword] at hle
  exact h hle

theorem toNat_remaining {b : Budget} (h : b.used ≤ b.limit) :
    b.remaining.toNat = b.limit.toNat - b.used.toNat := by
  rw [remaining, if_pos h, UInt64.toNat_sub_of_le _ _ h]

theorem hasRoom_iff {b : Budget} (h : b.used ≤ b.limit) {size : UInt64} :
    b.HasRoom size ↔ size ≤ b.remaining := by
  have hused := UInt64.le_iff_toNat_le.1 h
  rw [UInt64.le_iff_toNat_le, toNat_remaining h, HasRoom]
  omega

/-- A reservation is an exact sum, and what is given back of it was there to be
given back. -/
theorem toNat_used_reserved {b reserved : Budget} {size : UInt64}
    (h : b.reserve? size = some reserved) :
    reserved.used.toNat = b.used.toNat + size.toNat ∧
      (reserved.refund size).used.toNat + size.toNat = reserved.used.toNat := by
  have hsum : reserved.used.toNat = b.used.toNat + size.toNat := by
    by_cases hroom : b.HasRoom size
    · rw [reserve?_of_room hroom] at h
      cases h
      exact toNat_used_charge hroom
    · rw [reserve?_of_full hroom] at h
      cases h
  exact ⟨hsum, by rw [refund_reserve h, hsum]⟩

end Budget

namespace Budgeted

variable {α : Type}

section

variable [Allocator α]

/-! ## One request -/

/-- The outcomes of a request. -/
inductive Takes (a : Budgeted α) (size : UInt64) : Except Fault Segment × Budgeted α → Prop
  | full (outer inner : List Budget) (b : Budget) (hbudgets : a.budgets = outer ++ b :: inner)
      (houter : ∀ o ∈ outer, o.HasRoom size) (hfull : ¬ b.HasRoom size) :
      Takes a size (.error (b.exhausted size), a)
  | refused (fault : Fault) (base : α) (hroom : ∀ b ∈ a.budgets, b.HasRoom size)
      (hanswer : Allocator.allocate a.base size = (.error fault, base)) :
      Takes a size (.error fault, { a with base })
  | granted (segment : Segment) (base : α) (hroom : ∀ b ∈ a.budgets, b.HasRoom size)
      (hanswer : Allocator.allocate a.base size = (.ok segment, base)) :
      Takes a size (.ok segment, { base, budgets := a.budgets.map (·.charge size) })

theorem allocate_cons_of_full (base : α) {b : Budget} (rest : List Budget) {size : UInt64}
    (h : ¬ b.HasRoom size) :
    Allocator.allocate (Budgeted.mk base (b :: rest)) size =
      (.error (b.exhausted size), ⟨base, b :: rest⟩) := by
  show (let r := allocateWithin base size (b :: rest); (r.1, Budgeted.mk r.2.2 r.2.1)) = _
  rw [allocateWithin, Budget.reserve?_of_full h]

/-- A budget with room leaves the answer to those behind it, and has been charged
only if they grant the request. -/
theorem allocate_cons_of_room (base : α) {b : Budget} (rest : List Budget) {size : UInt64}
    (h : b.HasRoom size) :
    Allocator.allocate (Budgeted.mk base (b :: rest)) size =
      match Allocator.allocate (Budgeted.mk base rest) size with
      | (.ok segment, a) => (.ok segment, ⟨a.base, b.charge size :: a.budgets⟩)
      | (.error fault, a) => (.error fault, ⟨a.base, b :: a.budgets⟩) := by
  have hreserve := Budget.reserve?_of_room h
  have hrefund := Budget.refund_reserve hreserve
  show (let r := allocateWithin base size (b :: rest); (r.1, Budgeted.mk r.2.2 r.2.1)) =
    match (let r := allocateWithin base size rest; (r.1, Budgeted.mk r.2.2 r.2.1)) with
    | (.ok segment, a) => (.ok segment, ⟨a.base, b.charge size :: a.budgets⟩)
    | (.error fault, a) => (.error fault, ⟨a.base, b :: a.budgets⟩)
  rw [allocateWithin, hreserve]
  rcases allocateWithin base size rest with ⟨answer | segment, budgets, base'⟩
  · simp only [hrefund]
  · rfl

/-- The list of outcomes is complete. -/
theorem allocate_takes (a : Budgeted α) (size : UInt64) :
    Takes a size (Allocator.allocate a size) := by
  -- Behind the outermost budget stands a stack like any other.
  obtain ⟨base, budgets⟩ := a
  induction budgets with
  | nil =>
      show Takes _ size ((Allocator.allocate base size).1, ⟨(Allocator.allocate base size).2, []⟩)
      rcases hanswer : Allocator.allocate base size with ⟨fault | segment, base'⟩
      · exact .refused fault base' (by simp) hanswer
      · exact .granted segment base' (by simp) hanswer
  | cons b rest ih =>
      by_cases hroom : b.HasRoom size
      · rw [allocate_cons_of_room base rest hroom]
        generalize Allocator.allocate (Budgeted.mk base rest) size = r at ih
        cases ih with
        | full outer inner b' hrest houter hfull =>
            refine .full (b :: outer) inner b' (congrArg (b :: ·) hrest) ?_ hfull
            simpa [hroom] using houter
        | refused fault base' hrest hanswer =>
            exact .refused fault base' (by simpa [hroom] using hrest) hanswer
        | granted segment base' hrest hanswer =>
            exact .granted segment base' (by simpa [hroom] using hrest) hanswer
      · rw [allocate_cons_of_full base rest hroom]
        exact .full [] rest b rfl (by simp) hroom

theorem allocate_ok_iff (a : Budgeted α) (size : UInt64) :
    (∃ segment, (Allocator.allocate a size).1 = .ok segment) ↔
      (∀ b ∈ a.budgets, b.HasRoom size) ∧
        ∃ segment, (Allocator.allocate a.base size).1 = .ok segment := by
  have htakes := allocate_takes a size
  generalize Allocator.allocate a size = r at htakes
  cases htakes with
  | full outer inner b hbudgets _ hfull =>
      constructor
      · rintro ⟨segment, h⟩
        cases h
      · rintro ⟨hroom, -⟩
        exact absurd (hroom b (by simp [hbudgets])) hfull
  | refused fault base _ hanswer =>
      constructor
      · rintro ⟨segment, h⟩
        cases h
      · rintro ⟨-, segment, h⟩
        rw [hanswer] at h
        cases h
  | granted segment base hroom hanswer =>
      exact ⟨fun _ => ⟨hroom, segment, congrArg Prod.fst hanswer⟩, fun _ => ⟨segment, rfl⟩⟩

/-- A grant is that of the base, and every budget is charged with what was asked for. -/
theorem charged_of_ok {a : Budgeted α} {size : UInt64} {segment : Segment}
    (h : (Allocator.allocate a size).1 = .ok segment) :
    Allocator.allocate a.base size = (.ok segment, (Allocator.allocate a size).2.base) ∧
      List.Forall₂ (fun b b' => b'.limit = b.limit ∧
          b'.used.toNat = b.used.toNat + size.toNat)
        a.budgets (Allocator.allocate a size).2.budgets := by
  have htakes := allocate_takes a size
  generalize Allocator.allocate a size = r at htakes h
  cases htakes with
  | full _ _ _ _ _ _ => cases h
  | refused _ _ _ _ => cases h
  | granted segment base hroom hanswer =>
      cases h
      refine ⟨hanswer, ?_⟩
      rw [List.forall₂_map_right_iff, List.forall₂_same]
      exact fun b hb => ⟨rfl, Budget.toNat_used_charge (hroom b hb)⟩

/-- A request that fails leaves the budgets as they were, and asks the base only if
all of them have room. -/
theorem kept_of_fault {a : Budgeted α} {size : UInt64} {fault : Fault}
    (h : (Allocator.allocate a size).1 = .error fault) :
    (Allocator.allocate a size).2.budgets = a.budgets ∧
      ((∃ outer b inner, a.budgets = outer ++ b :: inner ∧
          (∀ o ∈ outer, o.HasRoom size) ∧ ¬ b.HasRoom size ∧
          fault = b.exhausted size ∧ (Allocator.allocate a size).2.base = a.base) ∨
        (∀ b ∈ a.budgets, b.HasRoom size) ∧
          Allocator.allocate a.base size =
            (.error fault, (Allocator.allocate a size).2.base)) := by
  have htakes := allocate_takes a size
  generalize Allocator.allocate a size = r at htakes h
  cases htakes with
  | full outer inner b hbudgets houter hfull =>
      cases h
      exact ⟨rfl, .inl ⟨outer, b, inner, hbudgets, houter, hfull, rfl, rfl⟩⟩
  | refused fault base hroom hanswer =>
      cases h
      exact ⟨rfl, .inr ⟨hroom, hanswer⟩⟩
  | granted _ _ _ _ => cases h

/-! ## Runs -/

inductive Op
  | allocate (size : UInt64)
  | reset (depth : Nat)

/-- What the caller of an operation sees. -/
inductive Event
  | answered (size : UInt64) (answer : Except Fault Segment)
  | reset (depth : Nat)

def turn (a : Budgeted α) : Op → Turn (Budgeted α) Event
  | .allocate size =>
    let (answer, a) := Allocator.allocate a size
    ⟨.answered size answer, a, []⟩
  | .reset depth => ⟨.reset depth, a.reset depth, []⟩

def run (a : Budgeted α) (ops : List Op) : Run (Budgeted α) Event :=
  Turn.run turn a ops

end

def ofLimits (base : α) (limits : List UInt64) : Budgeted α :=
  { base, budgets := limits.map fun limit => { limit } }

/-- A request that was let through, with the segment that it was answered with. -/
structure Grant where
  size : UInt64
  segment : Segment

/-- The grants that count against the budget number `depth` after one more event,
if these did before. -/
def Event.granted (depth : Nat) (grants : List Grant) : Event → List Grant
  | .answered size (.ok segment) => grants ++ [⟨size, segment⟩]
  | .answered _ (.error _) => grants
  | .reset depth' => if depth' = depth then [] else grants

/-- The grants since the last reset of the budget number `depth`. -/
def granted (depth : Nat) (events : List Event) : List Grant :=
  events.foldl (Event.granted depth) []

def requested (grants : List Grant) : Nat := (grants.map (·.size.toNat)).foldr (· + ·) 0

theorem requested_concat (grants : List Grant) (g : Grant) :
    requested (grants ++ [g]) = requested grants + g.size.toNat := by
  rw [requested, List.map_append]
  exact List.sum_append_nat

/-- What the budget number `depth` says it has used are the grants, and it is no
more than its limit. -/
def Accounts (depth : Nat) (grants : List Grant) (a : Budgeted α) : Prop :=
  ∀ b, a.budgets[depth]? = some b →
    b.used ≤ b.limit ∧ b.used.toNat = requested grants

theorem accounts_ofLimits (base : α) (limits : List UInt64) (depth : Nat) :
    Accounts depth [] (ofLimits base limits) := by
  intro b hb
  rw [ofLimits, List.getElem?_map, Option.map_eq_some_iff] at hb
  obtain ⟨limit, -, rfl⟩ := hb
  exact ⟨UInt64.le_iff_toNat_le.2 (Nat.zero_le _), rfl⟩

theorem accounts_allocate [Allocator α] {depth : Nat} {grants : List Grant} {a : Budgeted α}
    (h : Accounts depth grants a) (size : UInt64) :
    Accounts depth (Event.granted depth grants (.answered size (Allocator.allocate a size).1))
      (Allocator.allocate a size).2 := by
  have htakes := allocate_takes a size
  generalize Allocator.allocate a size = r at htakes
  cases htakes with
  | full _ _ _ _ _ _ => exact h
  | refused _ _ _ _ => exact h
  | granted segment base hroom _ =>
      intro b' hb'
      rw [List.getElem?_map, Option.map_eq_some_iff] at hb'
      obtain ⟨b, hb, rfl⟩ := hb'
      have hfits := hroom b (List.mem_of_getElem? hb)
      have hcharged := Budget.toNat_used_charge hfits
      constructor
      · rw [UInt64.le_iff_toNat_le, hcharged]
        exact hfits
      · show _ = requested (grants ++ [⟨size, segment⟩])
        rw [hcharged, (h b hb).2, requested_concat]

/-- A reset starts its own budget afresh and touches no other one. -/
theorem accounts_reset {depth : Nat} {grants : List Grant} {a : Budgeted α}
    (h : Accounts depth grants a) (depth' : Nat) :
    Accounts depth (Event.granted depth grants (.reset depth')) (a.reset depth') := by
  intro b' hb'
  rw [reset, List.getElem?_modify, Option.map_eq_map, Option.map_eq_some_iff] at hb'
  obtain ⟨b, hb, rfl⟩ := hb'
  rw [Event.granted]
  split
  · exact ⟨UInt64.le_iff_toNat_le.2 (Nat.zero_le _), rfl⟩
  · exact h b hb

section

variable [Allocator α]

theorem accounts_turn {depth : Nat} {grants : List Grant} {a : Budgeted α}
    (h : Accounts depth grants a) (op : Op) :
    Accounts depth ((a.turn op).event.granted depth grants) (a.turn op).state := by
  cases op with
  | allocate size => exact accounts_allocate h size
  | reset depth' => exact accounts_reset h depth'

theorem accounts_run (base : α) (limits : List UInt64) (ops : List Op) (depth : Nat) :
    Accounts depth (granted depth ((ofLimits base limits).run ops).events)
      ((ofLimits base limits).run ops).state := by
  have hturn : ∀ grants (a : Budgeted α) op, Accounts depth grants a →
      Accounts depth (Event.granted depth grants (a.turn op).event) (a.turn op).state :=
    fun _ _ op h => accounts_turn h op
  exact Turn.run_history hturn (accounts_ofLimits base limits depth) ops

theorem limits_turn (a : Budgeted α) (op : Op) :
    (a.turn op).state.budgets.map Budget.limit = a.budgets.map Budget.limit := by
  cases op with
  | allocate size =>
      show (Allocator.allocate a size).2.budgets.map Budget.limit = _
      have htakes := allocate_takes a size
      generalize Allocator.allocate a size = r at htakes
      cases htakes with
      | full _ _ _ _ _ _ => rfl
      | refused _ _ _ _ => rfl
      | granted _ _ _ _ => simp [Budget.charge]
  | reset depth =>
      show (a.budgets.modify depth Budget.reset).map Budget.limit = _
      refine List.ext_getElem? fun i => ?_
      simp only [List.getElem?_map, List.getElem?_modify, Option.map_eq_map, Option.map_map]
      congr 1
      funext b
      simp only [Function.comp_apply]
      split <;> rfl

theorem limits_run (base : α) (limits : List UInt64) (ops : List Op) :
    ((ofLimits base limits).run ops).state.budgets.map Budget.limit = limits := by
  rw [run]
  have hturn : ∀ (a : Budgeted α) op, a.budgets.map Budget.limit = limits →
      (a.turn op).state.budgets.map Budget.limit = limits :=
    fun a op h => (limits_turn a op).trans h
  exact Turn.run_invariant hturn (by simp [ofLimits, Function.comp_def]) ops

end

end Budgeted

end Parcel
