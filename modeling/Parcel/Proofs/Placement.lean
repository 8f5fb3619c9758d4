import Parcel.Memory.Address

/-!
# Payloads laid end to end

What a caller has of its payloads is a list of placements: the payloads in call
order, each with the address that it was given. This file is about such lists
alone. `content` gathers the bytes that a segment has to hold if the addresses
are right, and `Laid` says that every payload was given the right one: a small
payload starts where those before it in its segment end, and a large one takes
the next index.

Everything about how payloads lie follows from that. The bytes that addresses
reach in a segment are the bytes from its start up to the length of its content,
with no gap (`Laid.reaches_iff`), no byte is reached by two addresses
(`Laid.pairwise_apart`), and the segments of small payloads are filled one after
another (`Laid.pairwise_ordered`). The empty payload lies nowhere.
-/

namespace Parcel

/-- The byte at the place `k` of the `i`-th segment of a class belongs to the run
of the address. -/
def Address.Reaches (a : Address) (cls : SegmentClass) (i k : Nat) : Prop :=
  a.cls = cls ∧ a.index.toNat = i ∧ a.offset.toNat ≤ k ∧ k < a.stop

/-- No byte belongs to both. -/
def Address.Apart (a b : Address) : Prop :=
  ∀ cls i k, ¬ (a.Reaches cls i k ∧ b.Reaches cls i k)

/-- A payload that was written, and the address that the writer answered with. -/
structure Placement where
  address : Address
  payload : List UInt8

namespace Placement

/-- Not empty, and no longer than a chunk. -/
def Small (c : Nat) (x : Placement) : Prop := x.payload ≠ [] ∧ x.payload.length ≤ c

instance (c : Nat) (x : Placement) : Decidable (x.Small c) := inferInstanceAs (Decidable (_ ∧ _))

/-- The payloads that share the `i`-th small segment, one behind the other. -/
def smallBytes (c i : Nat) (xs : List Placement) : List UInt8 :=
  (xs.filter fun x => x.payload.length ≤ c && x.address.index.toNat == i).flatMap payload

/-- The payloads that are longer than a chunk, in call order. -/
def largePayloads (c : Nat) (xs : List Placement) : List (List UInt8) :=
  (xs.filter fun x => c < x.payload.length).map payload

/-- The bytes that payloads put into a segment, from its start on. -/
def content (c : Nat) (xs : List Placement) : SegmentClass → Nat → List UInt8
  | .small, i => smallBytes c i xs
  | .large, j => (largePayloads c xs).getD j []

/-- `x` was given the right address, after `before`. -/
inductive Placed (c : Nat) (before : List Placement) (x : Placement) : Prop
  | empty (hpayload : x.payload = []) (haddress : x.address = .empty)
  | small (hsmall : x.Small c) (hcls : x.address.cls = .small)
      (hlength : x.address.length.toNat = x.payload.length)
      (hoffset : x.address.offset.toNat =
        (smallBytes c x.address.index.toNat before).length)
      (horder : ∀ y ∈ before, y.Small c → y.address.index.toNat ≤ x.address.index.toNat)
  | large (hlong : c < x.payload.length) (hcls : x.address.cls = .large)
      (hindex : x.address.index.toNat = (largePayloads c before).length)
      (hoffset : x.address.offset = 0)
      (hlength : x.address.length.toNat = x.payload.length)

/-- Every payload was given the right address, after those before it. -/
inductive Laid (c : Nat) : List Placement → Prop
  | nil : Laid c []
  | concat {xs : List Placement} {x : Placement} (hxs : Laid c xs) (hx : Placed c xs x) :
      Laid c (xs ++ [x])

variable {c : Nat} {xs : List Placement} {x : Placement}

/-! ## The content of segments, one payload at a time -/

/-- A payload joins the content of the segment that its index names. -/
theorem smallBytes_concat_self {i : Nat} (hi : x.address.index.toNat = i)
    (hfit : x.payload.length ≤ c) :
    smallBytes c i (xs ++ [x]) = smallBytes c i xs ++ x.payload := by
  simp [smallBytes, hi, hfit]

theorem smallBytes_concat_of_ne {i : Nat} (h : x.address.index.toNat ≠ i) :
    smallBytes c i (xs ++ [x]) = smallBytes c i xs := by
  simp [smallBytes, h]

theorem smallBytes_concat_of_long {i : Nat} (hlong : c < x.payload.length) :
    smallBytes c i (xs ++ [x]) = smallBytes c i xs := by
  simp [smallBytes, Nat.not_le_of_lt hlong]

theorem smallBytes_concat_of_nil {i : Nat} (hnil : x.payload = []) :
    smallBytes c i (xs ++ [x]) = smallBytes c i xs := by
  by_cases hi : x.address.index.toNat = i
  · rw [smallBytes_concat_self hi (by simp [hnil]), hnil, List.append_nil]
  · exact smallBytes_concat_of_ne hi

theorem largePayloads_concat_of_fit (hfit : x.payload.length ≤ c) :
    largePayloads c (xs ++ [x]) = largePayloads c xs := by
  simp [largePayloads, Nat.not_lt_of_le hfit]

theorem largePayloads_concat_of_long (hlong : c < x.payload.length) :
    largePayloads c (xs ++ [x]) = largePayloads c xs ++ [x.payload] := by
  simp [largePayloads, hlong]

/-- Where no payload has been put, there is no content. -/
theorem smallBytes_eq_nil {i : Nat}
    (h : ∀ x ∈ xs, x.Small c → x.address.index.toNat ≠ i) : smallBytes c i xs = [] := by
  rw [smallBytes, List.flatMap_eq_nil_iff]
  intro x hx
  simp only [List.mem_filter, Bool.and_eq_true, decide_eq_true_eq, beq_iff_eq] at hx
  obtain ⟨hmem, hfit, hindex⟩ := hx
  exact Decidable.byContradiction fun hne => h x hmem ⟨hne, hfit⟩ hindex

theorem content_large_of_le {j : Nat} (h : (largePayloads c xs).length ≤ j) :
    content c xs .large j = [] := by
  rw [content, List.getD_eq_getElem?_getD, List.getElem?_eq_none h, Option.getD_none]

theorem content_large_concat_of_ne (hlong : c < x.payload.length) {j : Nat}
    (h : (largePayloads c xs).length ≠ j) :
    content c (xs ++ [x]) .large j = content c xs .large j := by
  simp only [content, largePayloads_concat_of_long hlong, List.getD_eq_getElem?_getD]
  rcases Nat.lt_or_gt_of_ne h with hbehind | hbefore
  · rw [List.getElem?_eq_none (by simp; omega), List.getElem?_eq_none (by omega)]
  · rw [List.getElem?_append_left hbefore]

/-! ## One payload placed -/

theorem Placed.length_eq (hx : Placed c xs x) :
    x.address.length.toNat = x.payload.length := by
  cases hx with
  | empty hpayload haddress => rw [hpayload, haddress]; rfl
  | small _ _ hlength _ _ => exact hlength
  | large _ _ _ _ hlength => exact hlength

/-- A payload starts behind all that its segment held before. -/
theorem Placed.offset_eq (hx : Placed c xs x) (hne : x.payload ≠ []) :
    x.address.offset.toNat =
      (content c xs x.address.cls x.address.index.toNat).length := by
  cases hx with
  | empty hpayload _ => exact absurd hpayload hne
  | small _ hcls _ hoffset _ => rw [hcls, content, hoffset]
  | large _ hcls hindex hoffset _ =>
      rw [hcls, content_large_of_le (Nat.le_of_eq hindex.symm), hoffset]
      rfl

theorem Placed.content_concat_self (hx : Placed c xs x) (hne : x.payload ≠ []) :
    content c (xs ++ [x]) x.address.cls x.address.index.toNat =
      content c xs x.address.cls x.address.index.toNat ++ x.payload := by
  cases hx with
  | empty hpayload _ => exact absurd hpayload hne
  | small hsmall hcls _ _ _ => rw [hcls, content, content, smallBytes_concat_self rfl hsmall.2]
  | large hlong hcls hindex _ _ =>
      rw [hcls, content_large_of_le (Nat.le_of_eq hindex.symm), content,
        largePayloads_concat_of_long hlong, List.getD_eq_getElem?_getD, hindex,
        List.getElem?_concat_length, Option.getD_some, List.nil_append]

/-- All other segments hold what they held before. -/
theorem Placed.content_concat_of_ne (hx : Placed c xs x) {cls : SegmentClass} {i : Nat}
    (hne : x.payload ≠ [] → ¬ (x.address.cls = cls ∧ x.address.index.toNat = i)) :
    content c (xs ++ [x]) cls i = content c xs cls i := by
  cases hx with
  | empty hpayload _ =>
      cases cls with
      | small => exact smallBytes_concat_of_nil hpayload
      | large => rw [content, largePayloads_concat_of_fit (by simp [hpayload]), content]
  | small hsmall hcls _ _ _ =>
      cases cls with
      | small => exact smallBytes_concat_of_ne fun hi => hne hsmall.1 ⟨hcls, hi⟩
      | large => rw [content, largePayloads_concat_of_fit hsmall.2, content]
  | large hlong hcls hindex _ _ =>
      have hnonempty : x.payload ≠ [] := List.length_pos_iff.1 (Nat.zero_lt_of_lt hlong)
      cases cls with
      | small => exact smallBytes_concat_of_long hlong
      | large =>
          exact content_large_concat_of_ne hlong fun hi =>
            hne hnonempty ⟨hcls, hindex.trans hi⟩

/-- An address reaches just the bytes by which its payload made a content longer. -/
theorem Placed.reaches_iff (hx : Placed c xs x) {cls : SegmentClass} {i k : Nat} :
    x.address.Reaches cls i k ↔
      (content c xs cls i).length ≤ k ∧ k < (content c (xs ++ [x]) cls i).length := by
  by_cases hhere : x.payload ≠ [] ∧ x.address.cls = cls ∧ x.address.index.toNat = i
  · obtain ⟨hne, rfl, rfl⟩ := hhere
    rw [hx.content_concat_self hne, List.length_append, ← hx.offset_eq hne, ← hx.length_eq]
    simp only [Address.Reaches, Address.stop, true_and]
  · rw [hx.content_concat_of_ne fun hne hthere => hhere ⟨hne, hthere⟩]
    constructor
    · rintro ⟨hcls, hindex, hstart, hstop⟩
      refine absurd ⟨?_, hcls, hindex⟩ hhere
      rintro hnil
      have hlength := hx.length_eq
      rw [hnil, List.length_nil] at hlength
      rw [Address.stop] at hstop
      omega
    · rintro ⟨hle, hlt⟩
      omega

/-- Content only grows. -/
theorem Placed.length_content_le (hx : Placed c xs x) (cls : SegmentClass) (i : Nat) :
    (content c xs cls i).length ≤ (content c (xs ++ [x]) cls i).length := by
  by_cases hhere : x.payload ≠ [] ∧ x.address.cls = cls ∧ x.address.index.toNat = i
  · obtain ⟨hne, rfl, rfl⟩ := hhere
    rw [hx.content_concat_self hne, List.length_append]
    exact Nat.le_add_right ..
  · have hsame := hx.content_concat_of_ne fun hne hthere => hhere ⟨hne, hthere⟩
    exact Nat.le_of_eq (congrArg List.length hsame).symm

/-! ## All payloads laid -/

/-- The bytes of a segment that some address reaches are those of its content,
from the first to the last. -/
theorem Laid.reaches_iff (h : Laid c xs) {cls : SegmentClass} {i k : Nat} :
    (∃ x ∈ xs, x.address.Reaches cls i k) ↔ k < (content c xs cls i).length := by
  induction h with
  | nil =>
      constructor
      · rintro ⟨x, hx, -⟩
        cases hx
      · intro hk
        cases cls <;> exact absurd hk (Nat.not_lt_zero k)
  | @concat xs x hxs hx ih =>
      have hgrows := hx.length_content_le cls i
      simp only [List.mem_append, List.mem_singleton, or_and_right, exists_or,
        exists_eq_left, ih, hx.reaches_iff]
      omega

/-- No byte is reached by two addresses. -/
theorem Laid.pairwise_apart (h : Laid c xs) :
    xs.Pairwise fun x y => x.address.Apart y.address := by
  induction h with
  | nil => exact .nil
  | @concat xs x hxs hx ih =>
      rw [List.pairwise_append]
      refine ⟨ih, List.pairwise_singleton _ _, ?_⟩
      intro y hy z hz cls i k hboth
      rw [List.mem_singleton.1 hz] at hboth
      obtain ⟨hold, hnew⟩ := hboth
      have hbelow := hxs.reaches_iff.1 ⟨y, hy, hold⟩
      exact Nat.not_lt_of_le (hx.reaches_iff.1 hnew).1 hbelow

/-- No small payload goes to a segment in front of the one before it. -/
theorem Laid.pairwise_ordered (h : Laid c xs) :
    xs.Pairwise fun x y => x.Small c → y.Small c →
      x.address.index.toNat ≤ y.address.index.toNat := by
  induction h with
  | nil => exact .nil
  | @concat xs x hxs hx ih =>
      rw [List.pairwise_append]
      refine ⟨ih, List.pairwise_singleton _ _, ?_⟩
      intro y hy z hz hsmall hsmall'
      rw [List.mem_singleton.1 hz] at hsmall' ⊢
      cases hx with
      | empty hpayload _ => exact absurd hpayload hsmall'.1
      | small _ _ _ _ horder => exact horder y hy hsmall
      | large hlong _ _ _ _ => exact absurd hsmall'.2 (Nat.not_le_of_lt hlong)

/-- Each payload of the list was placed after those before it. -/
theorem Laid.placed (h : Laid c xs) {before after : List Placement}
    (hxs : xs = before ++ x :: after) : Placed c before x := by
  induction h generalizing after with
  | nil => simp at hxs
  | @concat ys y hys hy ih =>
      rcases List.eq_nil_or_concat after with rfl | ⟨after, z, rfl⟩
      · obtain ⟨rfl, hlast⟩ := List.append_inj' hxs rfl
        cases hlast
        exact hy
      · rw [List.concat_eq_append, ← List.cons_append, ← List.append_assoc] at hxs
        exact ih (List.append_inj' hxs rfl).1

theorem Laid.cls_of_small (h : Laid c xs) (hx : x ∈ xs) (hsmall : x.Small c) :
    x.address.cls = .small := by
  obtain ⟨before, after, hxs⟩ := List.append_of_mem hx
  cases h.placed hxs with
  | empty hpayload _ => exact absurd hpayload hsmall.1
  | small _ hcls _ _ _ => exact hcls
  | large hlong _ _ _ _ => exact absurd hsmall.2 (Nat.not_le_of_lt hlong)

end Placement

end Parcel
