import Mathlib.Algebra.Order.Floor.Div
import Mathlib.GroupTheory.GroupAction.Ring
import Parcel.Proofs.AllocatorLog
import Parcel.Proofs.PackerGuarded
import Parcel.Proofs.PackerLayout
import Parcel.Proofs.PackerWritable

/-!
# How full small segments are

Small payloads are packed by next fit: a segment is not asked for while the last one has
room, and no payload goes back to an earlier one. That is a rule about one write. Over a
whole run it bounds how many segments there are. A segment was closed because the next
payload did not fit behind what it held, so that any two neighbours are together fuller
than one chunk (`Overflows`), and `k` segments need more than half of `k - 1` chunks of
payload. Payloads of one length leave no gaps but at the ends of chunks, so that their
number decides how many segments there are (`Even`).

All of it is one invariant of the writes since the last flush (`Dense`), and it is kept
because a write can only set the small side aside, share the last segment or start a
fresh one (`Advances`). The allocator has to be steady: a segment that grants access once
and then refuses it would stay without a payload.
-/

namespace Parcel

namespace Placement

variable {c : Nat} {xs : List Placement} {x : Placement}

/-- The payloads that share segments, in call order. -/
def smalls (c : Nat) (xs : List Placement) : List Placement :=
  xs.filter fun x => x.payload ≠ [] && x.payload.length ≤ c

/-- The number of bytes in payloads that share segments. -/
def smallTotal (c : Nat) (xs : List Placement) : Nat :=
  ((smalls c xs).map (·.payload.length)).sum

/-- What the `i`-th small segment holds, and the first payload in the one behind it, are
together longer than a chunk. -/
def Overflows (c i : Nat) (xs : List Placement) : Prop :=
  ∃ before x behind, xs = before ++ x :: behind ∧ x.Small c ∧
    x.address.index.toNat = i + 1 ∧ smallBytes c (i + 1) before = [] ∧
    c < (smallBytes c i xs).length + x.payload.length

theorem mem_smalls : x ∈ smalls c xs ↔ x ∈ xs ∧ x.Small c := by
  simp [smalls, Small]

theorem smalls_append (xs ys : List Placement) : smalls c (xs ++ ys) = smalls c xs ++ smalls c ys :=
  List.filter_append ..

theorem smalls_singleton (h : x.Small c) : smalls c [x] = [x] := by
  simp [smalls, h.1, h.2]

theorem smalls_concat (h : x.Small c) : smalls c (xs ++ [x]) = smalls c xs ++ [x] := by
  rw [smalls_append, smalls_singleton h]

theorem smallTotal_concat (h : x.Small c) :
    smallTotal c (xs ++ [x]) = smallTotal c xs + x.payload.length := by
  simp [smallTotal, smalls_concat h]

/-- Payloads of one length. -/
theorem smallTotal_of_length {s : Nat} (h : ∀ x ∈ xs, x.Small c → x.payload.length = s) :
    smallTotal c xs = (smalls c xs).length * s := by
  have hmap : (smalls c xs).map (·.payload.length) = List.replicate (smalls c xs).length s := by
    rw [List.eq_replicate_iff]
    refine ⟨List.length_map .., fun n hn => ?_⟩
    obtain ⟨x, hx, rfl⟩ := List.mem_map.1 hn
    exact h x (mem_smalls.1 hx).1 (mem_smalls.1 hx).2
  rw [smallTotal, hmap, List.sum_replicate_nat]

/-- What a segment holds only grows. -/
theorem length_smallBytes_le_append (c i : Nat) (xs ys : List Placement) :
    (smallBytes c i xs).length ≤ (smallBytes c i (xs ++ ys)).length := by
  simp [smallBytes]

theorem Overflows.append {i : Nat} (h : Overflows c i xs) (ys : List Placement) :
    Overflows c i (xs ++ ys) := by
  obtain ⟨before, x, behind, hxs, hsmall, hindex, hfirst, hlong⟩ := h
  have hgrows := length_smallBytes_le_append c i xs ys
  exact ⟨before, x, behind ++ ys, by simp [hxs], hsmall, hindex, hfirst, by omega⟩

end Placement

open Placement

namespace Packer

variable {α : Type} [Allocator α] {p q : Packer α} {c : Nat} {xs : List Placement} {x : Placement}

/-! ## One write -/

/-- What a write does to the small side, where `placed` is what it placed. -/
inductive Advances (p : Packer α) : List Placement → Packer α → Prop
  | aside {placed : List Placement} {q : Packer α}
      (hplaced : smalls p.chunkSize.bytes placed = [])
      (hcount : q.small.length = p.small.length) (hcursor : q.cursor = p.cursor) :
      Advances p placed q
  | shared {x : Placement} {q : Packer α} (hsmall : x.Small p.chunkSize.bytes)
      (hheld : p.small ≠ []) (hroom : p.cursor + x.payload.length ≤ p.chunkSize.bytes)
      (hcount : q.small.length = p.small.length)
      (hcursor : q.cursor = p.cursor + x.payload.length) : Advances p [x] q
  | fresh {x : Placement} {q : Packer α} (hsmall : x.Small p.chunkSize.bytes)
      (hneeds : p.small = [] ∨ p.chunkSize.bytes - p.cursor < x.payload.length)
      (hindex : x.address.index.toNat = p.small.length)
      (hcount : q.small.length = p.small.length + 1)
      (hcursor : q.cursor = x.payload.length) : Advances p [x] q

omit [Allocator α] in
/-- Without a chunk that has room there is no segment or too little room in the last one. -/
theorem Sound.needs (hp : p.Sound) {n : Nat} (h : p.NeedsChunk n) :
    p.small = [] ∨ p.chunkSize.bytes - p.cursor < n := by
  cases hcurrent : p.current with
  | none => exact .inl (by simp [small, hcurrent, hp.filled_of_none hcurrent])
  | some chunk =>
      rw [cursor_of_current hcurrent]
      exact .inr (h chunk hcurrent)

theorem advances_write (hp : p.Sound) (h : p.Writable) (payload : List UInt8) :
    p.Advances (placements [.wrote payload (p.write payload).answer])
      (p.write payload).state := by
  have haddressable := p.chunkSize.addressable
  have hwrites := write_writes p payload
  generalize p.write payload = o at hwrites
  cases hwrites with
  | empty hempty => exact .aside (by simp [placements, Event.placement?, smalls, hempty]) rfl rfl
  | refused _ _ _ _ _ => exact .aside rfl rfl rfl
  | withdrawn _ _ _ _ _ hopen hgrant =>
      exact absurd hgrant (h.opens hopen).not_refused
  | stored segment _ _ hlong _ _ _ _ =>
      exact .aside (by simp [placements, Event.placement?, smalls, hlong]) rfl rfl
  | placed p' chunk _ hne hfit hopen _ =>
      obtain ⟨hp', hchunk, hroom⟩ := hopen.wf hp.toWf hfit
      cases hopen with
      | roomy _ _ _ =>
          refine .shared ⟨hne, hfit⟩ ?_ ?_ (length_refilled hchunk .small) ?_
          · rw [small_of_current hchunk]
            simp
          · rw [cursor_of_current hchunk]
            exact hroom
          · rw [cursor_of_current hchunk]
            rfl
      | fresh segment _ _ hneeds hindex _ =>
          refine .fresh ⟨hne, hfit⟩ (hp.needs hneeds) ?_ ?_ ?_
          · exact UInt32.toNat_ofNat_of_lt' hindex
          · show (p.small ++ [_]).length = p.small.length + 1
            rw [List.length_append, List.length_singleton]
          · exact Nat.zero_add _

/-! ## All writes of a period -/

/-- The segments are as many as `n` payloads of the length `s` need if as many go into
each as there is room for, and the last one holds `j` of them. -/
structure Even (c s n k cursor j : Nat) : Prop where
  pos : 1 ≤ j
  le : j ≤ c / s
  cursor : cursor = j * s
  count : n + c / s = k * (c / s) + j

/-- The lists hold what was placed, and the last of the small segments can be filled
further. -/
structure Tracks (c : Nat) (xs : List Placement) (p : Packer α) : Prop where
  sound : p.Sound
  writable : p.Writable
  fills : Fills (fun _ _ _ => True) xs p
  chunkSize : p.chunkSize.bytes = c

/-- No segment was started too early. -/
structure Dense (c : Nat) (xs : List Placement) (p : Packer α) : Prop extends Tracks c xs p where
  unused : p.small = [] → smalls c xs = []
  started : p.small ≠ [] → 0 < p.cursor
  adjacent : ∀ i, i + 1 < p.small.length → Overflows c i xs
  total : p.small.length * c + p.cursor ≤ 2 * smallTotal c xs + c
  even : ∀ s, s ≤ c → (∀ x ∈ xs, x.Small c → x.payload.length = s) → p.small ≠ [] →
    ∃ j, Even c s (smalls c xs).length p.small.length p.cursor j

variable {s n k cursor j : Nat}

theorem even_first (hs : 0 < s) (hfit : s ≤ c) : Even c s 1 1 s 1 where
  pos := Nat.le_refl _
  le := (Nat.le_div_iff_mul_le hs).2 (by omega)
  cursor := (Nat.one_mul s).symm
  count := by rw [Nat.one_mul, Nat.add_comm]

theorem Even.shared (h : Even c s n k cursor j) (hs : 0 < s) (hroom : cursor + s ≤ c) :
    Even c s (n + 1) k (cursor + s) (j + 1) where
  pos := Nat.le_add_left ..
  le := by
    rw [Nat.le_div_iff_mul_le hs, Nat.add_mul, Nat.one_mul, ← h.cursor]
    exact hroom
  cursor := by rw [h.cursor, Nat.add_mul, Nat.one_mul]
  count := by
    have hcount := h.count
    omega

/-- A segment without room for one more is full. -/
theorem Even.fresh (h : Even c s n k cursor j) (hs : 0 < s) (hneeds : c - cursor < s) :
    Even c s (n + 1) (k + 1) s 1 where
  pos := Nat.le_refl _
  le := Nat.le_trans h.pos h.le
  cursor := (Nat.one_mul s).symm
  count := by
    have hfull : c / s < j + 1 := by
      rw [Nat.div_lt_iff_lt_mul hs, Nat.add_mul, Nat.one_mul, ← h.cursor]
      omega
    have hcount := h.count
    have hle := h.le
    rw [Nat.add_mul]
    omega

theorem Even.ceilDiv (h : Even c s n k cursor j) : k = n ⌈/⌉ (c / s) := by
  obtain ⟨hpos, hle, -, hcount⟩ := h
  have hsum : n + c / s - 1 = c / s * k + (j - 1) := by
    rw [Nat.mul_comm]
    omega
  rw [Nat.ceilDiv_eq_add_pred_div, hsum, Nat.mul_add_div (by omega),
    Nat.div_eq_of_lt (by omega), Nat.add_zero]

theorem Tracks.cursor_le (h : Tracks c xs p) : p.cursor ≤ c :=
  Nat.le_trans h.sound.cursor_le (Nat.le_of_eq h.chunkSize)

/-- Nothing lies behind the cursor of the last segment. -/
theorem Tracks.cursor_eq (h : Tracks c xs p) {i : Nat} (hi : p.small.length = i + 1) :
    p.cursor = (smallBytes c i xs).length := by
  cases hcurrent : p.current with
  | none => simp [small, hcurrent, h.sound.filled_of_none hcurrent] at hi
  | some chunk =>
      rw [small_of_current hcurrent, List.length_append, List.length_singleton] at hi
      rw [cursor_of_current hcurrent, h.fills.cursor chunk hcurrent, Nat.succ.inj hi, h.chunkSize]

/-- A payload for which there was no room behind the others is the first of its segment. -/
theorem Tracks.overflows (h : Tracks c xs p) (hsmall : x.Small c)
    (hneeds : p.small = [] ∨ c - p.cursor < x.payload.length) {i : Nat}
    (hi : p.small.length = i + 1) (hindex : x.address.index.toNat = i + 1) :
    Overflows c i (xs ++ [x]) := by
  have hcursor := h.cursor_eq hi
  have hfirst := h.fills.smallBytes_next
  have hgrows := length_smallBytes_le_append c i xs [x]
  rw [h.chunkSize, hi] at hfirst
  refine ⟨xs, x, [], rfl, hsmall, hindex, hfirst, ?_⟩
  rcases hneeds with hnone | hneeds
  · simp [hnone] at hi
  · omega

theorem Tracks.write (h : Tracks c xs p) (payload : List UInt8) :
    Tracks c (xs ++ placements [.wrote payload (p.write payload).answer])
      (p.write payload).state where
  sound := sound_write h.sound payload
  writable := writable_write h.writable payload
  fills := h.fills.write h.sound.toWf fun _ _ _ _ => trivial
  chunkSize := by rw [chunkSize_write, h.chunkSize]

theorem dense_emptied (h : Allocator.Steady p.allocator) :
    Dense p.chunkSize.bytes [] p.emptied where
  sound := sound_emptied p
  writable := writable_emptied h
  fills := fills_emptied p
  chunkSize := rfl
  unused _ := rfl
  started hheld := absurd rfl hheld
  adjacent i hi := absurd hi (Nat.not_lt_zero _)
  total := by simp [smallTotal, smalls, emptied, small, cursor]
  even _ _ _ hheld := absurd rfl hheld

omit [Allocator α] in
theorem small_eq_nil_iff (h : q.small.length = p.small.length) : q.small = [] ↔ p.small = [] := by
  rw [← List.length_eq_zero_iff, h, List.length_eq_zero_iff]

theorem Dense.aside (h : Dense c xs p) {placed : List Placement}
    (hq : Tracks c (xs ++ placed) q) (hplaced : smalls c placed = [])
    (hcount : q.small.length = p.small.length) (hcursor : q.cursor = p.cursor) :
    Dense c (xs ++ placed) q := by
  have hsmalls : smalls c (xs ++ placed) = smalls c xs := by
    rw [smalls_append, hplaced, List.append_nil]
  have hheld := small_eq_nil_iff hcount
  refine ⟨hq, ?_, ?_, ?_, ?_, ?_⟩
  · rw [hheld, hsmalls]
    exact h.unused
  · rw [ne_eq, hheld, hcursor]
    exact h.started
  · intro i hi
    rw [hcount] at hi
    exact (h.adjacent i hi).append placed
  · rw [hcount, hcursor, smallTotal, hsmalls]
    exact h.total
  · intro s hs hlength
    rw [ne_eq, hheld, hcount, hcursor, hsmalls]
    exact h.even s hs fun x hx => hlength x (List.mem_append_left _ hx)

theorem Dense.shared (h : Dense c xs p) (hq : Tracks c (xs ++ [x]) q) (hsmall : x.Small c)
    (hheld : p.small ≠ []) (hroom : p.cursor + x.payload.length ≤ c)
    (hcount : q.small.length = p.small.length)
    (hcursor : q.cursor = p.cursor + x.payload.length) : Dense c (xs ++ [x]) q := by
  have hpos := List.length_pos_iff.2 hsmall.1
  refine ⟨hq, ?_, ?_, ?_, ?_, ?_⟩
  · intro hnone
    exact absurd ((small_eq_nil_iff hcount).1 hnone) hheld
  · intro _
    rw [hcursor]
    omega
  · intro i hi
    rw [hcount] at hi
    exact (h.adjacent i hi).append [x]
  · have htotal := h.total
    rw [hcount, hcursor, smallTotal_concat hsmall]
    omega
  · intro s hs hlength _
    obtain ⟨j, heven⟩ := h.even s hs (fun y hy => hlength y (List.mem_append_left _ hy)) hheld
    have hx := hlength x List.mem_concat_self hsmall
    rw [hx] at hpos hroom
    rw [hcount, hcursor, smalls_concat hsmall, List.length_append, List.length_singleton, hx]
    exact ⟨j + 1, heven.shared hpos hroom⟩

theorem Dense.fresh (h : Dense c xs p) (hq : Tracks c (xs ++ [x]) q) (hsmall : x.Small c)
    (hneeds : p.small = [] ∨ c - p.cursor < x.payload.length)
    (hindex : x.address.index.toNat = p.small.length)
    (hcount : q.small.length = p.small.length + 1)
    (hcursor : q.cursor = x.payload.length) : Dense c (xs ++ [x]) q := by
  have hpos := List.length_pos_iff.2 hsmall.1
  refine ⟨hq, ?_, ?_, ?_, ?_, ?_⟩
  · intro hnone
    simp [hnone] at hcount
  · intro _
    rwa [hcursor]
  · intro i hi
    rw [hcount] at hi
    rcases Nat.lt_or_eq_of_le (Nat.le_of_lt_succ hi) with hold | hlast
    · exact (h.adjacent i hold).append [x]
    · exact h.overflows hsmall hneeds hlast.symm (hindex.trans hlast.symm)
  · have htotal := h.total
    have hle := h.cursor_le
    rw [hcount, hcursor, smallTotal_concat hsmall, Nat.add_mul]
    -- The payload is longer than the rest of the last chunk. Counted twice it makes up for
    -- that rest and for itself.
    rcases hneeds with hnone | hneeds
    · rw [hnone, List.length_nil]
      omega
    · omega
  · intro s hs hlength _
    have hx := hlength x List.mem_concat_self hsmall
    rw [hx] at hpos hneeds
    rw [hcount, hcursor, smalls_concat hsmall, List.length_append, List.length_singleton, hx]
    by_cases hheld : p.small = []
    · rw [h.unused hheld, hheld]
      exact ⟨1, even_first hpos hs⟩
    · obtain ⟨j, heven⟩ := h.even s hs (fun y hy => hlength y (List.mem_append_left _ hy)) hheld
      exact ⟨1, heven.fresh hpos (hneeds.resolve_left hheld)⟩

theorem Dense.write (h : Dense c xs p) (payload : List UInt8) :
    Dense c (xs ++ placements [.wrote payload (p.write payload).answer])
      (p.write payload).state := by
  have hadvances := advances_write h.sound h.writable payload
  have hq := h.toTracks.write payload
  have hc := h.chunkSize
  generalize placements [.wrote payload (p.write payload).answer] = placed at hadvances hq ⊢
  generalize (p.write payload).state = q at hadvances hq ⊢
  cases hadvances with
  | aside hplaced hcount hcursor =>
      rw [hc] at hplaced
      exact h.aside hq hplaced hcount hcursor
  | shared hsmall hheld hroom hcount hcursor =>
      rw [hc] at hsmall hroom
      exact h.shared hq hsmall hheld hroom hcount hcursor
  | fresh hsmall hneeds hindex hcount hcursor =>
      rw [hc] at hsmall hneeds
      exact h.fresh hq hsmall hneeds hindex hcount hcursor

/-- Writes alone, from a packer that holds nothing, waste no segment. -/
theorem dense_run (hempty : p.emptied = p) (hsteady : Allocator.Steady p.allocator)
    {ops : List Op} (hwrites : ∀ op ∈ ops, op.payload? ≠ none) :
    Dense p.chunkSize.bytes (placements (p.run ops).events) (p.run ops).state := by
  refine Turn.run_trail (s := p)
    (P := fun _ events q => Dense p.chunkSize.bytes (placements events) q) ?_ ?_ hwrites
  · have hstart := dense_emptied hsteady
    rwa [hempty] at hstart
  · intro ops op hwrite h
    obtain ⟨payload, hpayload⟩ := Option.ne_none_iff_exists'.1 hwrite
    rw [turn_of_payload hpayload, placements_concat]
    exact h.write payload

/-- `k` segments hold more than half of what `k - 1` of them have room for. -/
theorem Dense.lt_two_mul (h : Dense c xs p) (hheld : 1 ≤ p.small.length) :
    (p.small.length - 1) * c < 2 * smallTotal c xs := by
  have htotal := h.total
  have hstarted := h.started (List.length_pos_iff.1 hheld)
  obtain ⟨k, hk⟩ := Nat.exists_eq_add_of_le' hheld
  rw [hk, Nat.add_mul] at htotal
  rw [hk, Nat.add_sub_cancel]
  omega

/-- Payloads of one length need as many segments as their number says. -/
theorem Dense.length_eq (h : Dense c xs p) {s : Nat} (hfit : s ≤ c)
    (hlength : ∀ x ∈ xs, x.Small c → x.payload.length = s) :
    p.small.length = (smalls c xs).length ⌈/⌉ (c / s) := by
  by_cases hheld : p.small = []
  · rw [h.unused hheld, hheld, List.length_nil, List.length_nil, zero_ceilDiv]
  · obtain ⟨j, heven⟩ := h.even s hfit hlength hheld
    exact heven.ceilDiv

/-- If the payloads fill segments to the end, so does their total. -/
theorem Dense.length_eq_of_dvd (h : Dense c xs p) {s : Nat} (hpos : 1 ≤ s) (hfit : s ≤ c)
    (hlength : ∀ x ∈ xs, x.Small c → x.payload.length = s) (hdvd : s ∣ c) :
    p.small.length = smallTotal c xs ⌈/⌉ c := by
  obtain ⟨m, rfl⟩ := hdvd
  have hm : 0 < m := Nat.pos_of_mul_pos_left (Nat.lt_of_lt_of_le hpos hfit)
  rw [h.length_eq hfit hlength, smallTotal_of_length hlength, Nat.mul_div_cancel_left m hpos]
  -- Both numbers are the least ones that are enough, and what is enough is the same.
  refine eq_of_forall_ge_iff fun k => ?_
  rw [ceilDiv_le_iff_le_mul hm, ceilDiv_le_iff_le_mul (Nat.mul_pos hpos hm), Nat.mul_assoc,
    Nat.mul_comm _ s, Nat.mul_le_mul_left_iff hpos]

/-- Only a small payload for which there is no room asks for a segment that is no longer
than a chunk. -/
theorem requested_small {op : Op} {n : UInt64} (hp : p.Sound) (hn : n ∈ p.requested [op])
    (hsmall : n.toNat ≤ p.chunkSize.bytes) :
    n.toNat = p.chunkSize.bytes ∧ ∃ payload, op.payload? = some payload ∧ payload ≠ [] ∧
      payload.length ≤ p.chunkSize.bytes ∧
      (p.small = [] ∨ p.chunkSize.bytes - p.cursor < payload.length) := by
  have haddressable := p.chunkSize.addressable
  have hword : UInt32.size ≤ UInt64.size := by decide
  rcases p.requested_cases op with hnone | ⟨payload, cls, size, hpayload, hneeds, hasks⟩
  · rw [hnone] at hn
    cases hn
  · rw [hasks, List.mem_singleton] at hn
    cases hneeds with
    | small hne hfit hneeds =>
        rw [hn, UInt64.toNat_ofNat_of_lt' (by omega)]
        exact ⟨rfl, payload, hpayload, hne, hfit, hp.needs hneeds⟩
    | large hlong hshort =>
        rw [hn, UInt64.toNat_ofNat_of_lt' (by omega)] at hsmall
        exact absurd hlong (Nat.not_lt_of_le hsmall)

/-- Small segments are packed densely, over a steady allocator and after any writes since
the last flush or clear. Another one is only asked for if there is none yet or a payload
is longer than the rest of the last one. The bytes in one and the first payload in the
next are together longer than a chunk, so that `k` segments hold more than half of what
`k - 1` of them have room for. Payloads of one length are in as many segments as they
need. -/
theorem small_segments_dense {allocator : α} {size : UInt64} {p : Packer α}
    {earlier period : List Op} (hsteady : Allocator.Steady allocator)
    (hp : ofSize allocator size = .ok p)
    (hearlier : earlier = [] ∨ ∃ ops op, earlier = ops ++ [op] ∧ op.payload? = none)
    (hperiod : ∀ op ∈ period, op.payload? ≠ none) :
    let c := size.toNat
    let q := (p.run (earlier ++ period)).state
    let xs := placements ((p.run earlier).state.run period).events
    let k := q.small.length
    (∀ op n, n ∈ q.requested [op] → n.toNat ≤ c → n.toNat = c ∧
      ∃ payload, op.payload? = some payload ∧ payload ≠ [] ∧ payload.length ≤ c ∧
        (q.small = [] ∨ c - q.cursor < payload.length)) ∧
    (∀ i, i + 1 < k → Overflows c i xs) ∧
    (1 ≤ k → (k - 1) * c < 2 * smallTotal c xs) ∧
    ∀ s, 1 ≤ s → s ≤ c → (∀ x ∈ xs, x.Small c → x.payload.length = s) →
      k = (smalls c xs).length ⌈/⌉ (c / s) ∧ (s ∣ c → k = smallTotal c xs ⌈/⌉ c) := by
  intro c q xs k
  have hallocator : Allocator.Steady (p.run earlier).state.allocator := by
    refine Allocator.Yields.reaches ?_ (reaches_run p earlier)
    rwa [allocator_of_ofSize hp]
  have hc : (p.run earlier).state.chunkSize.bytes = c := by
    rw [chunkSize_run, chunkSize_of_ofSize hp]
  have hdense : Dense c xs q := by
    have hrun := dense_run (emptied_of_start hp hearlier) hallocator hperiod
    rw [hc] at hrun
    have hq : q = ((p.run earlier).state.run period).state := by
      simp only [q, run, Turn.run_append]
    rwa [hq]
  refine ⟨fun op n hn hsmall => ?_, hdense.adjacent, hdense.lt_two_mul, fun s hpos hfit hlength =>
    ⟨hdense.length_eq hfit hlength, hdense.length_eq_of_dvd hpos hfit hlength⟩⟩
  have hrequested := requested_small hdense.sound hn
  rw [hdense.chunkSize] at hrequested
  exact hrequested hsmall

/-- The period starts after a clear, and its first write fails. The third payload of those
that are placed does not fit behind the other two, which fill their segment. -/
theorem small_segments_dense_stuttering :
    ∃ p : Packer Scripted, ofSize stuttering 4 = .ok p ∧
      let q := (p.run ([.write [9], .clear] ++
        [.write [1, 2], .write [3, 4], .writeValues [(5 : UInt16)], .write [6, 7]])).state
      let xs := [⟨.inSmall 0 0 2, [3, 4]⟩, ⟨.inSmall 0 2 2, [5, 0]⟩, ⟨.inSmall 1 0 2, [6, 7]⟩]
      q.small.length = 2 ∧ q.cursor = 2 ∧
      q.requested [.write [8, 8]] = [] ∧ q.requested [.write [8, 8, 8]] = [4] ∧
      Overflows 4 0 xs ∧ (2 - 1) * 4 < 2 * smallTotal 4 xs ∧
      2 = (smalls 4 xs).length ⌈/⌉ (4 / 2) ∧ 2 = smallTotal 4 xs ⌈/⌉ 4 := by
  obtain ⟨p, hp⟩ : ∃ p, ofSize stuttering 4 = .ok p := ⟨_, rfl⟩
  obtain ⟨-, hneighbours, hhalf, heven⟩ :=
    @small_segments_dense _ _ _ _ _ [.write [9], .clear]
      [.write [1, 2], .write [3, 4], .writeValues [(5 : UInt16)], .write [6, 7]]
      steady_stuttering hp (.inr ⟨[.write [9]], .clear, rfl, rfl⟩) (by simp [Op.payload?])
  cases hp
  obtain ⟨hcount, htotal⟩ := heven 2 (by decide) (by decide) (by decide)
  exact ⟨_, rfl, rfl, rfl, rfl, rfl, hneighbours 0 (by decide), hhalf (by decide), hcount,
    htotal (by decide)⟩

end Packer

end Parcel
