import Parcel.Proofs.Fitting
import Parcel.Proofs.PackerRoundTrip
import Parcel.Proofs.Placement

/-!
# What a flush hands over, byte by byte

Every byte of a flushed segment comes either from one payload or from the
allocator. `Layout` says which: each segment carries its content, as the
addresses determine it, and behind that it is as it was delivered. The writes
of a period keep their packer laid out with the payloads that were placed so
far (`Fills`), because all that a write can do to the lists is to open a fresh
chunk, to ask the current one for access, to put a payload at its cursor or to
store one in a segment of its own.

What the caller knows of a period are the answers to its writes (`placements`)
and the segments that the allocator delivered meanwhile (`Delivered`). That
settles the segments of the next flush to the last byte (`flushed_layout`). Only
the empty payload has an address that says nothing about where it lies, for it
lies nowhere (`offset_sum_fails_on_empty`).
-/

namespace Parcel

/-- The segment has these bytes at its start, and behind them it is as it was
delivered. It is no longer and no shorter than it was. -/
structure Segment.Carries (s delivered : Segment) (bytes : List UInt8) : Prop where
  fits : bytes.length ≤ delivered.size
  bytes_eq : s.bytes = bytes ++ delivered.bytes.drop bytes.length

namespace Segment

variable {s delivered : Segment} {bytes payload : List UInt8}

theorem carries_nil (h : s.bytes = delivered.bytes) : s.Carries delivered [] where
  fits := Nat.zero_le _
  bytes_eq := h

theorem Carries.size (h : s.Carries delivered bytes) : s.size = delivered.size := by
  have hfits := h.fits
  rw [Segment.size] at hfits ⊢
  rw [h.bytes_eq, List.length_append, List.length_drop, Segment.size]
  omega

/-- A payload laid behind the bytes joins them. -/
theorem Carries.overwrite (h : s.Carries delivered bytes)
    (hfits : bytes.length + payload.length ≤ delivered.size) :
    (s.requestAccess.2.overwrite bytes.length payload).Carries delivered
      (bytes ++ payload) where
  fits := by rwa [List.length_append]
  bytes_eq := by
    show splice s.bytes bytes.length payload = _
    rw [splice, h.bytes_eq, List.take_left' rfl, List.drop_append, List.drop_eq_nil_of_le
      (Nat.le_add_right ..), List.nil_append, List.drop_drop, List.length_append,
      List.append_assoc, Nat.add_sub_cancel_left]

/-- Behind the bytes nothing has changed. -/
theorem Carries.untouched (h : s.Carries delivered bytes) {k : Nat} (hk : bytes.length ≤ k) :
    s.bytes[k]? = delivered.bytes[k]? := by
  rw [h.bytes_eq, List.getElem?_append_right hk, List.getElem?_drop, Nat.add_sub_cancel' hk]

end Segment

open Placement

/-- The segments hold the payloads where their addresses say, and nothing else
of them differs from what was delivered. `D cls i d` says that `d` was delivered
as the `i`-th segment of the class. -/
structure Layout (c : Nat) (D : SegmentClass → Nat → Segment → Prop) (xs : List Placement)
    (s : Segments) : Prop where
  laid : Laid c xs
  carries : ∀ cls i segment, (s.ofClass cls)[i]? = some segment →
    ∃ delivered, D cls i delivered ∧ segment.Carries delivered (content c xs cls i)
  large_count : s.large.length = (largePayloads c xs).length
  index_lt : ∀ x ∈ xs, x.payload ≠ [] →
    x.address.index.toNat < (s.ofClass x.address.cls).length

namespace Layout

variable {c : Nat} {D : SegmentClass → Nat → Segment → Prop} {xs : List Placement}
variable {s s' : Segments} {x : Placement}

/-- The same payloads in other lists, which hold no segment that is not as it was or
carries what it has to. -/
theorem keep (h : Layout c D xs s)
    (hcarries : ∀ cls i segment, (s'.ofClass cls)[i]? = some segment →
      (s.ofClass cls)[i]? = some segment ∨
        ∃ delivered, D cls i delivered ∧ segment.Carries delivered (content c xs cls i))
    (hlarge : s'.large.length = s.large.length)
    (hgrows : ∀ cls, (s.ofClass cls).length ≤ (s'.ofClass cls).length) :
    Layout c D xs s' where
  laid := h.laid
  carries cls i segment hsegment := by
    rcases hcarries cls i segment hsegment with hold | hnew
    · exact h.carries cls i segment hold
    · exact hnew
  large_count := hlarge.trans h.large_count
  index_lt x hx hne := Nat.lt_of_lt_of_le (h.index_lt x hx hne) (hgrows _)

/-- One more payload, in a segment that has room for it or has just joined its list.
All other segments are as they were. -/
theorem concat (h : Layout c D xs s) (hx : Placed c xs x) (hne : x.payload ≠ [])
    {cls : SegmentClass} {i : Nat} (hcls : x.address.cls = cls)
    (hi : x.address.index.toNat = i)
    (helse : ∀ cls' i' segment, (s'.ofClass cls')[i']? = some segment →
      (s.ofClass cls')[i']? = some segment ∨ cls' = cls ∧ i' = i)
    (hhere : ∀ segment, (s'.ofClass cls)[i]? = some segment → ∃ delivered,
      D cls i delivered ∧ segment.Carries delivered (content c xs cls i ++ x.payload))
    (hlarge : s'.large.length = (largePayloads c (xs ++ [x])).length)
    (hgrows : ∀ cls, (s.ofClass cls).length ≤ (s'.ofClass cls).length)
    (hindex : i < (s'.ofClass cls).length) : Layout c D (xs ++ [x]) s' where
  laid := .concat h.laid hx
  carries cls' i' segment hsegment := by
    by_cases hthere : cls' = cls ∧ i' = i
    · obtain ⟨rfl, rfl⟩ := hthere
      have hself := hx.content_concat_self hne
      rw [hcls, hi] at hself
      rw [hself]
      exact hhere segment hsegment
    · have hsame : content c (xs ++ [x]) cls' i' = content c xs cls' i' := by
        refine hx.content_concat_of_ne fun _ hthere' => hthere ?_
        exact ⟨hthere'.1.symm.trans hcls, hthere'.2.symm.trans hi⟩
      rw [hsame]
      exact h.carries cls' i' segment ((helse cls' i' segment hsegment).resolve_right hthere)
  large_count := hlarge
  index_lt y hy hfull := by
    rcases List.mem_append.1 hy with hold | hnew
    · exact Nat.lt_of_lt_of_le (h.index_lt y hold hfull) (hgrows _)
    · rw [List.mem_singleton.1 hnew, hcls, hi]
      exact hindex

/-- The empty payload lies nowhere. -/
theorem concat_empty (h : Layout c D xs s) : Layout c D (xs ++ [⟨.empty, []⟩]) s where
  laid := .concat h.laid (.empty rfl rfl)
  carries cls i segment hsegment := by
    have hx : Placed c xs ⟨.empty, []⟩ := .empty rfl rfl
    rw [hx.content_concat_of_ne fun hne => absurd rfl hne]
    exact h.carries cls i segment hsegment
  large_count := by
    rw [largePayloads_concat_of_fit (Nat.zero_le c)]
    exact h.large_count
  index_lt y hy hfull := by
    rcases List.mem_append.1 hy with hold | hnew
    · exact h.index_lt y hold hfull
    · rw [List.mem_singleton.1 hnew] at hfull
      exact absurd rfl hfull

/-- More may be known about what was delivered. -/
theorem mono {D' : SegmentClass → Nat → Segment → Prop} (h : Layout c D xs s)
    (hD : ∀ cls i d, D cls i d → D' cls i d) : Layout c D' xs s where
  laid := h.laid
  carries cls i segment hsegment := by
    obtain ⟨delivered, hdelivered, hcarries⟩ := h.carries cls i segment hsegment
    exact ⟨delivered, hD cls i delivered hdelivered, hcarries⟩
  large_count := h.large_count
  index_lt := h.index_lt

/-- A byte that no address reaches is as it was delivered. -/
theorem untouched (h : Layout c D xs s) {cls : SegmentClass} {i k : Nat}
    {segment delivered : Segment} (hcarries : segment.Carries delivered (content c xs cls i))
    (hk : ¬ ∃ x ∈ xs, x.address.Reaches cls i k) :
    segment.bytes[k]? = delivered.bytes[k]? := by
  rw [h.laid.reaches_iff] at hk
  exact hcarries.untouched (Nat.le_of_not_lt hk)

/-- No payload lies in a small segment that comes next. -/
theorem smallBytes_next (h : Layout c D xs s) : smallBytes c s.small.length xs = [] := by
  refine smallBytes_eq_nil fun x hx hsmall hlast => ?_
  have hbound := h.index_lt x hx hsmall.1
  rw [h.laid.cls_of_small hx hsmall] at hbound
  exact Nat.ne_of_lt hbound hlast

end Layout

namespace Packer

variable {α : Type}

/-- The lists of a packer are laid out, and its cursor stands where the payloads of
the current chunk end. -/
structure Fills (D : SegmentClass → Nat → Segment → Prop) (xs : List Placement)
    (p : Packer α) : Prop where
  layout : Layout p.chunkSize.bytes D xs p.segments
  cursor : ∀ chunk, p.current = some chunk →
    chunk.used = (smallBytes p.chunkSize.bytes p.filled.length xs).length

variable {D : SegmentClass → Nat → Segment → Prop} {xs : List Placement} {p : Packer α}

theorem Fills.mono {D' : SegmentClass → Nat → Segment → Prop} (h : Fills D xs p)
    (hD : ∀ cls i d, D cls i d → D' cls i d) : Fills D' xs p where
  layout := h.layout.mono hD
  cursor := h.cursor

theorem Fills.allocator (h : Fills D xs p) (allocator : α) :
    Fills D xs { p with allocator } where
  layout := h.layout
  cursor := h.cursor

theorem fills_emptied (p : Packer α) : Fills D [] p.emptied where
  layout :=
    { laid := .nil
      carries := fun cls i segment hsegment => by cases cls <;> cases hsegment
      large_count := rfl
      index_lt := fun x hx => by cases hx }
  cursor chunk hchunk := by cases hchunk

/-- No payload lies in the chunk that comes next. -/
theorem Fills.smallBytes_next (h : Fills D xs p) :
    smallBytes p.chunkSize.bytes p.small.length xs = [] :=
  h.layout.smallBytes_next

/-- With another chunk in the place of the current one, all segments but that of the
current chunk are as they were. -/
theorem getElem?_refilled {chunk chunk' : Chunk} (hchunk : p.current = some chunk)
    {cls : SegmentClass} {i : Nat} {segment : Segment}
    (h : (({ p with current := some chunk' } : Packer α).segments.ofClass cls)[i]? =
      some segment) :
    (p.segments.ofClass cls)[i]? = some segment ∨
      cls = .small ∧ i = p.filled.length ∧ segment = chunk'.segment := by
  cases cls with
  | large => exact .inl h
  | small =>
      rcases getElem?_concat_cases h with hold | ⟨hlast, hsegment⟩
      · refine .inl ?_
        have hbound := (List.getElem?_eq_some_iff.1 hold).1
        show p.small[i]? = _
        rw [small_of_current hchunk, List.getElem?_append_left hbound, hold]
      · exact .inr ⟨rfl, hlast, hsegment⟩

theorem length_refilled {chunk chunk' : Chunk} (hchunk : p.current = some chunk)
    (cls : SegmentClass) :
    (({ p with current := some chunk' } : Packer α).segments.ofClass cls).length =
      (p.segments.ofClass cls).length := by
  cases cls with
  | large => rfl
  | small =>
      show (p.filled ++ [chunk'.segment]).length = p.small.length
      rw [small_of_current hchunk, List.length_append, List.length_append]
      rfl

/-- A fresh chunk, as it was delivered. -/
theorem Fills.rotate (h : Fills D xs p) {segment delivered : Segment}
    (hD : D .small p.small.length delivered) (hbytes : segment.bytes = delivered.bytes)
    (allocator : α) :
    Fills D xs { p with allocator, filled := p.small, current := some ⟨segment, 0⟩ } where
  layout := by
    refine h.layout.keep ?_ rfl ?_
    · intro cls i found hfound
      cases cls with
      | large => exact .inl hfound
      | small =>
          rcases getElem?_concat_cases hfound with hold | ⟨rfl, rfl⟩
          · exact .inl hold
          · refine .inr ⟨delivered, hD, ?_⟩
            rw [content, h.smallBytes_next]
            exact Segment.carries_nil hbytes
    · intro cls
      cases cls with
      | large => exact Nat.le_refl _
      | small =>
          show p.small.length ≤ (p.small ++ [segment]).length
          rw [List.length_append]
          exact Nat.le_add_right ..
  cursor chunk hchunk := by
    cases hchunk
    exact (congrArg List.length h.smallBytes_next).symm

/-- Asking the current chunk for access moves no byte. -/
theorem Fills.asked (h : Fills D xs p) {chunk : Chunk} (hchunk : p.current = some chunk) :
    Fills D xs { p with current := some ⟨chunk.segment.requestAccess.2, chunk.used⟩ } where
  layout := by
    refine h.layout.keep ?_ rfl fun cls => Nat.le_of_eq (length_refilled hchunk cls).symm
    intro cls i found hfound
    rcases getElem?_refilled hchunk hfound with hold | ⟨rfl, rfl, rfl⟩
    · exact .inl hold
    · obtain ⟨delivered, hdelivered, hcarries⟩ :=
        h.layout.carries .small _ _ (getElem?_small_current hchunk)
      exact .inr ⟨delivered, hdelivered, hcarries.fits, hcarries.bytes_eq⟩
  cursor chunk' hchunk' := by
    cases hchunk'
    exact h.cursor chunk hchunk

/-- The chunk is the last of its list and its cursor is where its content ends, so that
the end of the current chunk is the right address for the next payload. -/
theorem Fills.placed_inSmall (hp : p.Wf) (h : Fills D xs p) {chunk : Chunk}
    {payload : List UInt8} (hchunk : p.current = some chunk) (hne : payload ≠ [])
    (hroom : chunk.used + payload.length ≤ p.chunkSize.bytes) :
    Placed p.chunkSize.bytes xs ⟨.inSmall (.ofNat p.filled.length) (.ofNat chunk.used)
      (.ofNat payload.length), payload⟩ := by
  have haddressable := p.chunkSize.addressable
  have hindex : (UInt32.ofNat p.filled.length).toNat = p.filled.length :=
    UInt32.toNat_ofNat_of_lt' (hp.filled_lt hchunk)
  have hfit : payload.length ≤ p.chunkSize.bytes := by omega
  refine .small ⟨hne, hfit⟩ rfl (UInt32.toNat_ofNat_of_lt' (by omega)) ?_ ?_
  · show (UInt32.ofNat chunk.used).toNat =
      (smallBytes _ (UInt32.ofNat p.filled.length).toNat xs).length
    rw [hindex, ← h.cursor chunk hchunk]
    exact UInt32.toNat_ofNat_of_lt' (by omega)
  · intro y hy hsmall
    have hbound := h.layout.index_lt y hy hsmall.1
    rw [h.layout.laid.cls_of_small hy hsmall] at hbound
    have hcount : p.small.length = p.filled.length + 1 := by
      rw [small_of_current hchunk, List.length_append, List.length_singleton]
    show y.address.index.toNat ≤ (UInt32.ofNat p.filled.length).toNat
    rw [hindex]
    exact Nat.le_of_lt_succ (Nat.lt_of_lt_of_eq hbound hcount)

/-- One more payload in the current chunk. -/
theorem Fills.place (hp : p.Wf) (h : Fills D xs p) {chunk : Chunk} {payload : List UInt8}
    (hchunk : p.current = some chunk) (hne : payload ≠ [])
    (hroom : chunk.used + payload.length ≤ p.chunkSize.bytes) :
    Fills D (xs ++ [⟨.inSmall (.ofNat p.filled.length) (.ofNat chunk.used)
        (.ofNat payload.length), payload⟩])
      { p with
        current := some ⟨chunk.segment.requestAccess.2.overwrite chunk.used payload,
          chunk.used + payload.length⟩ } := by
  have hused := h.cursor chunk hchunk
  have hfit : payload.length ≤ p.chunkSize.bytes := by omega
  have hindex : (UInt32.ofNat p.filled.length).toNat = p.filled.length :=
    UInt32.toNat_ofNat_of_lt' (hp.filled_lt hchunk)
  have hplaced := h.placed_inSmall hp hchunk hne hroom
  constructor
  · refine h.layout.concat hplaced hne (rfl : _ = SegmentClass.small) hindex ?_ ?_ ?_ ?_ ?_
    · intro cls i segment hsegment
      rcases getElem?_refilled hchunk hsegment with hold | ⟨rfl, rfl, -⟩
      · exact .inl hold
      · exact .inr ⟨rfl, rfl⟩
    · intro segment hsegment
      obtain ⟨delivered, hdelivered, hcarries⟩ :=
        h.layout.carries .small _ _ (getElem?_small_current hchunk)
      have hsize := hp.current_size hchunk
      rw [hcarries.size] at hsize
      have hlast : segment = chunk.segment.requestAccess.2.overwrite chunk.used payload :=
        Option.some.inj (hsegment.symm.trans List.getElem?_concat_length)
      rw [hlast, hused]
      refine ⟨delivered, hdelivered, hcarries.overwrite ?_⟩
      rw [content, ← hused]
      omega
    · rw [largePayloads_concat_of_fit hfit]
      exact h.layout.large_count
    · exact fun cls => Nat.le_of_eq (length_refilled hchunk cls).symm
    · show p.filled.length < (p.filled ++ [_]).length
      rw [List.length_append]
      exact Nat.lt_succ_self _
  · intro chunk' hchunk'
    cases hchunk'
    show _ = (smallBytes p.chunkSize.bytes p.filled.length (xs ++ [_])).length
    rw [smallBytes_concat_self hindex hfit, List.length_append, ← hused]

/-- One more payload in a segment of its own. -/
theorem Fills.store (h : Fills D xs p) {segment delivered : Segment} {payload : List UInt8}
    (hlong : p.chunkSize.bytes < payload.length) (hshort : payload.length < UInt32.size)
    (hindex : p.large.length < UInt32.size) (hsize : payload.length ≤ delivered.size)
    (hD : D .large p.large.length delivered) (hbytes : segment.bytes = delivered.bytes)
    (allocator : α) :
    Fills D (xs ++ [⟨.inLarge (.ofNat p.large.length) (.ofNat payload.length), payload⟩])
      { p with
        allocator, large := p.large ++ [segment.requestAccess.2.overwrite 0 payload] } := by
  have hne : payload ≠ [] := List.length_pos_iff.1 (Nat.zero_lt_of_lt hlong)
  have hcount : p.large.length = (largePayloads p.chunkSize.bytes xs).length :=
    h.layout.large_count
  have hlast : (UInt32.ofNat p.large.length).toNat = p.large.length :=
    UInt32.toNat_ofNat_of_lt' hindex
  have hplaced : Placed p.chunkSize.bytes xs ⟨.inLarge (.ofNat p.large.length)
      (.ofNat payload.length), payload⟩ :=
    .large hlong rfl (hlast.trans hcount) rfl (UInt32.toNat_ofNat_of_lt' hshort)
  constructor
  · refine h.layout.concat hplaced hne (rfl : _ = SegmentClass.large) hlast ?_ ?_ ?_ ?_ ?_
    · intro cls i found hfound
      cases cls with
      | small => exact .inl hfound
      | large =>
          rcases getElem?_concat_cases hfound with hold | ⟨hi, -⟩
          · exact .inl hold
          · exact .inr ⟨rfl, hi⟩
    · intro found hfound
      have hlarge : found = segment.requestAccess.2.overwrite 0 payload :=
        Option.some.inj (hfound.symm.trans List.getElem?_concat_length)
      refine ⟨delivered, hD, ?_⟩
      rw [hlarge, content_large_of_le (Nat.le_of_eq hcount.symm)]
      exact (Segment.carries_nil hbytes).overwrite (by simpa using hsize)
    · show (p.large ++ [_]).length = _
      rw [largePayloads_concat_of_long hlong, List.length_append, List.length_append, hcount]
      rfl
    · intro cls
      cases cls with
      | small => exact Nat.le_refl _
      | large =>
          show p.large.length ≤ (p.large ++ [_]).length
          rw [List.length_append]
          exact Nat.le_add_right ..
    · show p.large.length < (p.large ++ [_]).length
      rw [List.length_append]
      exact Nat.lt_succ_self _
  · intro chunk hchunk
    show _ = (smallBytes p.chunkSize.bytes p.filled.length (xs ++ [_])).length
    rw [smallBytes_concat_of_long hlong]
    exact h.cursor chunk hchunk

/-- The empty payload lies nowhere. -/
theorem Fills.empty (h : Fills D xs p) : Fills D (xs ++ [⟨.empty, []⟩]) p where
  layout := h.layout.concat_empty
  cursor chunk hchunk := by
    rw [smallBytes_concat_of_nil rfl]
    exact h.cursor chunk hchunk

/-! ## One write -/

/-- The payloads that were written, with the addresses in the answers. -/
def Event.placement? : Event → Option Placement
  | .wrote payload (.ok address) => some ⟨address, payload⟩
  | .wrote _ (.error _) | .flushed _ | .cleared => none

/-- What is placed, in call order. Failed writes place nothing. -/
def placements (events : List Event) : List Placement := events.filterMap Event.placement?

theorem placements_concat (events : List Event) (e : Event) :
    placements (events ++ [e]) = placements events ++ placements [e] :=
  List.filterMap_append

variable [Allocator α]

/-- Writing the payload adds `delivered` to the list of the class, at the index
`i`: it is what the allocator answered when it was asked for a segment as long as
a chunk or, if that is longer, as the payload. -/
structure Obtains (p : Packer α) (payload : List UInt8) (cls : SegmentClass) (i : Nat)
    (delivered : Segment) : Prop where
  before : (p.segments.ofClass cls).length = i
  after : ((p.write payload).state.segments.ofClass cls).length = i + 1
  answer : (Allocator.allocate p.allocator
    (.ofNat (max p.chunkSize.bytes payload.length))).1 = .ok delivered

/-- Opening a chunk places nothing. -/
theorem Fills.opens {p' : Packer α} {n : Nat} {chunk : Chunk} {entries : List Entry}
    (h : Fills D xs p) (hopen : Opens p n p' chunk entries)
    (hD : ∀ d, p'.small.length = p.small.length + 1 →
      (Allocator.allocate p.allocator (.ofNat p.chunkSize.bytes)).1 = .ok d →
      D .small p.small.length d) : Fills D xs p' := by
  cases hopen with
  | roomy _ _ _ => exact h
  | fresh segment allocator _ _ _ hacquire =>
      obtain ⟨delivered, _, hanswer, _, _, rfl, _, _⟩ := acquire_ok hacquire
      refine h.rotate (hD delivered ?_ (by rw [hanswer])) delivered.bytes_requestAccess _
      show (p.small ++ [_]).length = _
      rw [List.length_append, List.length_singleton]

/-- A write, however it ends, leaves the lists laid out, with its own payload laid
behind the others if it was placed. -/
theorem Fills.write (hp : p.Wf) (h : Fills D xs p) {payload : List UInt8}
    (hD : ∀ cls i d, p.Obtains payload cls i d → D cls i d) :
    Fills D (xs ++ placements [.wrote payload (p.write payload).answer])
      (p.write payload).state := by
  -- Spelled out, since the write that `Obtains` speaks of is about to be taken apart.
  have hadded : ∀ cls d,
      ((p.write payload).state.segments.ofClass cls).length =
        (p.segments.ofClass cls).length + 1 →
      (Allocator.allocate p.allocator (.ofNat (max p.chunkSize.bytes payload.length))).1 =
        .ok d →
      D cls (p.segments.ofClass cls).length d :=
    fun cls d hafter hanswer => hD cls _ d ⟨rfl, hafter, hanswer⟩
  have hwrites := write_writes p payload
  generalize p.write payload = o at hwrites hadded
  cases hwrites with
  | empty hempty =>
      rw [hempty]
      exact h.empty
  | refused fault allocator _ _ _ =>
      show Fills D (xs ++ []) _
      rw [List.append_nil]
      exact h.allocator allocator
  | placed p' chunk _ hne hfit hopen _ =>
      obtain ⟨hp', hchunk, hroom⟩ := hopen.wf hp hfit
      refine (h.opens hopen fun d hlength hanswer => ?_).place hp' hchunk hne hroom
      refine hadded .small d ((length_refilled hchunk .small).trans hlength) ?_
      rwa [Nat.max_eq_left hfit]
  | withdrawn p' chunk _ _ hfit hopen _ =>
      obtain ⟨_, hchunk, _⟩ := hopen.wf hp hfit
      show Fills D (xs ++ []) _
      rw [List.append_nil]
      refine (h.opens hopen fun d hlength hanswer => ?_).asked hchunk
      refine hadded .small d ((length_refilled hchunk .small).trans hlength) ?_
      rwa [Nat.max_eq_left hfit]
  | stored segment allocator _ hlong hshort hindex hacquire _ =>
      obtain ⟨delivered, _, hanswer, hsize, _, rfl, _, _⟩ := acquire_ok hacquire
      refine h.store hlong hshort hindex hsize (hadded .large delivered ?_ ?_)
        delivered.bytes_requestAccess _
      · exact List.length_append
      · rw [Nat.max_eq_right (Nat.le_of_lt hlong), hanswer]

/-! ## Runs -/

/-- While these operations were carried out, `delivered` joined the list of the
class at the index `i`. -/
def Delivered (p : Packer α) (ops : List Op) (cls : SegmentClass) (i : Nat)
    (delivered : Segment) : Prop :=
  ∃ ops₁ op ops₂ payload, ops = ops₁ ++ op :: ops₂ ∧ op.payload? = some payload ∧
    (p.run ops₁).state.Obtains payload cls i delivered

theorem Delivered.concat {ops : List Op} {cls : SegmentClass} {i : Nat} {delivered : Segment}
    (h : p.Delivered ops cls i delivered) (op : Op) :
    p.Delivered (ops ++ [op]) cls i delivered := by
  obtain ⟨ops₁, op', ops₂, payload, rfl, hpayload, hobtains⟩ := h
  exact ⟨ops₁, op', ops₂ ++ [op], payload, by simp, hpayload, hobtains⟩

/-- Writes alone, from a packer that holds nothing, leave its lists laid out. -/
theorem fills_run (hempty : p.emptied = p) {ops : List Op}
    (hwrites : ∀ op ∈ ops, op.payload? ≠ none) :
    Fills (p.Delivered ops) (placements (p.run ops).events) (p.run ops).state := by
  -- The invariant speaks of the operations so far because they say what was delivered.
  refine (Turn.run_trail (s := p)
    (P := fun ops events q => q.Wf ∧ Fills (p.Delivered ops) (placements events) q)
    ?_ ?_ hwrites).2
  · rw [← hempty]
    exact ⟨wf_emptied p, fills_emptied p⟩
  · rintro ops op hwrite ⟨hq, h⟩
    obtain ⟨payload, hpayload⟩ := Option.ne_none_iff_exists'.1 hwrite
    refine ⟨wf_turn hq op, ?_⟩
    rw [turn_of_payload hpayload, placements_concat]
    refine (h.mono fun cls i d hd => hd.concat op).write hq fun cls i d hobtains => ?_
    exact ⟨ops, op, [], payload, rfl, hpayload, hobtains⟩

/-- Nothing is left of what a packer held before a period of writes, if that is the
first one or comes after a flush or a clear. -/
theorem emptied_of_start {allocator : α} {size : UInt64} {earlier : List Op}
    (hp : ofSize allocator size = .ok p)
    (hearlier : earlier = [] ∨ ∃ ops op, earlier = ops ++ [op] ∧ op.payload? = none) :
    (p.run earlier).state.emptied = (p.run earlier).state := by
  rcases hearlier with rfl | ⟨ops, op, rfl, hop⟩
  · exact emptied_of_ofSize hp
  · rw [run, (Turn.run_concat p ops op).2, state_of_no_payload hop]
    rfl

/-- A flush hands over the lists as the writes before it left them. -/
theorem events_flushed (p : Packer α) (earlier period later : List Op) :
    (p.run (earlier ++ (period ++ .flush :: later))).events =
      (p.run earlier).events ++ (((p.run earlier).state.run period).events ++
        .flushed ((p.run earlier).state.run period).state.segments ::
          (((p.run earlier).state.run period).state.emptied.run later).events) := by
  simp only [run, Turn.run_append]
  rfl

/-- What a flush hands over holds the payloads of the period that it ends, each
where the answer to its write said, and otherwise what the allocator delivered.
In a segment the payloads start where those before them end and leave no gap,
no byte belongs to two of them, and small segments are filled in their order. -/
theorem flushed_layout {allocator : α} {size : UInt64} {p : Packer α}
    {earlier period later : List Op} (hp : ofSize allocator size = .ok p)
    (hearlier : earlier = [] ∨ ∃ ops op, earlier = ops ++ [op] ∧ op.payload? = none)
    (hperiod : ∀ op ∈ period, op.payload? ≠ none) :
    let c := size.toNat
    let q := (p.run earlier).state
    let xs := placements (q.run period).events
    ∃ s after,
      (p.run (earlier ++ (period ++ .flush :: later))).events =
        (p.run earlier).events ++ ((q.run period).events ++ .flushed s :: after) ∧
      Layout c (q.Delivered period) xs s ∧
      (∀ before x behind, xs = before ++ x :: behind → x.payload ≠ [] →
        x.address.offset.toNat =
          (content c before x.address.cls x.address.index.toNat).length) ∧
      xs.Pairwise (fun x y => x.address.Apart y.address) ∧
      xs.Pairwise (fun x y => x.Small c → y.Small c →
        x.address.index.toNat ≤ y.address.index.toNat) ∧
      (∀ cls i k, (∃ x ∈ xs, x.address.Reaches cls i k) ↔ k < (content c xs cls i).length) ∧
      ∀ cls i segment, (s.ofClass cls)[i]? = some segment →
        ∃ delivered, q.Delivered period cls i delivered ∧
          segment.Carries delivered (content c xs cls i) ∧
          ∀ k, (¬ ∃ x ∈ xs, x.address.Reaches cls i k) →
            segment.bytes[k]? = delivered.bytes[k]? := by
  intro c q xs
  have hfills : Fills (q.Delivered period) xs (q.run period).state :=
    fills_run (emptied_of_start hp hearlier) hperiod
  have hchunk : (q.run period).state.chunkSize.bytes = c := by
    rw [chunkSize_run, chunkSize_run, chunkSize_of_ofSize hp]
  have hlayout := hfills.layout
  rw [hchunk] at hlayout
  refine ⟨_, _, events_flushed p earlier period later, hlayout, ?_,
    hlayout.laid.pairwise_apart, hlayout.laid.pairwise_ordered,
    fun cls i k => hlayout.laid.reaches_iff, ?_⟩
  · intro before x behind hxs hne
    exact (hlayout.laid.placed hxs).offset_eq hne
  · intro cls i segment hsegment
    obtain ⟨delivered, hdelivered, hcarries⟩ := hlayout.carries cls i segment hsegment
    exact ⟨delivered, hdelivered, hcarries, fun k hk => hlayout.untouched hcarries hk⟩

/-- The period starts after a clear. A write fails in it, one shares a chunk, one is
empty, one closes the chunk and one gets a segment of its own. -/
theorem flushed_layout_stuttering :
    ∃ p s after, ofSize stuttering 4 = .ok p ∧
      (p.run ([.write [9], .clear] ++ ([.write [1, 2, 3], .write [4, 5],
          .writeValues [(6 : UInt16)], .write [], .write [7, 7, 7],
          .write [8, 8, 8, 8, 8]] ++ .flush :: [.write [9]]))).events =
        [.wrote [9] (.ok (.inSmall 0 0 1)), .cleared] ++
          ([.wrote [1, 2, 3] (.error (.allocation (.other "none left"))),
            .wrote [4, 5] (.ok (.inSmall 0 0 2)), .wrote [6, 0] (.ok (.inSmall 0 2 2)),
            .wrote [] (.ok .empty), .wrote [7, 7, 7] (.ok (.inSmall 1 0 3)),
            .wrote [8, 8, 8, 8, 8] (.ok (.inLarge 0 5))] ++ .flushed s :: after) ∧
      Layout 4
        ((p.run [.write [9], .clear]).state.Delivered [.write [1, 2, 3], .write [4, 5],
          .writeValues [(6 : UInt16)], .write [], .write [7, 7, 7], .write [8, 8, 8, 8, 8]])
        [⟨.inSmall 0 0 2, [4, 5]⟩, ⟨.inSmall 0 2 2, [6, 0]⟩, ⟨.empty, []⟩,
          ⟨.inSmall 1 0 3, [7, 7, 7]⟩, ⟨.inLarge 0 5, [8, 8, 8, 8, 8]⟩] s := by
  obtain ⟨p, hp⟩ : ∃ p, ofSize stuttering 4 = .ok p := ⟨_, rfl⟩
  obtain ⟨s, after, hrun, hlayout, -⟩ :=
    @flushed_layout _ _ _ _ _ [.write [9], .clear] [.write [1, 2, 3], .write [4, 5],
      .writeValues [(6 : UInt16)], .write [], .write [7, 7, 7], .write [8, 8, 8, 8, 8]]
      [.write [9]] hp (.inr ⟨[.write [9]], .clear, rfl, rfl⟩) (by simp [Op.payload?])
  cases hp
  exact ⟨_, s, after, rfl, hrun, hlayout⟩

/-- Were the empty payload held to the offsets of the others, it would not have the
one that it gets: it is answered with the start of the first segment, also behind
payloads that lie there. -/
theorem offset_sum_fails_on_empty :
    ¬ ∀ (p : Packer Heap) (period : List Op) (before behind : List Placement)
      (x : Placement), ofSize Heap.mk 8 = .ok p → (∀ op ∈ period, op.payload? ≠ none) →
      placements (p.run period).events = before ++ x :: behind → x.payload.length ≤ 8 →
      x.address.offset.toNat = (smallBytes 8 x.address.index.toNat before).length := by
  intro hsum
  obtain ⟨p, hp⟩ : ∃ p, ofSize Heap.mk 8 = .ok p := ⟨_, rfl⟩
  have hoffset := hsum p [.write [1, 2, 3], .write []] [⟨.inSmall 0 0 3, [1, 2, 3]⟩] []
    ⟨.empty, []⟩ hp (by simp [Op.payload?]) (by cases hp; rfl) (Nat.zero_le 8)
  revert hoffset
  decide

end Packer

end Parcel
