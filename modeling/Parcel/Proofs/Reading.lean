import Parcel.Memory.Segments
import Parcel.Proofs.Bytes

/-!
# What an address names

Reading is a chain of checks; what it decides is said here without them.
`Names s a bytes` holds when the address `a` names `bytes` in the segments `s`,
and `resolve_eq_ok_iff` says that resolving answers with just those bytes. It
is the statement that proofs about written payloads use.

A reader looks at the bytes of segments and at nothing else about them, so that
segments with the same bytes cannot be told apart by reading: not by what is
found, and not by how an address is refused (`resolve_congr`).
-/

namespace Parcel.Segments

/-- The address names a run of bytes inside one segment, or no bytes at all. -/
inductive Names (s : Segments) (a : Address) : List UInt8 → Prop
  | empty (hempty : a.length = 0) : Names s a []
  | small (segment : Segment) (hlength : a.length ≠ 0) (hcls : a.cls = .small)
      (hindex : s.small[a.index.toNat]? = some segment) (hstop : a.stop ≤ segment.size) :
      Names s a (slice segment.bytes a.offset.toNat a.length.toNat)
  | large (segment : Segment) (hlength : a.length ≠ 0) (hcls : a.cls = .large)
      (hindex : s.large[a.index.toNat]? = some segment) (hoffset : a.offset = 0)
      (hsize : a.length.toNat ≤ segment.size) :
      Names s a (segment.bytes.take a.length.toNat)

theorem names_of_resolveSmall {s : Segments} {a : Address} {bytes : List UInt8}
    (hlength : a.length ≠ 0) (hcls : a.cls = .small)
    (h : s.resolveSmall a = .ok bytes) : s.Names a bytes := by
  rw [resolveSmall] at h
  split at h
  · cases h
  · next segment hindex =>
      split at h
      · next hstop =>
          cases h
          exact .small segment hlength hcls hindex hstop
      · cases h

theorem names_of_resolveLarge {s : Segments} {a : Address} {bytes : List UInt8}
    (hlength : a.length ≠ 0) (hcls : a.cls = .large)
    (h : s.resolveLarge a = .ok bytes) : s.Names a bytes := by
  rw [resolveLarge] at h
  split at h
  · cases h
  · next segment hindex =>
      split at h
      · cases h
      · next hoffset =>
          split at h
          · next hsize =>
              cases h
              exact .large segment hlength hcls hindex (Decidable.of_not_not hoffset) hsize
          · cases h

/-- Resolving answers exactly what an address names. -/
theorem resolve_eq_ok_iff {s : Segments} {a : Address} {bytes : List UInt8} :
    s.resolve a = .ok bytes ↔ s.Names a bytes := by
  have hisEmpty : a.isEmpty = true ↔ a.length = 0 := by simp [Address.isEmpty]
  constructor
  · intro h
    rw [resolve] at h
    split at h
    · next hempty =>
        cases h
        exact .empty (hisEmpty.1 hempty)
    · next hnonempty =>
        have hlength : a.length ≠ 0 := fun h => hnonempty (hisEmpty.2 h)
        split at h
        · next hcls => exact names_of_resolveSmall hlength hcls h
        · next hcls => exact names_of_resolveLarge hlength hcls h
  · intro h
    rw [resolve]
    cases h with
    | empty hempty => rw [if_pos (hisEmpty.2 hempty)]
    | small segment hlength hcls hindex hstop =>
        rw [if_neg (fun h => hlength (hisEmpty.1 h)), hcls]
        simp only [resolveSmall, hindex, if_pos hstop]
    | large segment hlength hcls hindex hoffset hsize =>
        rw [if_neg (fun h => hlength (hisEmpty.1 h)), hcls]
        simp only [resolveLarge, hindex, if_neg (not_not_intro hoffset), if_pos hsize]

/-- A run that holds `payload` is named by the address with its numbers. -/
theorem names_inSmall {s : Segments} {segment : Segment} {payload : List UInt8}
    {index offset : Nat} (hsegment : s.small[index]? = some segment)
    (hindex : index < UInt32.size) (hoffset : offset < UInt32.size)
    (hlength : payload.length < UInt32.size)
    (hfits : offset + payload.length ≤ segment.size)
    (hslice : slice segment.bytes offset payload.length = payload) :
    s.Names (.inSmall (.ofNat index) (.ofNat offset) (.ofNat payload.length)) payload := by
  have hi : (UInt32.ofNat index).toNat = index := UInt32.toNat_ofNat_of_lt' hindex
  have ho : (UInt32.ofNat offset).toNat = offset := UInt32.toNat_ofNat_of_lt' hoffset
  have hl : (UInt32.ofNat payload.length).toNat = payload.length :=
    UInt32.toNat_ofNat_of_lt' hlength
  rw [← resolve_eq_ok_iff, resolve]
  split
  · next hempty =>
      rw [Address.isEmpty_iff] at hempty
      rw [List.eq_nil_of_length_eq_zero (hl.symm.trans hempty)]
  · show resolveSmall s (.inSmall _ _ _) = _
    have hstop : (Address.inSmall (.ofNat index) (.ofNat offset)
        (.ofNat payload.length)).stop ≤ segment.size := by
      show (UInt32.ofNat offset).toNat + (UInt32.ofNat payload.length).toNat ≤ _
      rw [ho, hl]
      exact hfits
    simp only [resolveSmall, Address.inSmall] at hstop ⊢
    simp only [hi, hsegment, if_pos hstop, ho, hl, hslice]

/-- A large segment that starts with `payload` is named by its index. -/
theorem names_inLarge {s : Segments} {segment : Segment} {payload : List UInt8}
    {index : Nat} (hsegment : s.large[index]? = some segment)
    (hindex : index < UInt32.size) (hlength : payload.length < UInt32.size)
    (hfits : payload.length ≤ segment.size)
    (htake : segment.bytes.take payload.length = payload) :
    s.Names (.inLarge (.ofNat index) (.ofNat payload.length)) payload := by
  have hi : (UInt32.ofNat index).toNat = index := UInt32.toNat_ofNat_of_lt' hindex
  have hl : (UInt32.ofNat payload.length).toNat = payload.length :=
    UInt32.toNat_ofNat_of_lt' hlength
  rw [← resolve_eq_ok_iff, resolve]
  split
  · next hempty =>
      rw [Address.isEmpty_iff] at hempty
      rw [List.eq_nil_of_length_eq_zero (hl.symm.trans hempty)]
  · show resolveLarge s (.inLarge _ _) = _
    simp only [resolveLarge, Address.inLarge, hi, hsegment, hl, if_pos hfits, htake]
    rfl

/-! ## Copies -/

/-- The same bytes, segment by segment. -/
def SameBytes (s t : Segments) : Prop :=
  s.small.map Segment.bytes = t.small.map Segment.bytes ∧
    s.large.map Segment.bytes = t.large.map Segment.bytes

theorem SameBytes.symm {s t : Segments} (h : s.SameBytes t) : t.SameBytes s :=
  ⟨h.1.symm, h.2.symm⟩

theorem SameBytes.length_small {s t : Segments} (h : s.SameBytes t) :
    s.small.length = t.small.length := by
  simpa using congrArg List.length h.1

theorem SameBytes.length_large {s t : Segments} (h : s.SameBytes t) :
    s.large.length = t.large.length := by
  simpa using congrArg List.length h.2

theorem sameBytes_copy (s : Segments) : s.SameBytes s.copy := by
  simp [SameBytes, copy, Segment.copy, Segment.ofBytes]

/-- Lists of the same bytes hold a segment at the same places, of the same bytes. -/
theorem getElem?_of_map_bytes {xs ys : List Segment}
    (h : xs.map Segment.bytes = ys.map Segment.bytes) (i : Nat) :
    xs[i]? = none ∧ ys[i]? = none ∨
      ∃ x y, xs[i]? = some x ∧ ys[i]? = some y ∧ x.bytes = y.bytes := by
  have hi := congrArg (fun l => l[i]?) h
  simp only [List.getElem?_map] at hi
  cases hx : xs[i]? with
  | none =>
      rw [hx, Option.map_none] at hi
      exact .inl ⟨rfl, Option.map_eq_none_iff.1 hi.symm⟩
  | some x =>
      rw [hx, Option.map_some] at hi
      obtain ⟨y, hy, hbytes⟩ := Option.map_eq_some_iff.1 hi.symm
      exact .inr ⟨x, y, rfl, hy, hbytes.symm⟩

theorem resolveSmall_congr {s t : Segments} (h : s.SameBytes t) (a : Address) :
    s.resolveSmall a = t.resolveSmall a := by
  rcases getElem?_of_map_bytes h.1 a.index.toNat with ⟨hx, hy⟩ | ⟨x, y, hx, hy, hbytes⟩
  · simp only [resolveSmall, hx, hy, h.length_small]
  · have hsize : x.size = y.size := congrArg List.length hbytes
    simp only [resolveSmall, hx, hy]
    rw [hsize, hbytes]

theorem resolveLarge_congr {s t : Segments} (h : s.SameBytes t) (a : Address) :
    s.resolveLarge a = t.resolveLarge a := by
  rcases getElem?_of_map_bytes h.2 a.index.toNat with ⟨hx, hy⟩ | ⟨x, y, hx, hy, hbytes⟩
  · simp only [resolveLarge, hx, hy, h.length_large]
  · have hsize : x.size = y.size := congrArg List.length hbytes
    simp only [resolveLarge, hx, hy]
    rw [hsize, hbytes]

/-- Segments of the same bytes resolve every address alike, be it to the same
payload or to the same refusal. -/
theorem resolve_congr {s t : Segments} (h : s.SameBytes t) (a : Address) :
    s.resolve a = t.resolve a := by
  rw [resolve, resolve, resolveSmall_congr h, resolveLarge_congr h]

theorem read_congr {s t : Segments} (h : s.SameBytes t) (a : Address) :
    s.read a = t.read a := by
  rw [read, read, resolve_congr h]

theorem readValues_congr {β : Type} [Packed β] {s t : Segments} (h : s.SameBytes t)
    (a : Address) : s.readValues β a = t.readValues β a := by
  rw [readValues, readValues, resolveValues, resolveValues, resolve_congr h]

/-! ## Forms of answer -/

theorem read_of_resolve {s : Segments} {a : Address} {bytes : List UInt8}
    (h : s.resolve a = .ok bytes) : s.read a = (.ok bytes, []) := by
  rw [read, h]
  rfl

theorem readOnto_of_resolve {s : Segments} {a : Address} {bytes : List UInt8}
    (h : s.resolve a = .ok bytes) (buffer : List UInt8) :
    s.readOnto a buffer = ⟨.ok (), buffer ++ bytes, []⟩ := by
  rw [readOnto, read_of_resolve h]

/-- An address that resolves to packed values is read back as these values. -/
theorem readValues_of_resolve {β : Type} [Packed β] {s : Segments} {a : Address}
    {values : List β} (hwidth : 0 < Packed.width β)
    (h : s.resolve a = .ok (Packed.packAll values)) :
    s.readValues β a = (.ok values, []) := by
  have hwhole : (Packed.packAll values).length % Packed.width β = 0 := by
    rw [Packed.length_packAll, Nat.mul_mod_left]
  have hguard : ¬ (Packed.width β = 0 ∨
      (Packed.packAll values).length % Packed.width β ≠ 0) := by
    rintro (hzero | hpartial)
    · omega
    · exact hpartial hwhole
  have hvalues : s.resolveValues β a = .ok values := by
    rw [resolveValues, h]
    show (if _ then _ else _) = _
    rw [if_neg hguard, Packed.unpackAll_packAll hwidth]
  rw [readValues, hvalues]
  rfl

end Parcel.Segments
