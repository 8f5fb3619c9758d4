import Parcel.Proofs.Reading

/-!
# Which addresses fit

All four parts of an address may be wrong, and all at once. `Fits` says without
any reader when an address lies inside a pair of segment lists: either it asks
for no bytes, or its segment is there and ends no earlier than the run does,
where the end of the run is a number and never a word that wrapped around.
`Covers` says, byte by byte, what such an address stands for.

Reading accepts the addresses that fit and no others (`read_ok_iff_fits`). What
it answers is covered by one segment, so that no byte outside of it was looked
at; an address that does not fit comes back in the refusal as it was asked for,
and the buffer of a refused reading is what it was before.
-/

namespace Parcel.Segments

/-- The list that addresses of a class point into. -/
def ofClass (s : Segments) : SegmentClass → List Segment
  | .small => s.small
  | .large => s.large

/-- The run of an address lies inside one segment. A large payload starts where
its segment starts. -/
def Fits (s : Segments) (a : Address) : Prop :=
  a.length.toNat = 0 ∨
    (a.cls = .small ∧ ∃ h : a.index.toNat < s.small.length,
      a.offset.toNat + a.length.toNat ≤ (s.small[a.index.toNat]).size) ∨
    (a.cls = .large ∧ ∃ h : a.index.toNat < s.large.length,
      a.offset = 0 ∧ a.length.toNat ≤ (s.large[a.index.toNat]).size)

instance (s : Segments) (a : Address) : Decidable (s.Fits a) :=
  inferInstanceAs (Decidable (_ ∨ _ ∨ _))

/-- The `i`-th of these bytes is the `i`-th behind the offset, in the segment that
the address points to, and there are as many as the address says. -/
structure Covers (s : Segments) (a : Address) (bytes : List UInt8) : Prop where
  length : bytes.length = a.length.toNat
  byte : ∀ (i : Nat) (hi : i < bytes.length), ∃ segment,
    (s.ofClass a.cls)[a.index.toNat]? = some segment ∧
      segment.bytes[a.offset.toNat + i]? = some bytes[i]

theorem covers_nil {s : Segments} {a : Address} (h : a.length = 0) : s.Covers a [] where
  length := by rw [h]; rfl
  byte i hi := absurd hi (Nat.not_lt_zero i)

/-- A window that ends inside a segment has all its bytes from there. -/
theorem covers_slice {s : Segments} {a : Address} {segment : Segment}
    (hindex : (s.ofClass a.cls)[a.index.toNat]? = some segment)
    (hstop : a.stop ≤ segment.size) :
    s.Covers a (slice segment.bytes a.offset.toNat a.length.toNat) where
  length := length_slice hstop
  byte i hi := by
    have hlength : i < a.length.toNat := by
      rwa [length_slice hstop] at hi
    refine ⟨segment, hindex, ?_⟩
    rw [← List.getElem?_eq_getElem hi, slice, List.getElem?_take_of_lt hlength,
      List.getElem?_drop]

/-- What an address names is covered by its segment. -/
theorem Names.covers {s : Segments} {a : Address} {bytes : List UInt8}
    (h : s.Names a bytes) : s.Covers a bytes := by
  cases h with
  | empty hempty => exact covers_nil hempty
  | small segment _ hcls hindex hstop =>
      refine covers_slice ?_ hstop
      rw [hcls]
      exact hindex
  | large segment _ hcls hindex hoffset hsize =>
      have hstart : a.offset.toNat = 0 := by rw [hoffset]; rfl
      have hstop : a.stop ≤ segment.size := by
        rw [Address.stop, hstart, Nat.zero_add]
        exact hsize
      have hcovers : s.Covers a (slice segment.bytes a.offset.toNat a.length.toNat) := by
        refine covers_slice ?_ hstop
        rw [hcls]
        exact hindex
      rwa [hstart, slice, List.drop_zero] at hcovers

/-- The addresses that fit are those that name something. -/
theorem fits_iff_names {s : Segments} {a : Address} :
    s.Fits a ↔ ∃ bytes, s.Names a bytes := by
  have hzero : a.length.toNat = 0 ↔ a.length = 0 := by
    rw [← Address.isEmpty_iff]
    simp [Address.isEmpty]
  constructor
  · intro h
    by_cases hlength : a.length = 0
    · exact ⟨_, .empty hlength⟩
    · rcases h with hempty | ⟨hcls, hindex, hstop⟩ | ⟨hcls, hindex, hoffset, hsize⟩
      · exact absurd (hzero.1 hempty) hlength
      · exact ⟨_, .small _ hlength hcls (List.getElem?_eq_getElem hindex) hstop⟩
      · exact ⟨_, .large _ hlength hcls (List.getElem?_eq_getElem hindex) hoffset hsize⟩
  · rintro ⟨bytes, h⟩
    cases h with
    | empty hempty => exact .inl (hzero.2 hempty)
    | small segment _ hcls hindex hstop =>
        obtain ⟨hbound, rfl⟩ := List.getElem?_eq_some_iff.1 hindex
        exact .inr (.inl ⟨hcls, hbound, hstop⟩)
    | large segment _ hcls hindex hoffset hsize =>
        obtain ⟨hbound, rfl⟩ := List.getElem?_eq_some_iff.1 hindex
        exact .inr (.inr ⟨hcls, hbound, hoffset, hsize⟩)

/-- Reading answers with bytes just when resolving does. -/
theorem read_ok_iff {s : Segments} {a : Address} {bytes : List UInt8} :
    (s.read a).1 = .ok bytes ↔ s.resolve a = .ok bytes := by
  rw [read]
  cases s.resolve a with
  | error cause => constructor <;> intro h <;> cases h
  | ok value => constructor <;> intro h <;> cases h <;> rfl

/-- A refusal names the address that was asked for, is reported once, and leaves
the buffer alone. -/
theorem read_of_refusal {s : Segments} {a : Address} {cause : AddressFault}
    (h : s.resolve a = .error cause) :
    s.read a = (.error (.address a cause), [.readRejected a cause]) ∧
      ∀ buffer, s.readOnto a buffer =
        ⟨.error (.address a cause), buffer, [.readRejected a cause]⟩ := by
  have hread : s.read a = (.error (.address a cause), [.readRejected a cause]) := by
    rw [read, h]
    rfl
  refine ⟨hread, fun buffer => ?_⟩
  rw [readOnto, hread]

/-- Reading accepts exactly the addresses that fit. The bytes it answers with are
those that the address covers, and they are added to a buffer unchanged; every
other address is refused under its own name, with the buffer left as it was. -/
theorem read_ok_iff_fits (s : Segments) (a : Address) :
    ((∃ bytes, (s.read a).1 = .ok bytes) ↔ s.Fits a) ∧
    (∀ bytes, (s.read a).1 = .ok bytes → s.Covers a bytes ∧ s.read a = (.ok bytes, []) ∧
      ∀ buffer, s.readOnto a buffer = ⟨.ok (), buffer ++ bytes, []⟩) ∧
    (¬ s.Fits a → ∃ cause,
      s.read a = (.error (.address a cause), [.readRejected a cause]) ∧
        ∀ buffer, s.readOnto a buffer =
          ⟨.error (.address a cause), buffer, [.readRejected a cause]⟩) := by
  have hfits : s.Fits a ↔ ∃ bytes, s.resolve a = .ok bytes := by
    simp only [fits_iff_names, resolve_eq_ok_iff]
  refine ⟨?_, ?_, ?_⟩
  · simp only [hfits, read_ok_iff]
  · intro bytes hread
    have hresolve := read_ok_iff.1 hread
    exact ⟨(resolve_eq_ok_iff.1 hresolve).covers, read_of_resolve hresolve,
      readOnto_of_resolve hresolve⟩
  · intro hmisses
    cases hresolve : s.resolve a with
    | ok bytes => exact absurd (hfits.2 ⟨bytes, hresolve⟩) hmisses
    | error cause => exact ⟨cause, read_of_refusal hresolve⟩

/-- As a word, the end of this run would be 3, inside the segment. -/
example : ¬ Fits { small := [.ofBytes [1, 2, 3, 4]] } (.inSmall 0 0xffffffff 4) := by decide

end Parcel.Segments
