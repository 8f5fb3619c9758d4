import Parcel.Proofs.Fitting
import Parcel.Proofs.PackerRoundTrip
import Parcel.Resource.Font

/-!
# Values in segments

Values are written as their spellings, one behind the other, and read by cutting the bytes
up again. Reading answers with values just when the address names their spelling
(`readValues_ok_iff`). That one statement has the rest in it: the bytes are cut into as many
values as they make up, every byte is the byte of one of them, and where a part of a value
is left over there is no answer.

Cutting starts at the address and not at a multiple of the width, so that it makes no
difference where in a segment the values have come to lie (`values_bit_exact`).
-/

namespace Parcel

namespace Segments

variable {β : Type} [Packed β] {s : Segments} {a : Address}

theorem length_of_read {bytes : List UInt8} (h : (s.read a).1 = .ok bytes) :
    bytes.length = a.length.toNat :=
  (resolve_eq_ok_iff.1 (read_ok_iff.1 h)).covers.length

/-- Values are read from bytes that make up a whole number of them. -/
theorem of_readValues_ok {values : List β} (h : (s.readValues β a).1 = .ok values) :
    ∃ bytes, (s.read a).1 = .ok bytes ∧ Packed.width β ∣ bytes.length ∧
      values = Packed.unpackAll bytes := by
  rw [readValues, resolveValues] at h
  cases hresolve : s.resolve a with
  | error cause => rw [hresolve] at h; cases h
  | ok bytes =>
      rw [hresolve] at h
      change (reported a (if _ then _ else _)).1 = _ at h
      split at h
      · cases h
      · next hwhole =>
          cases h
          exact ⟨bytes, read_ok_iff.2 hresolve,
            Nat.dvd_of_mod_eq_zero (by_contra fun hpart => hwhole (.inr hpart)), rfl⟩

/-- The values that are read are those whose spelling the address names. -/
theorem readValues_ok_iff (hwidth : 0 < Packed.width β) {values : List β} :
    (s.readValues β a).1 = .ok values ↔ (s.read a).1 = .ok (Packed.packAll values) := by
  constructor
  · intro h
    obtain ⟨bytes, hread, hwhole, rfl⟩ := of_readValues_ok h
    rw [hread, Packed.packAll_unpackAll hwhole]
  · intro h
    rw [readValues_of_resolve hwidth (read_ok_iff.1 h)]

/-- There are values to be read just when there are bytes, and none are left over. -/
theorem exists_readValues_iff (hwidth : 0 < Packed.width β) :
    (∃ values, (s.readValues β a).1 = .ok values) ↔
      (∃ bytes, (s.read a).1 = .ok bytes) ∧ Packed.width β ∣ a.length.toNat := by
  constructor
  · rintro ⟨values, h⟩
    obtain ⟨bytes, hread, hwhole, -⟩ := of_readValues_ok h
    rw [length_of_read hread] at hwhole
    exact ⟨⟨bytes, hread⟩, hwhole⟩
  · rintro ⟨⟨bytes, hread⟩, hwhole⟩
    rw [← length_of_read hread] at hwhole
    refine ⟨Packed.unpackAll bytes, (readValues_ok_iff hwidth).2 ?_⟩
    rw [hread, Packed.packAll_unpackAll hwhole]

theorem length_of_readValues {values : List β} (h : (s.readValues β a).1 = .ok values) :
    values.length = a.length.toNat / Packed.width β := by
  obtain ⟨bytes, hread, -, rfl⟩ := of_readValues_ok h
  rw [Packed.length_unpackAll, length_of_read hread]

/-- No address has values without width, not even that of an empty payload. -/
theorem readValues_of_width_zero (hwidth : Packed.width β = 0) (s : Segments) (a : Address) :
    ∃ cause, s.readValues β a = (.error (.address a cause), [.readRejected a cause]) := by
  rw [readValues, resolveValues]
  cases s.resolve a with
  | error cause => exact ⟨cause, rfl⟩
  | ok bytes =>
      refine ⟨.partialElement (Packed.width β), ?_⟩
      change reported a (if _ then _ else _) = _
      rw [if_pos (.inl hwidth)]
      rfl

end Segments

namespace Packer

variable {α : Type} [Allocator α] {β : Type} [Packed β] {p : Packer α} {values : List β}
  {a : Address}

/-- What is written as values is found as these values in the segments of the next flush. -/
theorem written_values_read (hp : p.Wf) (hwidth : 0 < Packed.width β)
    (ha : (p.writeValues values).answer = .ok a) {between : List Op}
    (hbetween : ∀ e ∈ ((p.writeValues values).state.run between).events, e.IsWrite)
    {t : Segments}
    (hcopy : ((p.writeValues values).state.run between).state.flush.1.SameBytes t) :
    a.length.toNat = Packed.width β * values.length ∧
      t.readValues β a = (.ok values, []) := by
  have hholds := holds_written hp ha
  have hlast := hholds.run (wf_write hp (Packed.packAll values)) hbetween
  have hresolve : t.resolve a = .ok (Packed.packAll values) := by
    rw [← Segments.resolve_congr hcopy]
    exact hlast.resolve
  refine ⟨?_, Segments.readValues_of_resolve hwidth hresolve⟩
  rw [← hholds.names.covers.length, Packed.length_packAll, Nat.mul_comm]

end Packer

/-- Each value is spelled in so many bytes as one number, least byte first. -/
def Packed.SpelledAs {β : Type} [Packed β] (bytes : Nat) (number : β → Nat) : Prop :=
  Packed.width β = bytes ∧ ∀ b : β, Packed.pack b = LittleEndian.encode bytes (number b)

/-- Values survive writing and reading bit by bit. Those that were written, to a packer of any
history, have an address of as many bytes as they are wide together, and the segments of the
next flush, or any copy of them, show just these values there, wherever in a segment that is.
At an address from anywhere there are values to be read just when there are bytes, and none
left over; the values are as many as fit, and their spellings make up the bytes. Values without
width are at no address. Numbers are spelled with the least byte first, and an axis value as
its tag and its number. -/
theorem values_bit_exact {α : Type} [Allocator α] {allocator : α} {size : UInt64} {p : Packer α}
    (hp : Packer.ofSize allocator size = .ok p) :
    (∀ (β : Type) [Packed β] (before between : List Packer.Op) (values : List β) a t,
      let o := (p.run before).state.writeValues values
      0 < Packed.width β → o.answer = .ok a →
      (∀ e ∈ (o.state.run between).events, e.IsWrite) →
      (o.state.run between).state.flush.1.SameBytes t →
      a.length.toNat = Packed.width β * values.length ∧
        t.readValues β a = (.ok values, [])) ∧
    (∀ (β : Type) [Packed β] (s : Segments) (a : Address), 0 < Packed.width β →
      ((∃ values, (s.readValues β a).1 = .ok values) ↔
        (∃ bytes, (s.read a).1 = .ok bytes) ∧ Packed.width β ∣ a.length.toNat) ∧
      ∀ values, (s.readValues β a).1 = .ok values →
        values.length = a.length.toNat / Packed.width β ∧
          (s.read a).1 = .ok (values.flatMap Packed.pack)) ∧
    (∀ (β : Type) [Packed β] (s : Segments) (a : Address), Packed.width β = 0 →
      ∃ cause, s.readValues β a = (.error (.address a cause), [.readRejected a cause])) ∧
    Packed.SpelledAs 1 UInt8.toNat ∧ Packed.SpelledAs 2 UInt16.toNat ∧
    Packed.SpelledAs 4 UInt32.toNat ∧ Packed.SpelledAs 8 UInt64.toNat ∧
    Packed.SpelledAs 4 (fun x : Int32 => x.toUInt32.toNat) ∧
    Packed.SpelledAs 4 (fun x : Binary32 => x.bits.toNat) ∧
    Packed.width FontVariation = 8 ∧
    ∀ v : FontVariation, Packed.pack v = Packed.pack v.tag ++ Packed.pack v.value := by
  refine ⟨fun β _ before between values a t => ?_, fun β _ s a hwidth => ⟨?_, fun values h => ?_⟩,
    fun β _ s a hwidth => Segments.readValues_of_width_zero hwidth s a,
    ⟨rfl, fun _ => rfl⟩, ⟨rfl, fun _ => rfl⟩, ⟨rfl, fun _ => rfl⟩, ⟨rfl, fun _ => rfl⟩,
    ⟨rfl, fun _ => rfl⟩, ⟨rfl, fun _ => rfl⟩, rfl, fun _ => rfl⟩
  · intro o hwidth ha hbetween hcopy
    have hwf := Packer.wf_run (Packer.wf_ofSize hp) before
    exact Packer.written_values_read hwf hwidth ha hbetween hcopy
  · exact Segments.exists_readValues_iff hwidth
  · exact ⟨Segments.length_of_readValues h, (Segments.readValues_ok_iff hwidth).1 h⟩

/-- Two axis values, one of them a NaN with a payload, three bytes behind the start of a
segment. A part of them cannot be read, nor can values without width. -/
theorem values_bit_exact_unaligned :
    ∃ p a s, Packer.ofSize Packer.stuttering 64 = .ok p ∧
      let values : List FontVariation := [⟨0x77676874, ⟨0x7fc00001⟩⟩, ⟨1, ⟨0x41400000⟩⟩]
      let o := (p.run [.write [1, 2, 3]]).state.writeValues values
      o.answer = .ok a ∧ a.offset = 3 ∧
      (o.state.run [.write [9], .writeValues [(7 : UInt16)]]).state.flush.1 = s ∧
      a.length.toNat = 16 ∧ s.copy.readValues FontVariation a = (.ok values, []) ∧
      (¬ ∃ part, (s.readValues FontVariation { a with length := 9 }).1 = .ok part) ∧
      ∃ cause, s.readValues Unit .empty = (.error (.address .empty cause),
        [.readRejected .empty cause]) := by
  obtain ⟨p, hp⟩ : ∃ p, Packer.ofSize Packer.stuttering 64 = .ok p := ⟨_, rfl⟩
  obtain ⟨hwritten, hread, hnothing, -⟩ := values_bit_exact hp
  cases hp
  have hwrites : ∀ e ∈ ([.wrote [9] (.ok (.inSmall 0 19 1)),
      .wrote [7, 0] (.ok (.inSmall 0 20 2))] : List Packer.Event), e.IsWrite := by
    simp [Packer.Event.IsWrite]
  obtain ⟨hlength, hvalues⟩ := hwritten FontVariation [.write [1, 2, 3]]
    [.write [9], .writeValues [(7 : UInt16)]]
    [⟨0x77676874, ⟨0x7fc00001⟩⟩, ⟨1, ⟨0x41400000⟩⟩] _ _ (by decide) rfl hwrites
    (Segments.sameBytes_copy _)
  refine ⟨_, _, _, rfl, rfl, rfl, rfl, hlength, hvalues, fun hpart => ?_,
    hnothing Unit _ _ rfl⟩
  have hwhole := ((hread FontVariation _ _ (by decide)).1.1 hpart).2
  revert hwhole
  decide

end Parcel
