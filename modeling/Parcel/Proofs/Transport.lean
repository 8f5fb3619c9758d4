import Parcel.Proofs.Reading
import Parcel.Proofs.WireRoundTrip

/-!
# What the receiver has is what was sent

The frame of a batch brings its manifest across, and the manifest has the
records as they were and the number of segments of either class (`Describes`).
Paired with any segments of those numbers it makes a batch of the same records,
and paired with others it is refused. If the segments are copies, nobody who
reads the batch can tell that it is not the one that was sent.

None of this asks anything of the records. Addresses that lead nowhere, flags
that mean nothing and glyph sizes that are not numbers cross like all others,
for a record is read back field by field, bit by bit.
-/

namespace Parcel

namespace Manifest

theorem encode_eq_archive (m : Manifest) :
    ∃ header, header.length = headerSize ∧
      m.encode = Archive.encode { header, updates := m.updates } ∧
      Record.valueAt UInt32 header 0 = m.smallSegments ∧
      Record.valueAt UInt32 header 4 = m.largeSegments := by
  have hlength : (Packed.pack m.smallSegments).length = 4 := Record.length_pack_uint32 _
  have hlast := Record.valueAt_pack m.largeSegments []
  rw [List.append_nil] at hlast
  refine ⟨Packed.pack m.smallSegments ++ Packed.pack m.largeSegments, ?_, rfl, ?_, ?_⟩
  · rw [List.length_append, hlength, Record.length_pack_uint32]
    rfl
  · exact Record.valueAt_pack m.smallSegments _
  · rw [Record.valueAt_append (Nat.le_of_eq hlength), hlength]
    exact hlast

/-- A manifest is read back as it was written. -/
theorem decode?_encode {m : Manifest} {body : List UInt8} (h : m.encode = .ok body) :
    decode? body = some m := by
  obtain ⟨header, hlength, harchive, hsmall, hlarge⟩ := encode_eq_archive m
  rw [harchive] at h
  have hdecode := Archive.decode?_encode h
  simp only [hlength] at hdecode
  simp only [decode?, hdecode, hsmall, hlarge, Option.bind_eq_bind, Option.bind_some,
    Option.pure_def]

theorem length_encoded {m : Manifest} {body : List UInt8} (h : m.encode = .ok body) :
    body.length = Record.size * m.updates.length + Archive.rootSize headerSize := by
  obtain ⟨header, hlength, harchive, -, -⟩ := encode_eq_archive m
  rw [harchive] at h
  rw [Archive.length_encoded h, hlength]

/-- A manifest can be written if its pointer reaches back over it. -/
theorem encode_ok {m : Manifest}
    (h : Record.size * m.updates.length + headerSize ≤ Archive.reach) :
    ∃ body, m.encode = .ok body := by
  obtain ⟨header, hlength, harchive, -, -⟩ := encode_eq_archive m
  rw [harchive]
  refine ⟨_, Archive.encode_ok_iff.2 ⟨?_, rfl⟩⟩
  rw [Archive.distance_eq, hlength]
  exact h

end Manifest

/-! ## What a manifest is good for -/

/-- The counts and the records of a batch. -/
structure Manifest.Describes (m : Manifest) (b : Batch) : Prop where
  small : m.smallSegments.toNat = b.segments.small.length
  large : m.largeSegments.toNat = b.segments.large.length
  updates : m.updates = b.updates

/-- If the segments of a batch can be counted, its manifest describes it. -/
theorem Manifest.ofBatch_describes {b : Batch} (hsmall : b.segments.small.length < UInt32.size)
    (hlarge : b.segments.large.length < UInt32.size) :
    ∃ m, Manifest.ofBatch b = .ok m ∧ m.Describes b := by
  refine ⟨⟨.ofNat b.segments.small.length, .ofNat b.segments.large.length, b.updates⟩, ?_,
    UInt32.toNat_ofNat_of_lt' hsmall, UInt32.toNat_ofNat_of_lt' hlarge, rfl⟩
  rw [ofBatch, checkCount, checkCount, if_pos hsmall, if_pos hlarge]
  rfl

/-- Segments that are not as many as were sent are refused. -/
theorem Manifest.Describes.pair_mismatch {m : Manifest} {b : Batch} {s : Segments}
    (h : m.Describes b) (hcount : s.small.length ≠ b.segments.small.length ∨
      s.large.length ≠ b.segments.large.length) :
    m.pair s = .error (.segment (.countMismatch b.segments.small.length
      b.segments.large.length s.small.length s.large.length)) := by
  have hdiffers : ¬ (s.small.length = b.segments.small.length ∧
      s.large.length = b.segments.large.length) := by
    rintro ⟨hsmall, hlarge⟩
    rcases hcount with hcount | hcount
    · exact hcount hsmall
    · exact hcount hlarge
  rw [pair, h.small, h.large, if_neg hdiffers]

theorem Manifest.Describes.pair_ok {m : Manifest} {b : Batch} {s : Segments}
    (h : m.Describes b) (hsmall : s.small.length = b.segments.small.length)
    (hlarge : s.large.length = b.segments.large.length) :
    m.pair s = .ok { updates := b.updates, segments := s } := by
  rw [pair, h.small, h.large, if_pos ⟨hsmall, hlarge⟩, h.updates]

/-- What a record leads to depends on the bytes of the segments alone. -/
theorem Batch.payload_congr {b c : Batch} (h : b.segments.SameBytes c.segments) (u : Update) :
    b.payload u = c.payload u := by
  rw [payload, payload]
  cases u.address? with
  | none => rfl
  | some a => simp only [Segments.read_congr h a]

theorem Batch.variations_congr {b c : Batch} (h : b.segments.SameBytes c.segments)
    (u : Update) : b.variations u = c.variations u := by
  cases u with
  | addFontInstance _ _ _ _ _ a => exact Segments.readValues_congr h a
  | _ => rfl

/-! ## Frames of batches -/

theorem frameBatch_ok_iff {b : Batch} {m : Manifest} {f : List UInt8}
    (hm : Manifest.ofBatch b = .ok m) :
    frameBatch b = .ok f ↔ ∃ body, m.encode = .ok body ∧ Frame.wrap body = .ok f := by
  have hframe : frameBatch b = m.encode.bind Frame.wrap := by
    rw [frameBatch, hm]
    rfl
  rw [hframe]
  constructor
  · intro h
    cases hbody : m.encode with
    | error fault => rw [hbody] at h; cases h
    | ok body => rw [hbody] at h; exact ⟨body, rfl, h⟩
  · rintro ⟨body, hbody, hwrap⟩
    rw [hbody]
    exact hwrap

/-- An archive within the reach of its pointer is short enough for its length to be a word. -/
theorem Manifest.frame_exists {m : Manifest}
    (hreach : Record.size * m.updates.length + headerSize ≤ Archive.reach) :
    ∃ body f, m.encode = .ok body ∧ Frame.wrap body = .ok f := by
  have hroot : Archive.rootSize headerSize = headerSize + 8 := rfl
  have hlimit : Archive.reach = 2147483648 := rfl
  obtain ⟨body, hbody⟩ := encode_ok hreach
  have hlength := length_encoded hbody
  have hword : body.length < 4294967296 := by omega
  exact ⟨body, _, hbody, if_pos hword⟩

/-- Transport changes nothing. A batch whose segments can be counted has a frame
if its archive is short enough, and what is read from the front of a buffer that
starts with its frame is a manifest that describes it. Segments of other numbers
are refused, segments of the same numbers make a batch of the same records, and
in copies of the segments every record leads to what it led to before, be it a
payload, values or a refusal. -/
theorem frame_describes {b : Batch} (hsmall : b.segments.small.length < UInt32.size)
    (hlarge : b.segments.large.length < UInt32.size) :
    (Record.size * b.updates.length + Archive.rootSize Manifest.headerSize < Archive.reach →
      ∃ f, frameBatch b = .ok f) ∧
    ∀ f, frameBatch b = .ok f →
      f.length = Frame.headSize +
        (Record.size * b.updates.length + Archive.rootSize Manifest.headerSize) ∧
      ∃ m : Manifest, m.Describes b ∧
        (∀ rest, unframeBatch (f ++ rest) = .ok (some (m, f.length))) ∧
        (∀ s : Segments, s.small.length ≠ b.segments.small.length ∨
            s.large.length ≠ b.segments.large.length →
          m.pair s = .error (.segment (.countMismatch b.segments.small.length
            b.segments.large.length s.small.length s.large.length))) ∧
        (∀ s : Segments, s.small.length = b.segments.small.length →
          s.large.length = b.segments.large.length →
          m.pair s = .ok { updates := b.updates, segments := s }) ∧
        ∀ s : Segments, b.segments.SameBytes s →
          ∃ c, m.pair s = .ok c ∧ c.updates = b.updates ∧
            ∀ u, c.payload u = b.payload u ∧ c.variations u = b.variations u := by
  obtain ⟨m, hm, hdescribes⟩ := Manifest.ofBatch_describes hsmall hlarge
  constructor
  · intro hshort
    rw [← hdescribes.updates] at hshort
    have hroot : Archive.rootSize Manifest.headerSize = Manifest.headerSize + 8 := rfl
    obtain ⟨body, f, hbody, hwrap⟩ := Manifest.frame_exists (m := m) (by omega)
    exact ⟨f, (frameBatch_ok_iff hm).2 ⟨body, hbody, hwrap⟩⟩
  · intro f hf
    obtain ⟨body, hbody, hwrap⟩ := (frameBatch_ok_iff hm).1 hf
    refine ⟨?_, m, hdescribes, ?_, ?_, ?_, ?_⟩
    · rw [Frame.length_wrap hwrap, Manifest.length_encoded hbody, hdescribes.updates]
    · exact Frame.read_wrap hwrap (Manifest.decode?_encode hbody)
    · exact fun s hcount => hdescribes.pair_mismatch hcount
    · exact fun s hs hl => hdescribes.pair_ok hs hl
    · -- The copy stands in for what was copied.
      intro s hcopy
      have hback : Segments.SameBytes s b.segments := hcopy.symm
      refine ⟨_, hdescribes.pair_ok hcopy.length_small.symm hcopy.length_large.symm, rfl, ?_⟩
      exact fun u => ⟨Batch.payload_congr hback u, Batch.variations_congr hback u⟩

/-- A glyph size that is not a number, flags that mean nothing, and addresses
that lead nowhere. -/
def strangeBatch : Batch where
  updates :=
    [.addFontInstance ⟨1, 2⟩ ⟨1, 1⟩ ⟨0x7fc00001⟩ none none (.inLarge 3 16),
      .addImage ⟨1, 3⟩ { width := 1, height := 1, format := .bgra8, flags := ⟨0xf0000000⟩ }
        (.inSmall 0 2 4)]
  segments := { small := [.ofBytes [1, 2, 3]] }

theorem frame_describes_strangeBatch :
    ∃ f m, frameBatch strangeBatch = .ok f ∧ f.length = 148 ∧
      unframeBatch (f ++ [1, 2, 3]) = .ok (some (m, f.length)) ∧
      m.pair {} = .error (.segment (.countMismatch 1 0 0 0)) ∧
      ∃ c, m.pair strangeBatch.segments.copy = .ok c ∧ c.updates = strangeBatch.updates ∧
        ∀ u, c.payload u = strangeBatch.payload u ∧
          c.variations u = strangeBatch.variations u := by
  obtain ⟨hexists, hframes⟩ := frame_describes (b := strangeBatch) (by decide) (by decide)
  obtain ⟨f, hf⟩ := hexists (by decide)
  obtain ⟨hlength, m, -, hread, hmismatch, -, hcopy⟩ := hframes f hf
  exact ⟨f, m, hf, hlength, hread _, hmismatch {} (.inl (by decide)),
    hcopy _ (Segments.sameBytes_copy _)⟩

end Parcel
