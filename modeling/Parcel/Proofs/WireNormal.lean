import Parcel.Proofs.FrameIncremental

/-!
# What was accepted can be framed again, in no more bytes

A frame may come from anybody. Its archive may have gaps, a pointer to anywhere and
any count, and all that a receiver checks is that the records lie in front of the
root. That is enough to bound what it gets: the records that it reads lie side by
side, each in bytes of its own, and those bytes are in the frame. Reading cannot be
made to yield more than was sent.

The pointer has a part in this, too. It reaches back a limited way, and the bytes in
front of what it reaches hold no record. A list that was read is therefore within the
reach of the archive that would be written for it (`Archive.records_fit`), however long
the frame was that it came in, so that it can be framed again. The new frame has no
gaps: it is the shortest one for these records, and it is read as what it was made of.
-/

namespace Parcel

/-- A list is mapped to as many values as it has elements, or to none. -/
theorem length_of_mapM {α β : Type} {f : α → Option β} {xs : List α} {ys : List β}
    (h : xs.mapM f = some ys) : ys.length = xs.length := by
  induction xs generalizing ys with
  | nil =>
      rw [List.mapM_nil] at h
      cases h
      rfl
  | cons x xs ih =>
      rw [List.mapM_cons] at h
      simp only [Option.bind_eq_bind, Option.bind_eq_some_iff, Option.pure_def,
        Option.some.injEq] at h
      obtain ⟨y, -, ys', hys, rfl⟩ := h
      rw [List.length_cons, List.length_cons, ih hys]

namespace Archive

variable {headerSize : Nat} {bytes : List UInt8} {a : Archive}

/-- The records that a root leads to lie between the first byte and the root, and no
further from the pointer than it can reach. -/
theorem records_fit {start count : Nat} (h : recordsOf? headerSize bytes = some (start, count)) :
    Record.size * count + rootSize headerSize ≤ bytes.length ∧
      Record.size * count + headerSize ≤ reach := by
  obtain ⟨root, hlength, -, hstart, -, -, hfits⟩ := recordsOf?_eq_some_iff.1 h
  have hback := (Record.valueAt Int32 bytes (root + headerSize)).le_toInt
  have hreach : reach = 2147483648 := rfl
  refine ⟨by omega, ?_⟩
  rw [hreach]
  omega

theorem decode?_fits (h : decode? headerSize bytes = some a) :
    a.header.length = headerSize ∧
      Record.size * a.updates.length + rootSize headerSize ≤ bytes.length ∧
      Record.size * a.updates.length + headerSize ≤ reach := by
  simp only [decode?, Option.bind_eq_bind, Option.bind_eq_some_iff, Option.pure_def,
    Option.some.injEq] at h
  obtain ⟨⟨start, count⟩, hrecords, updates, hupdates, rfl⟩ := h
  have hcount : updates.length = count :=
    (length_of_mapM hupdates).trans (Packed.length_cut _ _ _)
  obtain ⟨hlength, hreach⟩ := records_fit hrecords
  rw [← hcount] at hlength hreach
  have hroot : rootSize headerSize = headerSize + 8 := rfl
  exact ⟨length_slice (by omega), hlength, hreach⟩

end Archive

/-- A value was read from a body, which makes up the rest of what was consumed. -/
theorem Frame.body_of_value {β : Type} {decode? : List UInt8 → Option β} {buffer : List UInt8}
    {value : β} {consumed : Nat} (h : read decode? buffer = .ok (some (value, consumed))) :
    decode? (body buffer) = some value ∧ consumed = headSize + (body buffer).length := by
  have hanswered : read decode? buffer ≠ .ok none := by simp [h]
  have hwhole := read_ne_none_iff.1 hanswered
  rw [read_of_whole hwhole] at h
  split at h
  · cases h
  · next hvalue =>
      cases h
      exact ⟨hvalue, by rw [length_body hwhole]⟩

/-! ## Lists of records -/

theorem decodeUpdates?_fits {body : List UInt8} {us : List Update}
    (h : decodeUpdates? body = some us) :
    Record.size * us.length + Archive.rootSize 0 ≤ body.length ∧
      Record.size * us.length ≤ Archive.reach := by
  simp only [decodeUpdates?, Option.bind_eq_bind, Option.bind_eq_some_iff, Option.pure_def,
    Option.some.injEq] at h
  obtain ⟨a, ha, rfl⟩ := h
  exact (Archive.decode?_fits ha).2

theorem length_frameUpdates {us : List Update} {f : List UInt8} (h : frameUpdates us = .ok f) :
    f.length = Frame.headSize + (Record.size * us.length + Archive.rootSize 0) := by
  obtain ⟨body, hbody, hwrap⟩ := frameUpdates_eq_ok_iff.1 h
  rw [Frame.length_wrap hwrap, Archive.length_encoded hbody]
  rfl

theorem unframeUpdates_frame {us : List Update} {f : List UInt8} (h : frameUpdates us = .ok f)
    (rest : List UInt8) : unframeUpdates (f ++ rest) = .ok (some (us, f.length)) := by
  obtain ⟨body, hbody, hwrap⟩ := frameUpdates_eq_ok_iff.1 h
  exact Frame.read_wrap hwrap (decodeUpdates?_encode hbody) rest

/-! ## Manifests -/

namespace Manifest

theorem decode?_fits {body : List UInt8} {m : Manifest} (h : decode? body = some m) :
    Record.size * m.updates.length + Archive.rootSize headerSize ≤ body.length ∧
      Record.size * m.updates.length + headerSize ≤ Archive.reach := by
  simp only [decode?, Option.bind_eq_bind, Option.bind_eq_some_iff, Option.pure_def,
    Option.some.injEq] at h
  obtain ⟨a, ha, rfl⟩ := h
  exact (Archive.decode?_fits ha).2

/-- A batch has only the one manifest that describes it. -/
theorem Describes.ofBatch {m : Manifest} {b : Batch} (h : m.Describes b) :
    Manifest.ofBatch b = .ok m := by
  have hsmall : b.segments.small.length < UInt32.size := h.small ▸ m.smallSegments.toNat_lt
  have hlarge : b.segments.large.length < UInt32.size := h.large ▸ m.largeSegments.toNat_lt
  rw [Manifest.ofBatch, checkCount, checkCount, if_pos hsmall, if_pos hlarge, ← h.small, ← h.large,
    ← h.updates, UInt32.ofNat_toNat, UInt32.ofNat_toNat]
  rfl

end Manifest

/-- What was taken off a buffer can be framed again, and the new frame is read as the same.
It has a head, a root and the bytes of each record and is no longer than what was taken
off, so that no frame holds more records than have room in it side by side. For a manifest
this is so with every batch of the same records and of as many segments as it counts. -/
theorem accepted_frames_normal (buffer : List UInt8) :
    (∀ us consumed, unframeUpdates buffer = .ok (some (us, consumed)) →
      ∃ f, frameUpdates us = .ok f ∧
        f.length = Frame.headSize + (Record.size * us.length + Archive.rootSize 0) ∧
        f.length ≤ consumed ∧ consumed ≤ buffer.length ∧
        unframeUpdates f = .ok (some (us, f.length))) ∧
    ∀ m consumed, unframeBatch buffer = .ok (some (m, consumed)) →
      ∀ b, m.Describes b →
        ∃ f, frameBatch b = .ok f ∧
          f.length = Frame.headSize +
            (Record.size * m.updates.length + Archive.rootSize Manifest.headerSize) ∧
          f.length ≤ consumed ∧ consumed ≤ buffer.length ∧
          unframeBatch f = .ok (some (m, f.length)) := by
  refine ⟨fun us consumed hread => ?_, fun m consumed hread b hdescribes => ?_⟩
  · obtain ⟨hvalue, hconsumed⟩ := Frame.body_of_value hread
    obtain ⟨hbody, hreach⟩ := decodeUpdates?_fits hvalue
    obtain ⟨f, hf⟩ := frameUpdates_ok_iff.2 hreach
    have hlength := length_frameUpdates hf
    have hagain := unframeUpdates_frame hf []
    rw [List.append_nil] at hagain
    exact ⟨f, hf, hlength, by omega, (Frame.read_bounds hread).2, hagain⟩
  · obtain ⟨hvalue, hconsumed⟩ := Frame.body_of_value hread
    obtain ⟨hbody, hreach⟩ := Manifest.decode?_fits hvalue
    obtain ⟨body, f, hencode, hwrap⟩ := Manifest.frame_exists hreach
    have hlength := Frame.length_wrap hwrap
    rw [Manifest.length_encoded hencode] at hlength
    have hframe := (frameBatch_ok_iff hdescribes.ofBatch).2 ⟨body, hencode, hwrap⟩
    have hagain := Frame.read_wrap hwrap (Manifest.decode?_encode hencode) []
    rw [List.append_nil] at hagain
    exact ⟨f, hframe, hlength, by omega, (Frame.read_bounds hread).2, hagain⟩

/-- A deletion with bytes in front of it and between its fields that mean nothing, a root, and
a length before it all. -/
def gapped (length : UInt8) (root : List UInt8) : List UInt8 :=
  [length, 0, 0, 0] ++ List.replicate 8 0xaa ++
    ([6, 0xbb, 0xbb, 0xbb, 7, 0, 0, 0, 9, 0, 0, 0] ++ List.replicate 52 0xcc) ++ root

/-- The pointers lead back to the ninth byte, and what is in front of it is gone from the new
frames. -/
theorem accepted_frames_normal_gapped :
    ∃ m : Manifest,
      unframeUpdates (gapped 80 [0xc0, 0xff, 0xff, 0xff, 1, 0, 0, 0]) =
        .ok (some ([.deleteImage ⟨7, 9⟩], 84)) ∧
      unframeBatch (gapped 88 [2, 0, 0, 0, 0, 0, 0, 0, 0xb8, 0xff, 0xff, 0xff, 1, 0, 0, 0]) =
        .ok (some (m, 92)) ∧ m.updates = [.deleteImage ⟨7, 9⟩] ∧
      (∃ f, frameUpdates [.deleteImage ⟨7, 9⟩] = .ok f ∧ f.length = 76 ∧
        unframeUpdates f = .ok (some ([.deleteImage ⟨7, 9⟩], f.length))) ∧
      ∃ b f, m.Describes b ∧ frameBatch b = .ok f ∧ f.length = 84 ∧
        unframeBatch f = .ok (some (m, f.length)) := by
  have hupdates : unframeUpdates (gapped 80 [0xc0, 0xff, 0xff, 0xff, 1, 0, 0, 0]) =
      .ok (some ([.deleteImage ⟨7, 9⟩], 84)) := rfl
  have hbatch : unframeBatch
      (gapped 88 [2, 0, 0, 0, 0, 0, 0, 0, 0xb8, 0xff, 0xff, 0xff, 1, 0, 0, 0]) =
        .ok (some (⟨2, 0, [.deleteImage ⟨7, 9⟩]⟩, 92)) := rfl
  have hdescribes : Manifest.Describes ⟨2, 0, [.deleteImage ⟨7, 9⟩]⟩
      { updates := [.deleteImage ⟨7, 9⟩], segments := { small := [.ofBytes [], .ofBytes []] } } :=
    ⟨rfl, rfl, rfl⟩
  obtain ⟨f, hf, hlength, -, -, hagain⟩ := (accepted_frames_normal _).1 _ _ hupdates
  obtain ⟨g, hg, hlength', -, -, hagain'⟩ := (accepted_frames_normal _).2 _ _ hbatch _ hdescribes
  exact ⟨_, hupdates, hbatch, rfl, ⟨f, hf, hlength, hagain⟩, _, g, hdescribes, hg, hlength', hagain'⟩

end Parcel
