import Parcel.Proofs.Transport

/-!
# Frames one after another

A receiver takes frames off the front of its buffer until what is left is no
whole frame. Frames that were laid end to end come off one by one, in their
order, each with its own length, and what is behind them is looked at as if it
stood alone (`stream_append`). A frame that has not arrived whole is no error:
however much of it is missing, the receiver waits (`read_of_cut`).

Lists of records travel in such frames, and a list can be framed exactly if the
pointer of its archive reaches back over its records (`frameUpdates_ok_iff`). The
list that is read is the one that was framed, bit for bit. Comparing the two as
values says so, too, unless a glyph size is not a number, for then not even a
record is equal to itself (`equalLists_self`).
-/

namespace Parcel

namespace Frame

variable {β : Type} {decode? : List UInt8 → Option β}

theorem stream_of_value {buffer : List UInt8} {value : β} {consumed : Nat}
    (h : read decode? buffer = .ok (some (value, consumed))) :
    stream decode? buffer =
      .ok (some (value, consumed)) :: stream decode? (buffer.drop consumed) := by
  rw [stream]
  split
  · next hread =>
      rw [h] at hread
      cases hread
      rfl
  · next hother => exact absurd h (hother value consumed)

/-- Where there is no value the stream ends. -/
theorem stream_of_no_value {buffer : List UInt8}
    (h : ∀ value consumed, read decode? buffer ≠ .ok (some (value, consumed))) :
    stream decode? buffer = [read decode? buffer] := by
  rw [stream]
  split
  · next value consumed hread => exact absurd hread (h value consumed)
  · rfl

theorem stream_of_none {buffer : List UInt8} (h : read decode? buffer = .ok none) :
    stream decode? buffer = [.ok none] := by
  rw [stream_of_no_value (by simp [h]), h]

/-- Whatever comes next, the first answer is that of reading once. -/
theorem head?_stream (decode? : List UInt8 → Option β) (buffer : List UInt8) :
    (stream decode? buffer).head? = some (read decode? buffer) := by
  rw [stream]
  split
  · next hread => exact congrArg some hread.symm
  · rfl

/-- Frames come off the front in the order in which they were laid, each whole,
and nothing of them is left for what is behind them. -/
theorem stream_append {sent : List (β × List UInt8)}
    (hsent : ∀ x ∈ sent, ∃ body, wrap body = .ok x.2 ∧ decode? body = some x.1)
    (rest : List UInt8) :
    stream decode? ((sent.map Prod.snd).flatten ++ rest) =
      sent.map (fun x => .ok (some (x.1, x.2.length))) ++ stream decode? rest := by
  induction sent with
  | nil => rfl
  | cons x sent ih =>
      obtain ⟨body, hwrap, hvalue⟩ := hsent x List.mem_cons_self
      have hrest := ih fun y hy => hsent y (List.mem_cons_of_mem x hy)
      rw [List.map_cons, List.flatten_cons, List.append_assoc,
        stream_of_value (read_wrap hwrap hvalue _), List.drop_left, hrest]
      rfl

/-- A frame that was cut short is not split off. If its head is there, it claims
more than there is. -/
theorem split?_of_cut {body f buffer : List UInt8} (h : wrap body = .ok f)
    (hcut : buffer <+: f) (hne : buffer ≠ f) : split? buffer = none := by
  obtain ⟨missing, rfl⟩ := hcut
  have hlength := length_wrap h
  have hmissing : 0 < missing.length := by
    refine List.length_pos_iff.2 fun hnil => hne ?_
    rw [hnil, List.append_nil]
  rw [List.length_append] at hlength
  rw [split?]
  split
  · rfl
  · next hhead =>
      have hclaimed : claimed buffer = body.length := by
        rw [← claimed_wrap h [], List.append_nil, claimed, claimed,
          List.take_append_of_le_length (Nat.le_of_not_lt hhead)]
      rw [hclaimed, if_pos (by omega)]

theorem read_of_cut {body f buffer : List UInt8} (h : wrap body = .ok f)
    (hcut : buffer <+: f) (hne : buffer ≠ f) : read decode? buffer = .ok none := by
  rw [read, split?_of_cut h hcut hne]

end Frame

/-! ## Lists of records in frames -/

theorem decodeUpdates?_encode {us : List Update} {body : List UInt8}
    (h : Archive.encode { updates := us } = .ok body) : decodeUpdates? body = some us := by
  have hdecode : Archive.decode? 0 body = some { updates := us } := Archive.decode?_encode h
  simp only [decodeUpdates?, hdecode, Option.bind_eq_bind, Option.bind_some, Option.pure_def]

theorem frameUpdates_eq_ok_iff {us : List Update} {f : List UInt8} :
    frameUpdates us = .ok f ↔
      ∃ body, Archive.encode { updates := us } = .ok body ∧ Frame.wrap body = .ok f := by
  have hframe : frameUpdates us = (Archive.encode { updates := us }).bind Frame.wrap := rfl
  rw [hframe]
  cases Archive.encode { updates := us } with
  | error fault =>
      constructor
      · intro h
        cases h
      · rintro ⟨body, hbody, -⟩
        cases hbody
  | ok body =>
      constructor
      · exact fun h => ⟨body, rfl, h⟩
      · rintro ⟨_, hbody, hwrap⟩
        cases hbody
        exact hwrap

/-- What can be framed is limited by the reach of the pointer alone: an archive
within its reach is short enough for the length in front of it. -/
theorem frameUpdates_ok_iff {us : List Update} :
    (∃ f, frameUpdates us = .ok f) ↔ Record.size * us.length ≤ Archive.reach := by
  have hdistance : Archive.distance { updates := us } = Record.size * us.length := by
    rw [Archive.distance_eq]
    rfl
  constructor
  · rintro ⟨f, hf⟩
    obtain ⟨body, hbody, -⟩ := frameUpdates_eq_ok_iff.1 hf
    rw [← hdistance]
    exact (Archive.encode_ok_iff.1 hbody).1
  · intro hreach
    rw [← hdistance] at hreach
    have hbody := Archive.encode_ok_iff.2 ⟨hreach, rfl⟩
    have hlength := Archive.length_encoded hbody
    have hroot : Archive.rootSize ([] : List UInt8).length = 8 := rfl
    have hlimit : Archive.reach = 2147483648 := rfl
    refine ⟨_, frameUpdates_eq_ok_iff.2 ⟨_, hbody, if_pos ?_⟩⟩
    show _ < 4294967296
    rw [hlength, hroot, ← hdistance]
    omega

/-! ## Equality of records -/

namespace Change

/-- Only a font instance has a glyph size. -/
def glyphSize? : Update → Option Binary32
  | addFontInstance _ _ glyphSize _ _ _ => some glyphSize
  | _ => none

theorem equal_self {u : Update} :
    u.equal u = true ↔ ∀ size, u.glyphSize? = some size → size.isNaN = false := by
  cases u <;> simp [equal, glyphSize?, Binary32.equal_self]

/-- A list is equal to itself unless it holds a glyph size that is not a number. -/
theorem equalLists_self {us : List Update} :
    equalLists us us = true ↔
      ∀ u ∈ us, ∀ size, u.glyphSize? = some size → size.isNaN = false := by
  induction us with
  | nil => simp [equalLists]
  | cons u us ih => rw [equalLists, Bool.and_eq_true, equal_self, ih, List.forall_mem_cons]

end Change

/-- A stream of frames is read back as it was sent: every list in its turn, with
the length of its frame, and then whatever there is behind the last one. If that
is part of a frame, the receiver waits. A list that was read compares equal to
the one that was sent exactly if all its glyph sizes are numbers. -/
theorem stream_of_frames {sent : List (List Update × List UInt8)}
    (hsent : ∀ x ∈ sent, frameUpdates x.1 = .ok x.2) (rest : List UInt8) :
    Frame.stream decodeUpdates? ((sent.map Prod.snd).flatten ++ rest) =
        sent.map (fun x => .ok (some (x.1, x.2.length))) ++
          Frame.stream decodeUpdates? rest ∧
      (Frame.stream decodeUpdates? rest).head? = some (unframeUpdates rest) ∧
      (∀ body f, Frame.wrap body = .ok f → rest <+: f → rest ≠ f →
        unframeUpdates rest = .ok none) ∧
      ∀ x ∈ sent, ∀ after, ∃ us,
        unframeUpdates (x.2 ++ after) = .ok (some (us, x.2.length)) ∧
        (Change.equalLists us x.1 = true ↔
          ∀ u ∈ x.1, ∀ size, u.glyphSize? = some size → size.isNaN = false) := by
  have hbodies : ∀ x ∈ sent, ∃ body,
      Frame.wrap body = .ok x.2 ∧ decodeUpdates? body = some x.1 := by
    intro x hx
    obtain ⟨body, hbody, hwrap⟩ := frameUpdates_eq_ok_iff.1 (hsent x hx)
    exact ⟨body, hwrap, decodeUpdates?_encode hbody⟩
  refine ⟨Frame.stream_append hbodies rest, Frame.head?_stream _ rest, ?_, ?_⟩
  · intro body f hwrap hcut hne
    exact Frame.read_of_cut hwrap hcut hne
  · intro x hx after
    obtain ⟨body, hwrap, hvalue⟩ := hbodies x hx
    exact ⟨x.1, Frame.read_wrap hwrap hvalue after, Change.equalLists_self⟩

/-- Strange records, no records, and three bytes of a frame that is under way. -/
theorem stream_of_frames_strangeBatch :
    ∃ f g, frameUpdates strangeBatch.updates = .ok f ∧ frameUpdates [] = .ok g ∧
      Frame.stream decodeUpdates? (f ++ (g ++ f.take 3)) =
        [.ok (some (strangeBatch.updates, f.length)), .ok (some ([], g.length)), .ok none] ∧
      Change.equalLists strangeBatch.updates strangeBatch.updates = false := by
  obtain ⟨f, hf⟩ : ∃ f, frameUpdates strangeBatch.updates = .ok f :=
    frameUpdates_ok_iff.2 (by decide)
  obtain ⟨g, hg⟩ : ∃ g, frameUpdates [] = .ok g := frameUpdates_ok_iff.2 (by decide)
  have hsent : ∀ x ∈ [(strangeBatch.updates, f), ([], g)], frameUpdates x.1 = .ok x.2 := by
    simp [hf, hg]
  obtain ⟨hstream, -, hwaits, -⟩ := stream_of_frames hsent (f.take 3)
  obtain ⟨body, -, hwrap⟩ := frameUpdates_eq_ok_iff.1 hf
  have hcut : f.take 3 ≠ f := by
    intro heq
    have hlength := congrArg List.length heq
    rw [Frame.length_wrap hwrap, List.length_take, Frame.length_wrap hwrap] at hlength
    have hhead : Frame.headSize = 4 := rfl
    omega
  have hnone := hwaits body f hwrap (List.take_prefix 3 f) hcut
  refine ⟨f, g, hf, hg, ?_, rfl⟩
  rw [Frame.stream_of_none hnone] at hstream
  simpa using hstream

end Parcel
