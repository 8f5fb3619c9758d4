import Parcel.Proofs.PackerPlain
import Parcel.Proofs.PackerRoundTrip

/-!
# Writing never oversteps its bounds

A packer that some run of a new one leads to is sound. Its lists and its cursor then go
through every further run with no guard broken (`guarded_write_answers`), and an address
that a write answers with says in full where the payload lies (`Located`). The same can be
said without a packer: new lists with a cursor at zero never get stuck, and wherever a run
leaves them, there is no cursor without a small segment (`PlainPacker.run?_answers`).
-/

namespace Parcel

namespace Packer

variable {α : Type} [Allocator α]

/-- Some run of a new packer leads here. -/
def Reachable (size : UInt64) (q : Packer α) : Prop :=
  ∃ allocator p ops, ofSize allocator size = .ok p ∧ (p.run ops).state = q

theorem Reachable.sound {size : UInt64} {q : Packer α} (h : Reachable size q) : q.Sound := by
  obtain ⟨allocator, p, ops, hp, rfl⟩ := h
  refine sound_run ?_ ops
  rw [← emptied_of_ofSize hp]
  exact sound_emptied p

theorem Reachable.chunkSize {size : UInt64} {q : Packer α} (h : Reachable size q) :
    q.chunkSize.bytes = size.toNat := by
  obtain ⟨allocator, p, ops, hp, rfl⟩ := h
  rw [chunkSize_run, chunkSize_of_ofSize hp]

omit [Allocator α] in
theorem cursor_of_small_nil {p : Packer α} (h : p.small = []) : p.cursor = 0 := by
  cases hcurrent : p.current with
  | none => simp [cursor, hcurrent]
  | some chunk => simp [small_of_current hcurrent] at h

/-- The address spells out in full where the packer, as it is now, has just put
the payload: at the end of one of its lists, and right in front of the cursor if
the list is that of the small segments. -/
inductive Located (q : Packer α) (payload : List UInt8) (a : Address) : Prop
  | empty (hpayload : payload = []) (ha : a = .empty)
  | small (hcls : a.cls = .small) (hindex : a.index.toNat + 1 = q.small.length)
      (hoffset : a.offset.toNat + payload.length = q.cursor)
      (hlength : a.length.toNat = payload.length)
  | large (hcls : a.cls = .large) (hindex : a.index.toNat + 1 = q.large.length)
      (hoffset : a.offset = 0) (hlength : a.length.toNat = payload.length)

theorem located_of_written {p : Packer α} (hp : p.Wf) {payload : List UInt8} {a : Address}
    (ha : (p.write payload).answer = .ok a) : (p.write payload).state.Located payload a := by
  have hwrites := write_writes p payload
  generalize p.write payload = o at hwrites ha
  cases hwrites with
  | empty hempty =>
      cases ha
      exact .empty hempty rfl
  | refused _ _ _ _ _ => cases ha
  | withdrawn _ _ _ _ _ _ _ => cases ha
  | placed p' chunk _ _ hfit hopen _ =>
      cases ha
      obtain ⟨hp', hchunk, hroom⟩ := hopen.wf hp hfit
      have haddressable := p'.chunkSize.addressable
      refine .small rfl ?_ ?_ (UInt32.toNat_ofNat_of_lt' (by omega))
      · show (UInt32.ofNat p'.filled.length).toNat + 1 = (p'.filled ++ [_]).length
        rw [UInt32.toNat_ofNat_of_lt' (hp'.filled_lt hchunk), List.length_append,
          List.length_singleton]
      · show (UInt32.ofNat chunk.used).toNat + payload.length = chunk.used + payload.length
        rw [UInt32.toNat_ofNat_of_lt' (by omega)]
  | stored segment _ _ _ hshort hindex _ _ =>
      cases ha
      refine .large rfl ?_ rfl (UInt32.toNat_ofNat_of_lt' hshort)
      show (UInt32.ofNat p.large.length).toNat + 1 = (p.large ++ [_]).length
      rw [UInt32.toNat_ofNat_of_lt' hindex, List.length_append, List.length_singleton]

/-- In no state that a packer can reach does a write overstep its bounds. Its
chunk size is the one that it was made with and fits in a word, its cursor lies
inside the chunk, its segments are long enough, and their indices fit in an
address. Under guard a write therefore has the answer that it has without, and
an address that it answers with is cut short nowhere. So it goes on for whole runs, in
which the lists and the cursor are those of the packer at every turn. -/
theorem guarded_write_answers {size : UInt64} {q : Packer α} (hq : Reachable size q) :
    (q.chunkSize.bytes = size.toNat ∧ 1 ≤ q.chunkSize.bytes ∧
      q.chunkSize.bytes < UInt32.size) ∧
    q.Wf ∧ (q.small = [] → q.cursor = 0) ∧
    (∀ payload, q.plain.write? payload = some ((q.write payload).view plain) ∧
      ∀ a, (q.write payload).answer = .ok a → (q.write payload).state.Located payload a) ∧
    ∀ ops, q.plain.run? ops =
      some ⟨(q.run ops).events, (q.run ops).state.plain, (q.run ops).entries⟩ := by
  have hsound := hq.sound
  refine ⟨⟨hq.chunkSize, q.chunkSize.pos, q.chunkSize.addressable⟩, hsound.toWf,
    cursor_of_small_nil, fun payload => ⟨write?_plain hsound payload, ?_⟩, run?_plain hsound⟩
  intro a ha
  exact located_of_written hsound.toWf ha

/-- One chunk is nearly full, and the allocator refuses the next one. -/
theorem guarded_write_answers_stuttering :
    ∃ q : Packer Scripted, Reachable 4 q ∧ q.small.length = 1 ∧ q.cursor = 3 ∧ q.Wf ∧
      q.plain.write? [4, 5] = some ((q.write [4, 5]).view plain) ∧
      (q.write [4, 5]).answer = .error (.allocation (.other "none left")) := by
  obtain ⟨q, hq, hsmall, hcursor, hfails⟩ : ∃ q : Packer Scripted, Reachable 4 q ∧
      q.small.length = 1 ∧ q.cursor = 3 ∧
      (q.write [4, 5]).answer = .error (.allocation (.other "none left")) :=
    ⟨_, ⟨stuttering, _, [.write [1, 2, 3]], rfl, rfl⟩, rfl, rfl, rfl⟩
  obtain ⟨-, hwf, -, hguarded, -⟩ := guarded_write_answers hq
  exact ⟨q, hq, hsmall, hcursor, hwf, (hguarded [4, 5]).1, hfails⟩

end Packer

namespace PlainPacker

variable {α : Type}

theorem eq_of_ofSize {allocator : α} {size : UInt64} {s : PlainPacker α}
    (h : ofSize allocator size = .ok s) :
    ∃ p : Packer α, Packer.ofSize allocator size = .ok p ∧ p.plain = s := by
  rw [ofSize] at h
  rw [Packer.ofSize]
  cases hsize : ChunkSize.ofSize size with
  | error fault => rw [hsize] at h; cases h
  | ok chunkSize =>
      rw [hsize] at h
      cases h
      exact ⟨_, rfl, rfl⟩

/-- New lists never get stuck, whatever is done with them and whatever the allocator answers.
Wherever that leads, the cursor lies inside the chunk, and at zero if there is no small
segment, and the lists hold no more segments than can be addressed, each of them long
enough. -/
theorem run?_answers [Allocator α] {allocator : α} {size : UInt64} {s : PlainPacker α}
    (hs : ofSize allocator size = .ok s) (ops : List Packer.Op) :
    ∃ r, s.run? ops = some r ∧ r.state.chunkSize = s.chunkSize ∧
      r.state.cursor ≤ s.chunkSize.bytes ∧ (r.state.small = [] → r.state.cursor = 0) ∧
      (∀ segment ∈ r.state.small, s.chunkSize.bytes ≤ segment.size) ∧
      (∀ segment ∈ r.state.large, s.chunkSize.bytes < segment.size) ∧
      r.state.small.length ≤ UInt32.size ∧ r.state.large.length ≤ UInt32.size := by
  obtain ⟨p, hp, rfl⟩ := eq_of_ofSize hs
  have hreach : Packer.Reachable size (p.run ops).state := ⟨allocator, p, ops, hp, rfl⟩
  have hnew : Packer.Reachable size p := ⟨allocator, p, [], hp, rfl⟩
  have hchunkSize : (p.run ops).state.chunkSize = p.chunkSize := p.chunkSize_run ops
  have hwf := hreach.sound.toWf
  refine ⟨_, Packer.run?_plain hnew.sound ops, hchunkSize, ?_⟩
  show _ ≤ p.chunkSize.bytes ∧ _ ∧ (∀ segment ∈ _, p.chunkSize.bytes ≤ _) ∧
    (∀ segment ∈ _, p.chunkSize.bytes < _) ∧ _
  rw [← hchunkSize]
  exact ⟨hwf.cursor_le, Packer.cursor_of_small_nil, hwf.small_size, hwf.large_size,
    hwf.small_count, hwf.large_count⟩

/-- A cursor behind the end of its chunk, which no run leads to, leaves no room to speak of. -/
example : write? { allocator := Heap.mk, chunkSize := ⟨2, by decide, by decide⟩
                   small := [.ofBytes [0, 0, 0]], cursor := 3 } [1] = none := rfl

end PlainPacker

end Parcel
