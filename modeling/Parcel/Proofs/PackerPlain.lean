import Parcel.Proofs.PackerRun

/-!
# A packer as two lists and a cursor

`Packer` keeps the segment that is being filled apart from the other small ones, together
with the place where it goes on, so that there is no such place without a segment. A machine
has less to go by: two lists and a number (`PlainPacker`). What ties the number to the lists
is what the operations do to them and nothing else. To start another segment, to hand over
the lists and to drop them each has to set the cursor back as well.

Numbers of packers are not limited and differences stop at zero, so that `write` has an
answer in every state, even in states where a machine would have none. Here each step that a
machine can only take within limits has to stay within them: a difference must not fall below
zero, a sum must be a 64-bit word, an index must be in its list, a payload must end inside
the segment that it is laid into, and the numbers of an address must be 32-bit words. Where
one does not, there is no answer.

What keeps every step within its limits is the invariant of packers, together with the fact
that a packer without a current chunk has no small segments at all (`Sound`). From a sound
packer, seen plainly, every write and every run has an answer, and it is that of the packer
(`write?_plain`, `run?_plain`).
-/

namespace Parcel

/-- The difference, unless it is less than zero. -/
def minus? (a b : Nat) : Option Nat := if b ≤ a then some (a - b) else none

/-- The sum, if it is a 64-bit word. -/
def plus? (a b : Nat) : Option Nat := if a + b < UInt64.size then some (a + b) else none

/-- The number as a 32-bit word, if nothing of it is lost. -/
def word? (n : Nat) : Option UInt32 := if n < UInt32.size then some (.ofNat n) else none

/-- Lays a payload into a segment, inside of which it has to end. Beside the
segment stands whether it granted access. -/
def Segment.fill? (s : Segment) (offset : Nat) (payload : List UInt8) :
    Option (Bool × Segment) :=
  match s.write? offset payload with
  | (.ok (), s) => some (true, s)
  | (.error .readOnly, s) => some (false, s)
  | (.error .outOfBounds, _) => none

/-- A payload that ends inside the segment is laid into it if access is granted. -/
theorem Segment.fill?_of_fits {s : Segment} {offset : Nat} {payload : List UInt8}
    (h : offset + payload.length ≤ s.size) :
    s.fill? offset payload =
      if s.requestAccess.1 then some (true, s.requestAccess.2.overwrite offset payload)
      else some (false, s.requestAccess.2) := by
  have hinside : ¬ s.requestAccess.2.size < offset + payload.length := by
    rw [size_requestAccess]
    exact Nat.not_lt_of_le h
  rw [fill?, write?]
  cases hgrant : s.requestAccess.1 with
  | false => simp [hgrant]
  | true => simp only [hgrant, Bool.not_true, Bool.false_eq_true, if_false, hinside, if_true]

/-- Goes on only after success, and then only if there is a way to go on. -/
def Outcome.andThen? {σ β γ : Type} (o : Outcome σ β)
    (next : β → σ → Option (Outcome σ γ)) : Option (Outcome σ γ) :=
  match o.answer with
  | .error fault => some ⟨.error fault, o.state, o.entries⟩
  | .ok value => do
    let o' ← next value o.state
    return ⟨o'.answer, o'.state, o.entries ++ o'.entries⟩

/-- Two lists of segments, and the place in the last small one where the next payload goes. -/
structure PlainPacker (α : Type) where
  allocator : α
  chunkSize : ChunkSize
  small : List Segment := []
  large : List Segment := []
  cursor : Nat := 0

namespace PlainPacker

variable {α : Type}

def ofSize (allocator : α) (size : UInt64) : Except Fault (PlainPacker α) := do
  return { allocator, chunkSize := ← ChunkSize.ofSize size }

def isEmpty (p : PlainPacker α) : Bool := p.small.isEmpty && p.large.isEmpty

def flush (p : PlainPacker α) : Segments × PlainPacker α × List Entry :=
  ({ small := p.small, large := p.large }, { p with small := [], large := [], cursor := 0 },
    [.segmentsFlushed p.small.length p.large.length])

def clear (p : PlainPacker α) : PlainPacker α × List Entry :=
  ({ p with small := [], large := [], cursor := 0 },
    if p.isEmpty then [] else [.segmentsDiscarded p.small.length p.large.length])

/-- Puts the payload at the cursor of the last small segment. -/
def place? (p : PlainPacker α) (payload : List UInt8) :
    Option (Outcome (PlainPacker α) Address) := do
  let last ← minus? p.small.length 1
  let segment ← p.small[last]?
  let stop ← plus? p.cursor payload.length
  let (granted, segment) ← segment.fill? p.cursor payload
  if granted then
    let address := .inSmall (← word? last) (← word? p.cursor) (← word? payload.length)
    return ⟨.ok address, { p with small := p.small.set last segment, cursor := stop },
      [.written .small payload.length]⟩
  else
    return ⟨.error (.segment (.readOnly .small)), { p with small := p.small.set last segment }, []⟩

/-- The room behind the cursor is asked for only if there is a small segment. -/
def isFull? (p : PlainPacker α) (length : Nat) : Option Bool :=
  if p.small.isEmpty then some true
  else (minus? p.chunkSize.bytes p.cursor).map fun room => decide (room < length)

variable [Allocator α]

/-- Nothing but the allocator takes part in a request. -/
def acquire (p : PlainPacker α) (cls : SegmentClass) (size : Nat) :
    Outcome (PlainPacker α) Segment :=
  (Packer.acquire { allocator := p.allocator, chunkSize := p.chunkSize } cls size).view
    fun asked => { p with allocator := asked.allocator }

/-- Another small segment, with the cursor at its start. -/
def extend (p : PlainPacker α) : Outcome (PlainPacker α) Unit :=
  match Packer.checkIndex p.small.length with
  | .error fault => ⟨.error fault, p, []⟩
  | .ok () =>
    (p.acquire .small p.chunkSize.bytes).andThen fun segment p =>
      ⟨.ok (), { p with small := p.small ++ [segment], cursor := 0 }, []⟩

def writeSmall? (p : PlainPacker α) (payload : List UInt8) :
    Option (Outcome (PlainPacker α) Address) := do
  if ← p.isFull? payload.length then p.extend.andThen? fun _ p => p.place? payload
  else p.place? payload

def writeLarge? (p : PlainPacker α) (payload : List UInt8) :
    Option (Outcome (PlainPacker α) Address) :=
  match Packer.checkIndex p.large.length with
  | .error fault => some ⟨.error fault, p, []⟩
  | .ok () =>
    (p.acquire .large payload.length).andThen? fun segment p => do
      let (granted, segment) ← segment.fill? 0 payload
      if granted then
        let address := .inLarge (← word? p.large.length) (← word? payload.length)
        return ⟨.ok address, { p with large := p.large ++ [segment] },
          [.written .large payload.length]⟩
      else return ⟨.error (.segment (.readOnly .large)), p, []⟩

def write? (p : PlainPacker α) (payload : List UInt8) :
    Option (Outcome (PlainPacker α) Address) :=
  if payload.isEmpty then some ⟨.ok .empty, p, []⟩
  else if UInt32.size ≤ payload.length then
    some ⟨.error (.allocation (.payloadTooLong payload.length)), p, []⟩
  else if p.chunkSize.bytes < payload.length then p.writeLarge? payload
  else p.writeSmall? payload

def turn? (p : PlainPacker α) : Packer.Op → Option (Turn (PlainPacker α) Packer.Event)
  | .write payload => do
    let o ← p.write? payload
    return ⟨.wrote payload o.answer, o.state, o.entries⟩
  | @Packer.Op.writeValues _ _ values => do
    let o ← p.write? (Packed.packAll values)
    return ⟨.wrote (Packed.packAll values) o.answer, o.state, o.entries⟩
  | .flush => some ⟨.flushed p.flush.1, p.flush.2.1, p.flush.2.2⟩
  | .clear => some ⟨.cleared, p.clear.1, p.clear.2⟩

def run? (p : PlainPacker α) : List Packer.Op → Option (Run (PlainPacker α) Packer.Event)
  | [] => some ⟨[], p, []⟩
  | op :: ops => do
    let t ← p.turn? op
    let rest ← run? t.state ops
    return ⟨t.event :: rest.events, rest.state, t.entries ++ rest.entries⟩

end PlainPacker

namespace Packer

variable {α : Type}

/-- The same segments, with nothing to tell the last small one from the others. -/
def plain (p : Packer α) : PlainPacker α :=
  { allocator := p.allocator, chunkSize := p.chunkSize, small := p.small, large := p.large
    cursor := p.cursor }

/-- A well-formed packer that starts its small list with its current chunk. -/
structure Sound (p : Packer α) : Prop extends Wf p where
  filled_of_none : p.current = none → p.filled = []

/-- Seen plainly, a sound packer is no other than before. -/
theorem plain_inj {p q : Packer α} (hp : p.Sound) (hq : q.Sound) (h : p.plain = q.plain) :
    p = q := by
  obtain ⟨allocator, chunkSize, filled, current, large⟩ := p
  obtain ⟨allocator', chunkSize', filled', current', large'⟩ := q
  simp only [plain, PlainPacker.mk.injEq] at h
  obtain ⟨rfl, rfl, hsmall, rfl, hcursor⟩ := h
  cases current with
  | none =>
      cases hp.filled_of_none rfl
      cases current' with
      | none =>
          cases hq.filled_of_none rfl
          rfl
      | some chunk' => simp [small] at hsmall
  | some chunk =>
      cases current' with
      | none =>
          cases hq.filled_of_none rfl
          simp [small] at hsmall
      | some chunk' =>
          obtain ⟨rfl, hsegment⟩ := List.append_inj' hsmall rfl
          obtain ⟨segment, used⟩ := chunk
          obtain ⟨segment', used'⟩ := chunk'
          cases hcursor
          cases hsegment
          rfl

/-! ## The guards are kept -/

/-- A payload that ends inside the current chunk is placed without a guard being
broken. -/
theorem place?_plain {p : Packer α} (hp : p.Wf) {chunk : Chunk} {payload : List UInt8}
    (hchunk : p.current = some chunk)
    (hroom : chunk.used + payload.length ≤ p.chunkSize.bytes) :
    p.plain.place? payload = some ((p.place chunk payload).view plain) := by
  have haddressable := p.chunkSize.addressable
  have hindex := hp.filled_lt hchunk
  have hlong := hp.current_size hchunk
  have hword : UInt32.size ≤ UInt64.size := by decide
  have hsmall : p.plain.small = p.filled ++ [chunk.segment] := small_of_current hchunk
  have hcursor : p.plain.cursor = chunk.used := cursor_of_current hchunk
  have hlast : minus? p.plain.small.length 1 = some p.filled.length := by
    rw [hsmall, minus?, List.length_append, List.length_singleton,
      if_pos (by omega), Nat.add_sub_cancel]
  have hsegment : p.plain.small[p.filled.length]? = some chunk.segment :=
    getElem?_small_current hchunk
  have hset : ∀ segment, p.plain.small.set p.filled.length segment = p.filled ++ [segment] := by
    intro segment
    rw [hsmall, List.set_append_right _ _ (Nat.le_refl _), Nat.sub_self, List.set_cons_zero]
  have hstop : plus? chunk.used payload.length = some (chunk.used + payload.length) :=
    if_pos (by omega)
  have hfill := @Segment.fill?_of_fits chunk.segment chunk.used payload (by omega)
  have hwords : word? p.filled.length = some (.ofNat p.filled.length) ∧
      word? chunk.used = some (.ofNat chunk.used) ∧
      word? payload.length = some (.ofNat payload.length) :=
    ⟨if_pos hindex, if_pos (by omega), if_pos (by omega)⟩
  simp only [PlainPacker.place?, hlast, hsegment, hcursor, hstop, hfill, hwords, hset,
    Option.bind_eq_bind, Option.bind_some, Option.pure_def]
  cases hgrant : chunk.segment.requestAccess.1 with
  | false => rw [place_of_refusal hgrant]; rfl
  | true => rw [place_of_grant hgrant]; rfl

/-- Without a current chunk there is no small segment, and the room is not asked for. -/
theorem isFull?_of_none {p : Packer α} (hp : p.Sound) (hnone : p.current = none)
    (length : Nat) : p.plain.isFull? length = some true := by
  have hsmall : p.plain.small.isEmpty = true := by
    simp [plain, small, hnone, hp.filled_of_none hnone]
  rw [PlainPacker.isFull?, if_pos hsmall]

/-- The cursor is inside the chunk, so that there is a room to speak of. -/
theorem isFull?_of_current {p : Packer α} (hp : p.Wf) {chunk : Chunk}
    (hchunk : p.current = some chunk) (length : Nat) :
    p.plain.isFull? length = some (decide (p.chunkSize.bytes - chunk.used < length)) := by
  have hsmall : ¬ p.plain.small.isEmpty = true := by
    simp [plain, small_of_current hchunk]
  have hcursor : p.plain.cursor = chunk.used := cursor_of_current hchunk
  have hle : p.plain.cursor ≤ p.chunkSize.bytes := hp.cursor_le
  have hroom : minus? p.plain.chunkSize.bytes p.plain.cursor =
      some (p.chunkSize.bytes - p.plain.cursor) := if_pos hle
  rw [PlainPacker.isFull?, if_neg hsmall, hroom, hcursor, Option.map_some]

variable [Allocator α]

theorem acquire_plain (p : Packer α) (cls : SegmentClass) (size : Nat) :
    p.plain.acquire cls size = (p.acquire cls size).view plain := by
  rw [PlainPacker.acquire, acquire, acquire]
  simp only [plain]
  rcases Allocator.allocate p.allocator (UInt64.ofNat size) with ⟨_ | segment, allocator⟩
  · rfl
  · simp only
    split
    · rfl
    · split <;> rfl

/-- A request comes to the same thing, and leaves the lists as they are. -/
theorem acquire_both (p : Packer α) (cls : SegmentClass) (size : Nat) :
    ∃ answer allocator entries,
      p.acquire cls size = ⟨answer, { p with allocator }, entries⟩ ∧
      p.plain.acquire cls size = ⟨answer, { p.plain with allocator }, entries⟩ := by
  obtain ⟨allocator, hstate⟩ := acquire_state p cls size
  refine ⟨(p.acquire cls size).answer, allocator, (p.acquire cls size).entries, ?_, ?_⟩
  · rw [← hstate]
  · rw [acquire_plain, Outcome.view, hstate]
    rfl

/-- No guard is broken either if the list is extended first. -/
theorem extend_place?_plain {p : Packer α} (hp : p.Wf) {payload : List UInt8}
    (hfit : payload.length ≤ p.chunkSize.bytes) (hneeds : p.NeedsChunk payload.length) :
    (p.plain.extend.andThen? fun _ p => p.place? payload) =
      some ((p.rotate.andThen fun chunk p => p.place chunk payload).view plain) := by
  have hsmall : p.plain.small = p.small := rfl
  have hchunkSize : p.plain.chunkSize = p.chunkSize := rfl
  rw [PlainPacker.extend, rotate, hsmall, hchunkSize, checkIndex]
  by_cases hindex : p.small.length < UInt32.size
  · rw [if_pos hindex]
    obtain ⟨answer, allocator, entries, hacquire, hplain⟩ := p.acquire_both .small p.chunkSize.bytes
    rw [hplain]
    cases answer with
    | error fault => rw [hacquire]; rfl
    | ok segment =>
        -- The new segment is the last one of the list, and it is the current chunk.
        obtain ⟨hp', hchunk, hroom⟩ :=
          (Opens.fresh segment allocator entries hneeds hindex hacquire).wf hp hfit
        have hplace : PlainPacker.place? { p.plain with
            allocator, small := p.plain.small ++ [segment], cursor := 0 } payload = _ :=
          place?_plain hp' hchunk hroom
        rw [hacquire]
        simp only [Outcome.andThen_ok, Outcome.andThen?, hplace]
        rfl
  · rw [if_neg hindex]
    rfl

theorem writeSmall?_plain {p : Packer α} (hp : p.Sound) {payload : List UInt8}
    (hfit : payload.length ≤ p.chunkSize.bytes) :
    p.plain.writeSmall? payload = some ((p.writeSmall payload).view plain) := by
  rw [PlainPacker.writeSmall?, writeSmall]
  cases hcurrent : p.current with
  | none =>
      rw [isFull?_of_none hp hcurrent]
      exact extend_place?_plain hp.toWf hfit (needsChunk_of_none hcurrent _)
  | some chunk =>
      have hcursor := hp.cursor_le
      rw [cursor_of_current hcurrent] at hcursor
      rw [isFull?_of_current hp.toWf hcurrent]
      by_cases hroom : payload.length ≤ p.chunkSize.bytes - chunk.used
      · have hplace : p.plain.place? payload = some ((p.place chunk payload).view plain) :=
          place?_plain hp.toWf hcurrent (by omega)
        simpa [hroom, Nat.not_lt_of_le hroom] using hplace
      · have hextend := extend_place?_plain hp.toWf hfit (needsChunk_of_full hcurrent hroom)
        simpa [hroom, Nat.lt_of_not_le hroom] using hextend

theorem writeLarge?_plain {p : Packer α} {payload : List UInt8}
    (hshort : payload.length < UInt32.size) :
    p.plain.writeLarge? payload = some ((p.writeLarge payload).view plain) := by
  have hlarge : p.plain.large = p.large := rfl
  rw [PlainPacker.writeLarge?, writeLarge, hlarge, checkIndex]
  by_cases hindex : p.large.length < UInt32.size
  · rw [if_pos hindex]
    obtain ⟨answer, allocator, entries, hacquire, hplain⟩ := p.acquire_both .large payload.length
    rw [hplain, hacquire]
    cases answer with
    | error fault => rfl
    | ok segment =>
        have hsize := size_of_acquire_ok hacquire
        have hfill := @Segment.fill?_of_fits segment 0 payload (by omega)
        have hwords : word? p.large.length = some (.ofNat p.large.length) ∧
            word? payload.length = some (.ofNat payload.length) :=
          ⟨if_pos hindex, if_pos hshort⟩
        simp only [Outcome.andThen_ok, Outcome.andThen?, hfill, hlarge, hwords,
          Option.bind_eq_bind, Option.pure_def]
        cases segment.requestAccess.1 with
        | false => rfl
        | true => rfl
  · rw [if_neg hindex]
    rfl

/-- From a sound packer every write has an answer under guard, and it is that of the
packer. -/
theorem write?_plain {p : Packer α} (hp : p.Sound) (payload : List UInt8) :
    p.plain.write? payload = some ((p.write payload).view plain) := by
  have hchunkSize : p.plain.chunkSize = p.chunkSize := rfl
  rw [PlainPacker.write?, write, hchunkSize]
  split
  · rfl
  · split
    · rfl
    · next hshort =>
        split
        · exact writeLarge?_plain (Nat.lt_of_not_le hshort)
        · next hfit => exact writeSmall?_plain hp (Nat.le_of_not_lt hfit)

/-! ## Soundness is kept -/

omit [Allocator α] in
theorem sound_emptied (p : Packer α) : p.emptied.Sound where
  toWf := wf_emptied p
  filled_of_none _ := rfl

/-- A write that leaves no current chunk leaves the small list alone. -/
theorem sound_write {p : Packer α} (hp : p.Sound) (payload : List UInt8) :
    (p.write payload).state.Sound := by
  refine ⟨wf_write hp.toWf payload, ?_⟩
  have hwrites := write_writes p payload
  generalize p.write payload = o at hwrites
  intro hnone
  cases hwrites with
  | empty _ => exact hp.filled_of_none hnone
  | refused _ _ _ _ _ => exact hp.filled_of_none hnone
  | placed _ _ _ _ _ _ _ => cases hnone
  | withdrawn _ _ _ _ _ _ _ => cases hnone
  | stored _ _ _ _ _ _ _ _ => exact hp.filled_of_none hnone

theorem sound_turn {p : Packer α} (hp : p.Sound) (op : Op) : (p.turn op).state.Sound := by
  cases hpayload : op.payload? with
  | none =>
      rw [state_of_no_payload hpayload]
      exact sound_emptied p
  | some payload =>
      rw [turn_of_payload hpayload]
      exact sound_write hp payload

theorem sound_run {p : Packer α} (hp : p.Sound) (ops : List Op) : (p.run ops).state.Sound := by
  rw [run]
  exact Turn.run_invariant (P := Sound) (fun _ op h => sound_turn h op) hp ops

/-! ## Runs of the two -/

theorem turn?_plain {p : Packer α} (hp : p.Sound) (op : Op) :
    p.plain.turn? op =
      some ⟨(p.turn op).event, (p.turn op).state.plain, (p.turn op).entries⟩ := by
  cases op with
  | write payload => rw [PlainPacker.turn?, write?_plain hp]; rfl
  | writeValues values => rw [PlainPacker.turn?, write?_plain hp]; rfl
  | flush => rfl
  | clear => rfl

/-- A run of a sound packer is a run of its lists and its cursor, in which no guard is
broken. -/
theorem run?_plain {p : Packer α} (hp : p.Sound) (ops : List Op) :
    p.plain.run? ops =
      some ⟨(p.run ops).events, (p.run ops).state.plain, (p.run ops).entries⟩ := by
  induction ops generalizing p with
  | nil => rfl
  | cons op ops ih =>
      rw [PlainPacker.run?, turn?_plain hp, Option.bind_eq_bind, Option.bind_some,
        ih (sound_turn hp op)]
      rfl

end Packer

end Parcel
