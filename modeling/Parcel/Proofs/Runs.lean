import Mathlib.Data.List.Forall2
import Parcel.Journal.Entry

/-!
# Runs of a machine that answers

Packers and queues are machines of one shape: an operation is carried out, its
caller sees an event, a state is left behind and some entries are reported. A
run carries out one operation after another and collects what was seen.

Everything later about runs goes through a few statements, so that no proof has
to induct over a list of operations again. `run_history` carries an invariant
that speaks of the events so far, folded into a value of its own; it is the
form for statements about what a machine has promised. `run_trail` carries one
that speaks of the operations so far as well, and so of every state they led
through. `run_split` finds the state in which a given event of a run was seen; it
is the form for statements about what happens between two events. What adds up over a
run adds up over its `trail`, turn by turn.

Others set two runs side by side. In `run_filter` one of them leaves operations
out, in `run_pair` the operations are alike but not the same, and in `run_view` the
second machine sees less of its state than the first one.
-/

namespace Parcel

/-- One operation carried out. -/
structure Turn (σ ε : Type) where
  event : ε
  state : σ
  entries : List Entry := []

/-- Operations carried out one after another. -/
structure Run (σ ε : Type) where
  events : List ε
  state : σ
  entries : List Entry := []

universe u

variable {σ ε : Type} {ι : Type u}

def Turn.run (turn : σ → ι → Turn σ ε) (s : σ) : List ι → Run σ ε
  | [] => ⟨[], s, []⟩
  | op :: ops =>
    let t := turn s op
    let rest := Turn.run turn t.state ops
    ⟨t.event :: rest.events, rest.state, t.entries ++ rest.entries⟩

namespace Turn

variable {turn : σ → ι → Turn σ ε}

/-- Operations carried out in two goes. -/
theorem run_append (s : σ) (ops₁ ops₂ : List ι) :
    run turn s (ops₁ ++ ops₂) =
      ⟨(run turn s ops₁).events ++ (run turn (run turn s ops₁).state ops₂).events,
        (run turn (run turn s ops₁).state ops₂).state,
        (run turn s ops₁).entries ++ (run turn (run turn s ops₁).state ops₂).entries⟩ := by
  induction ops₁ generalizing s with
  | nil => rfl
  | cons op ops₁ ih => simp only [List.cons_append, run, ih, List.append_assoc]

/-- One more operation at the end. -/
theorem run_concat (s : σ) (ops : List ι) (op : ι) :
    (run turn s (ops ++ [op])).events =
        (run turn s ops).events ++ [(turn (run turn s ops).state op).event] ∧
      (run turn s (ops ++ [op])).state = (turn (run turn s ops).state op).state := by
  rw [run_append]
  exact ⟨rfl, rfl⟩

/-- What holds of the events so far and the state they led to goes on to hold,
if every single turn carries it on. The events are summed up by `next`. -/
theorem run_history {γ : Type} {next : γ → ε → γ} {Inv : γ → σ → Prop}
    (hturn : ∀ g s op, Inv g s →
      Inv (next g (turn s op).event) (turn s op).state)
    {g : γ} {s : σ} (h : Inv g s) (ops : List ι) :
    Inv ((run turn s ops).events.foldl next g) (run turn s ops).state := by
  induction ops generalizing g s with
  | nil => exact h
  | cons op ops ih => exact ih (hturn g s op h)

/-- What holds before the first operation, and goes on to hold with each operation
more, holds of all the operations together with what they showed and the state
they led to. Only operations of one kind are carried out. -/
theorem run_trail {O : ι → Prop} {P : List ι → List ε → σ → Prop} {s : σ}
    (hstart : P [] [] s)
    (hturn : ∀ ops op, O op → P ops (run turn s ops).events (run turn s ops).state →
      P (ops ++ [op]) ((run turn s ops).events ++ [(turn (run turn s ops).state op).event])
        (turn (run turn s ops).state op).state)
    {ops : List ι} (hO : ∀ op ∈ ops, O op) :
    P ops (run turn s ops).events (run turn s ops).state := by
  -- The operations still to come are taken from the front, and join those carried out.
  suffices hsplit : ∀ done, P done (run turn s done).events (run turn s done).state →
      P (done ++ ops) (run turn s (done ++ ops)).events (run turn s (done ++ ops)).state from
    hsplit [] hstart
  induction ops with
  | nil =>
      intro done h
      rwa [List.append_nil]
  | cons op ops ih =>
      intro done h
      have hnext := hturn done op (hO op List.mem_cons_self) h
      obtain ⟨hevents, hstate⟩ := @run_concat _ _ _ turn s done op
      rw [← hevents, ← hstate] at hnext
      have hrest := ih (fun op' h' => hO op' (List.mem_cons_of_mem op h')) _ hnext
      rwa [List.append_assoc] at hrest

/-- What turns of one kind keep is kept by a run that shows only such turns. -/
theorem run_keeps {E : ε → Prop} {P : σ → Prop}
    (hturn : ∀ s op, E (turn s op).event → P s → P (turn s op).state)
    {s : σ} {ops : List ι} (hE : ∀ e ∈ (run turn s ops).events, E e) (h : P s) :
    P (run turn s ops).state := by
  induction ops generalizing s with
  | nil => exact h
  | cons op ops ih =>
      have hhead : E (turn s op).event := hE _ List.mem_cons_self
      exact ih (fun e he => hE e (List.mem_cons_of_mem _ he))
        (hturn s op hhead h)

/-- What every turn keeps, every run keeps. -/
theorem run_invariant {P : σ → Prop} (hturn : ∀ s op, P s → P (turn s op).state)
    {s : σ} (h : P s) (ops : List ι) : P (run turn s ops).state :=
  run_keeps (E := fun _ => True) (fun s op _ => hturn s op) (fun _ _ => trivial) h

/-- Two runs side by side, the one with all operations and the other with those that
are kept. If the states remain alike, the second run shows what the first one shows
of the operations kept. -/
theorem run_filter {O : ι → Prop} {R : σ → σ → Prop} (keep : ι → Bool) (shown : ε → Bool)
    (hshown : ∀ s op, shown (turn s op).event = keep op)
    (hkeep : ∀ s t op, O op → keep op = true → R s t →
      (turn s op).event = (turn t op).event ∧ R (turn s op).state (turn t op).state)
    (hskip : ∀ s t op, O op → keep op = false → R s t → R (turn s op).state t)
    {s t : σ} {ops : List ι} (hO : ∀ op ∈ ops, O op) (h : R s t) :
    (run turn s ops).events.filter shown = (run turn t (ops.filter keep)).events ∧
      R (run turn s ops).state (run turn t (ops.filter keep)).state := by
  induction ops generalizing s t with
  | nil => exact ⟨rfl, h⟩
  | cons op ops ih =>
      have hop : O op := hO op List.mem_cons_self
      have hrest : ∀ op ∈ ops, O op := fun op' h' => hO op' (List.mem_cons_of_mem op h')
      cases hk : keep op with
      | true =>
          obtain ⟨hevent, hnext⟩ := hkeep s t op hop hk h
          obtain ⟨hevents, hstate⟩ := ih hrest hnext
          rw [List.filter_cons_of_pos hk, run, run, List.filter_cons_of_pos (by rw [hshown, hk])]
          exact ⟨by rw [hevent, hevents], hstate⟩
      | false =>
          obtain ⟨hevents, hstate⟩ := ih hrest (hskip s t op hop hk h)
          have hk' : ¬ keep op = true := by rw [hk]; exact Bool.false_ne_true
          rw [List.filter_cons_of_neg hk', run, List.filter_cons_of_neg (by rwa [hshown])]
          exact ⟨hevents, hstate⟩

/-- Two runs of the same operations from states that are alike and remain so. -/
theorem run_lockstep {O : ι → Prop} {R : σ → σ → Prop}
    (hturn : ∀ s t op, O op → R s t →
      (turn s op).event = (turn t op).event ∧ R (turn s op).state (turn t op).state)
    {s t : σ} {ops : List ι} (hO : ∀ op ∈ ops, O op) (h : R s t) :
    (run turn s ops).events = (run turn t ops).events ∧
      R (run turn s ops).state (run turn t ops).state := by
  induction ops generalizing s t with
  | nil => exact ⟨rfl, h⟩
  | cons op ops ih =>
      obtain ⟨hevent, hnext⟩ := hturn s t op (hO op List.mem_cons_self) h
      obtain ⟨hevents, hstate⟩ := ih (fun op' h' => hO op' (List.mem_cons_of_mem op h')) hnext
      exact ⟨by rw [run, run, hevent, hevents], hstate⟩

/-- An event of a run was seen in one particular turn: the run up to it showed
the events before it, and the run from there on shows the events after it. -/
theorem run_split {s : σ} {ops : List ι} {before after : List ε} {e : ε}
    (h : (run turn s ops).events = before ++ e :: after) :
    ∃ ops₁ op ops₂, ops = ops₁ ++ op :: ops₂ ∧
      (run turn s ops₁).events = before ∧
      (turn (run turn s ops₁).state op).event = e ∧
      (run turn (turn (run turn s ops₁).state op).state ops₂).events = after := by
  induction before generalizing s ops with
  | nil =>
      cases ops with
      | nil => cases h
      | cons op ops =>
          simp only [run, List.nil_append, List.cons.injEq] at h
          exact ⟨[], op, ops, rfl, rfl, h.1, h.2⟩
  | cons b before ih =>
      cases ops with
      | nil => cases h
      | cons op ops =>
          simp only [run, List.cons_append, List.cons.injEq] at h
          obtain ⟨ops₁, op', ops₂, rfl, h₁, he, h₂⟩ := ih h.2
          refine ⟨op :: ops₁, op', ops₂, rfl, ?_, he, h₂⟩
          simp only [run, h.1, h₁]

/-- Two runs of operations that are alike, from states that are alike and remain so. -/
theorem run_pair {O : ι → ι → Prop} {E : ε → ε → Prop} {R : σ → σ → Prop}
    (hturn : ∀ s t op op', O op op' → R s t →
      E (turn s op).event (turn t op').event ∧ R (turn s op).state (turn t op').state ∧
        (turn s op).entries = (turn t op').entries)
    {s t : σ} {ops ops' : List ι} (hops : List.Forall₂ O ops ops') (h : R s t) :
    List.Forall₂ E (run turn s ops).events (run turn t ops').events ∧
      R (run turn s ops).state (run turn t ops').state ∧
        (run turn s ops).entries = (run turn t ops').entries := by
  induction hops generalizing s t with
  | nil => exact ⟨.nil, h, rfl⟩
  | @cons op op' ops ops' hop _ ih =>
      obtain ⟨hevent, hnext, hentries⟩ := hturn s t op op' hop h
      obtain ⟨hevents, hstate, hrest⟩ := ih hnext
      exact ⟨.cons hevent hevents, hstate, by rw [run, run, hentries, hrest]⟩

/-- A machine that goes through the same turns with less in its state. -/
theorem run_view {σ' : Type} {turn' : σ' → ι → Turn σ' ε} (view : σ → σ')
    (hturn : ∀ s op, turn' (view s) op =
      ⟨(turn s op).event, view (turn s op).state, (turn s op).entries⟩)
    (s : σ) (ops : List ι) :
    run turn' (view s) ops =
      ⟨(run turn s ops).events, view (run turn s ops).state, (run turn s ops).entries⟩ := by
  induction ops generalizing s with
  | nil => rfl
  | cons op ops ih => simp only [run, hturn, ih]

/-! ## Adding up -/

/-- The operations of a run, each with the state that it was carried out in. -/
def trail (turn : σ → ι → Turn σ ε) (s : σ) : List ι → List (σ × ι)
  | [] => []
  | op :: ops => (s, op) :: trail turn (turn s op).state ops

theorem trail_append (s : σ) (ops₁ ops₂ : List ι) :
    trail turn s (ops₁ ++ ops₂) = trail turn s ops₁ ++ trail turn (run turn s ops₁).state ops₂ := by
  induction ops₁ generalizing s with
  | nil => rfl
  | cons op ops₁ ih => rw [List.cons_append, trail, ih, trail, run, List.cons_append]

/-- What was seen of a run was seen along its trail. -/
theorem run_events (s : σ) (ops : List ι) :
    (run turn s ops).events = (trail turn s ops).map fun x => (turn x.1 x.2).event := by
  induction ops generalizing s with
  | nil => rfl
  | cons op ops ih => rw [run, trail, List.map_cons, ih]

/-- So was what was reported. -/
theorem run_entries (s : σ) (ops : List ι) :
    (run turn s ops).entries = (trail turn s ops).flatMap fun x => (turn x.1 x.2).entries := by
  induction ops generalizing s with
  | nil => rfl
  | cons op ops ih => rw [run, trail, List.flatMap_cons, ih]

/-- What the turns of a run lose, if they lose anything. -/
def lost {β : Type} (turn : σ → ι → Turn σ ε) (loss? : σ → ι → Option β) (s : σ)
    (ops : List ι) : List β :=
  (trail turn s ops).filterMap fun x => loss? x.1 x.2

end Turn

end Parcel
