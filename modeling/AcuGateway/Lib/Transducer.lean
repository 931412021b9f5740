/-
Machines that emit events.

An emitter takes a state to the next one and emits events on the way; emitters follow
each other (`Emitter.seq`), and a machine `step : α → Emitter σ β` is driven with a list
of inputs (`outputs` is all that it emits).

The events are read by a second machine, `next : τ → β → τ`, which accepts an event in a
state or not (`Run.Along Ok next`).

* `Emitter.reads` — a machine and a reader in one state;
* `Emitter.Emits` — what every event of an emitter has;
* `Emitter.Spec` — what an emitter needs for its events to be accepted, with a rule for
  emitters that follow each other;
* `outputs_append` — a run in two parts;
* `drive`, `drive_flatMap` — a run as one step, and the steps of a run as runs of a finer machine;
* `tryOutputs` — a machine whose steps may fail;
* `outputs_invariant_along` — what every step keeps of the state, the inputs and the outputs;
* `drive_spec`, `accepts_outputs_iff` — which inputs make a machine emit what the reader accepts,
  given for each step the condition on its input.
-/
import AcuGateway.Lib.Run

open List Run

universe u v w

/-- A step of a machine that emits events. -/
def Emitter (σ : Type u) (β : Type v) := σ → σ × List β

namespace Emitter

variable {σ : Type u} {β : Type v} {τ : Type w}

/-- Emit events and leave the state as it is. -/
def emit (l : List β) : Emitter σ β := fun s => (s, l)

/-- Emit events that depend on the state. -/
def emitFrom (f : σ → List β) : Emitter σ β := fun s => (s, f s)

/-- Change the state and emit nothing. -/
def modify (f : σ → σ) : Emitter σ β := fun s => (f s, [])

/-- One after the other. -/
def seq (f g : Emitter σ β) : Emitter σ β := fun s => ((g (f s).1).1, (f s).2 ++ (g (f s).1).2)

variable {f g : Emitter σ β} {s : σ}

@[simp] theorem emit_fst (l : List β) : ((emit l : Emitter σ β) s).1 = s := rfl

@[simp] theorem emit_snd (l : List β) : ((emit l : Emitter σ β) s).2 = l := rfl

@[simp] theorem modify_fst (f : σ → σ) : ((modify f : Emitter σ β) s).1 = f s := rfl

@[simp] theorem modify_snd (f : σ → σ) : ((modify f : Emitter σ β) s).2 = [] := rfl

@[simp] theorem seq_fst : (f.seq g s).1 = (g (f s).1).1 := rfl

@[simp] theorem seq_snd : (f.seq g s).2 = (f s).2 ++ (g (f s).1).2 := rfl

theorem seq_assoc (h : Emitter σ β) : (f.seq g).seq h = f.seq (g.seq h) := by
  funext s
  simp [seq]

/-- From `s`, with the reader in state `t`: the reader accepts what is emitted exactly if
`C` holds, and then `Q` holds of the two states afterwards. -/
structure Spec (Ok : τ → β → Prop) (next : τ → β → τ) (f : Emitter σ β) (s : σ) (t : τ) (C : Prop)
    (Q : σ → τ → Prop) : Prop where
  accepts : Along Ok next t (f s).2 ↔ C
  post : C → Q (f s).1 (exec next t (f s).2)

namespace Spec

variable {Ok : τ → β → Prop} {next : τ → β → τ} {t : τ} {C D : Prop} {Q Q' : σ → τ → Prop}

theorem congr (h : f s = g s) (hg : Spec Ok next g s t C Q) : Spec Ok next f s t C Q where
  accepts := by rw [h]; exact hg.accepts
  post := by rw [h]; exact hg.post

theorem modify {h : σ → σ} (hQ : Q (h s) t) : Spec Ok next (.modify h) s t True Q :=
  ⟨by simp, fun _ => hQ⟩

theorem skip (hQ : Q s t) : Spec Ok next (.emit []) s t True Q := ⟨by simp, fun _ => hQ⟩

variable (hf : Spec Ok next f s t C Q)

include hf

theorem seq (hg : ∀ s' t', Q s' t' → Spec Ok next g s' t' D Q') :
    Spec Ok next (f.seq g) s t (C ∧ D) Q' where
  accepts := by
    rw [seq_snd, along_append, hf.accepts]
    exact and_congr_right fun hC => (hg _ _ (hf.post hC)).accepts
  post := by
    rintro ⟨hC, hD⟩
    rw [seq_fst, seq_snd, exec_append]
    exact (hg _ _ (hf.post hC)).post hD

theorem weaken (hC : C ↔ D) (hQ : ∀ s' t', Q s' t' → Q' s' t') : Spec Ok next f s t D Q' where
  accepts := hf.accepts.trans hC
  post := fun hD => hQ _ _ (hf.post (hC.mpr hD))

theorem given (hC : C ↔ D) : Spec Ok next f s t D Q := hf.weaken hC fun _ _ hQ => hQ

omit hf in
/-- After a first part that is known. -/
theorem after {s' : σ} {events : List β} (hf : f s = (s', events))
    (haccepts : Along Ok next t events)
    (hg : Spec Ok next g s' (exec next t events) C Q) : Spec Ok next (f.seq g) s t C Q where
  accepts := by
    rw [seq_snd, hf, along_append, hg.accepts]
    exact and_iff_right haccepts
  post := by
    rw [seq_fst, seq_snd, hf, exec_append]
    exact hg.post

theorem with_state {P : σ → Prop} (hP : P (f s).1) :
    Spec Ok next f s t C fun s' t' => P s' ∧ Q s' t' where
  accepts := hf.accepts
  post := fun hC => ⟨hP, hf.post hC⟩

end Spec

/-- Every event that is emitted has `P`. -/
def Emits (P : β → Prop) (f : Emitter σ β) : Prop := ∀ s, ∀ e ∈ (f s).2, P e

namespace Emits

variable {P : β → Prop}

theorem modify (h : σ → σ) : Emits P (.modify h : Emitter σ β) := fun _ _ he => by cases he

theorem nothing : Emits P (.emit [] : Emitter σ β) := fun _ _ he => by cases he

theorem seq (hf : f.Emits P) (hg : g.Emits P) : (f.seq g).Emits P := by
  intro s e he
  rcases mem_append.mp he with he | he
  · exact hf s e he
  · exact hg _ e he

end Emits

/-- The machine next to a reader of its events. -/
def reads (next : τ → β → τ) (f : Emitter σ β) (p : σ × τ) : σ × τ :=
  ((f p.1).1, (f p.1).2.foldl next p.2)

variable {next : τ → β → τ}

@[simp] theorem reads_seq (f g : Emitter σ β) (p : σ × τ) :
    reads next (f.seq g) p = reads next g (reads next f p) := by
  simp [reads, foldl_append]

end Emitter

namespace Transducer

variable {σ : Type u} {α : Type*} {β : Type v} {τ : Type w} {γ : Type*}

/-- All events that the machine emits. -/
def outputs (step : α → Emitter σ β) : σ → List α → List β
  | _, [] => []
  | s, a :: l => (step a s).2 ++ outputs step (step a s).1 l

/-- The state that the machine reaches. -/
def final (step : α → Emitter σ β) : σ → List α → σ := exec fun s a => (step a s).1

variable {step : α → Emitter σ β}

@[simp] theorem outputs_nil (s : σ) : outputs step s [] = [] := rfl

@[simp] theorem outputs_cons (s : σ) (a : α) (l : List α) :
    outputs step s (a :: l) = (step a s).2 ++ outputs step (step a s).1 l := rfl

theorem outputs_append (s : σ) (l l' : List α) :
    outputs step s (l ++ l') = outputs step s l ++ outputs step (final step s l) l' := by
  induction l generalizing s with
  | nil => rfl
  | cons a l ih => rw [cons_append, outputs_cons, ih, outputs_cons, append_assoc]; rfl

/-- A run as one step. -/
def drive (step : α → Emitter σ β) (l : List α) : Emitter σ β :=
  fun s => (final step s l, outputs step s l)

theorem drive_nil : drive step [] = .emit [] := rfl

theorem drive_cons (a : α) (l : List α) : drive step (a :: l) = (step a).seq (drive step l) := rfl

theorem drive_singleton (a : α) : drive step [a] = step a := by
  funext s
  exact Prod.ext rfl (append_nil _)

theorem drive_append (l l' : List α) :
    drive step (l ++ l') = (drive step l).seq (drive step l') := by
  funext s
  exact Prod.ext (exec_append s l l') (outputs_append s l l')

theorem drive_map {δ : Type*} (g : δ → α) (l : List δ) :
    drive step (l.map g) = drive (fun d => step (g d)) l := by
  induction l with
  | nil => rfl
  | cons d l ih => rw [map_cons, drive_cons, ih, drive_cons]

/-- Each step is a run of a finer machine. -/
theorem drive_flatMap {δ : Type*} {fine : δ → Emitter σ β} {g : α → List δ}
    (h : ∀ a, step a = drive fine (g a)) (l : List α) :
    drive step l = drive fine (l.flatMap g) := by
  induction l with
  | nil => rfl
  | cons a l ih => rw [drive_cons, ih, h, flatMap_cons, drive_append]

theorem mem_outputs {P : β → Prop} (h : ∀ a, (step a).Emits P) (s : σ) (l : List α) :
    ∀ e ∈ outputs step s l, P e := by
  induction l generalizing s with
  | nil => exact fun _ he => by cases he
  | cons a l ih =>
    intro e he
    rcases mem_append.mp he with he | he
    · exact h a s e he
    · exact ih _ e he

/-- A run, next to a reader of what it emits. -/
theorem reads_outputs (next : τ → β → τ) (s : σ) (t : τ) (l : List α) :
    (final step s l, (outputs step s l).foldl next t) =
      exec (fun p a => (step a).reads next p) (s, t) l := by
  induction l generalizing s t with
  | nil => rfl
  | cons a l ih =>
    rw [exec_cons, outputs_cons, foldl_append]
    exact ih (step a s).1 _

section Control

variable {Ok : τ → β → Prop} {next : τ → β → τ} {Right : γ → α → Prop} {ctl : γ → α → γ}
  {R : σ → τ → γ → Prop}
  {s : σ} {t : τ} {c : γ}

section

variable (hstep : ∀ s t c a, R s t c →
  (step a).Spec Ok next s t (Right c a) fun s' t' => R s' t' (ctl c a)) (h : R s t c) (l : List α)

include hstep h

/-- `R s t c` relates the machine, its reader and a control state `c`, which depends on the
inputs only.  If the reader accepts what a step emits exactly if the input is right for the
control state, it accepts what a run emits exactly if all inputs are. -/
theorem drive_spec :
    (drive step l).Spec Ok next s t (Along Right ctl c l) fun s' t' => R s' t' (exec ctl c l) := by
  induction l generalizing s t c with
  | nil => exact ⟨by simp [drive_nil], fun _ => h⟩
  | cons a l ih => exact (hstep s t c a h).seq fun s' t' hR => ih hR

theorem accepts_outputs_iff : Along Ok next t (outputs step s l) ↔ Along Right ctl c l :=
  (drive_spec hstep h l).accepts

end

end Control

/-- The machine with a control state next to its own, which the outputs do not depend on. -/
def withControl (step : α → Emitter σ β) (ctl : σ → γ → α → γ) : α → Emitter (σ × γ) β :=
  fun a s => (((step a s.1).1, ctl s.1 s.2 a), (step a s.1).2)

theorem outputs_withControl (ctl : σ → γ → α → γ) (s : σ × γ) (l : List α) :
    outputs (withControl step ctl) s l = outputs step s.1 l := by
  induction l generalizing s with
  | nil => rfl
  | cons a l ih => rw [outputs_cons, ih]; rfl

/-- A relation of the state, the inputs so far and the outputs so far, kept by every step that
a run really takes. -/
theorem outputs_invariant_along {Inv : σ → List α → List β → Prop} {P : σ → α → Prop}
    (hstep : ∀ s ins outs a, Inv s ins outs → P s a →
      Inv (step a s).1 (ins ++ [a]) (outs ++ (step a s).2))
    {s : σ} {ins : List α} {outs : List β} (h : Inv s ins outs) {l : List α}
    (hl : Along P (fun s a => (step a s).1) s l) :
    Inv (final step s l) (ins ++ l) (outs ++ outputs step s l) := by
  induction l generalizing s ins outs with
  | nil => simpa [final] using h
  | cons a l ih =>
    have hrest := ih (hstep s ins outs a h hl.1) hl.2
    rw [append_assoc, append_assoc] at hrest
    exact hrest

/-- A machine whose steps may fail: the first error ends the run. -/
def tryOutputs {ε : Type*} (step : α → σ → Except ε (σ × List β)) :
    σ → List α → Except ε (σ × List β)
  | s, [] => .ok (s, [])
  | s, a :: l =>
    match step a s with
    | .error e => .error e
    | .ok (s', outs) =>
      match tryOutputs step s' l with
      | .error e => .error e
      | .ok (s'', rest) => .ok (s'', outs ++ rest)

theorem tryOutputs_ok {ε : Type*} {try_ : α → σ → Except ε (σ × List β)} {l : List α}
    (h : ∀ a ∈ l, ∀ s, try_ a s = .ok (step a s)) (s : σ) :
    tryOutputs try_ s l = .ok (final step s l, outputs step s l) := by
  induction l generalizing s with
  | nil => rfl
  | cons a l ih =>
    obtain ⟨ha, hl⟩ := forall_mem_cons.mp h
    rw [tryOutputs, ha s]
    simp only [ih hl]
    rfl

end Transducer
