/-
Runs of a labelled state machine.

A machine is a step function `f : σ → α → σ`; a run is the list of labels it is
driven with.  `exec f s l` is the state a run ends in, and `Along P f s l` says
that every step of the run is taken from a state, and with a label, that
satisfy `P`.

* `exec_invariant` — what one step preserves, a whole run preserves;
* `exec_invariant_along` — the same for the steps a run really takes;
* `exec_append`, `along_append` — a run in two parts;
* `exec_proj` — a part of the state that does not depend on the rest;
* `along_of_invariant` — a step property that follows from an invariant holds along
  every run.
-/
import Mathlib.Tactic.Common

universe u v

namespace Run

variable {σ : Type u} {α : Type v}

/-- The state reached from `s` by the labels `l`. -/
def exec (f : σ → α → σ) : σ → List α → σ
  | s, [] => s
  | s, a :: l => exec f (f s a) l

/-- Every step of the run satisfies `P`. -/
def Along (P : σ → α → Prop) (f : σ → α → σ) : σ → List α → Prop
  | _, [] => True
  | s, a :: l => P s a ∧ Along P f (f s a) l

variable {f : σ → α → σ} {P Q : σ → α → Prop}

@[simp] theorem exec_nil (s : σ) : exec f s [] = s := rfl

@[simp] theorem exec_cons (s : σ) (a : α) (l : List α) : exec f s (a :: l) = exec f (f s a) l := rfl

@[simp] theorem along_nil (s : σ) : Along P f s [] := trivial

@[simp] theorem along_cons (s : σ) (a : α) (l : List α) :
    Along P f s (a :: l) ↔ P s a ∧ Along P f (f s a) l := Iff.rfl

theorem exec_eq_foldl (s : σ) (l : List α) : exec f s l = l.foldl f s := by
  induction l generalizing s with
  | nil => rfl
  | cons a l ih => exact ih (f s a)

theorem exec_append (s : σ) (l₁ l₂ : List α) : exec f s (l₁ ++ l₂) = exec f (exec f s l₁) l₂ := by
  induction l₁ generalizing s with
  | nil => rfl
  | cons a l₁ ih => exact ih (f s a)

variable {s : σ}

theorem along_append {l₁ l₂ : List α} :
    Along P f s (l₁ ++ l₂) ↔ Along P f s l₁ ∧ Along P f (exec f s l₁) l₂ := by
  induction l₁ generalizing s with
  | nil => simp
  | cons a l₁ ih => rw [List.cons_append, along_cons, along_cons, ih, exec_cons, and_assoc]

/-- A part of the state that each step updates on its own is updated on its own by a run. -/
theorem exec_proj {β : Type*} {g : σ → β} {upd : β → α → β}
    (hstep : ∀ s a, g (f s a) = upd (g s) a) (s : σ) (l : List α) :
    g (exec f s l) = l.foldl upd (g s) := by
  induction l generalizing s with
  | nil => rfl
  | cons a l ih => rw [exec_cons, ih, hstep, List.foldl_cons]

instance Along.decidable [∀ s a, Decidable (P s a)] :
    ∀ (s : σ) (l : List α), Decidable (Along P f s l)
  | _, [] => isTrue trivial
  | s, a :: l =>
    have := Along.decidable (f s a) l
    inferInstanceAs (Decidable (P s a ∧ Along P f (f s a) l))

variable {l : List α}

/-- A step property of the labels alone. -/
theorem along_of_forall_mem (h : ∀ a ∈ l, ∀ s, P s a) (s : σ) : Along P f s l := by
  induction l generalizing s with
  | nil => trivial
  | cons a l ih =>
    obtain ⟨ha, hl⟩ := List.forall_mem_cons.mp h
    exact ⟨ha s, ih hl (f s a)⟩

variable {Inv : σ → Prop}

/-- The invariant rule for the steps a run really takes. -/
theorem exec_invariant_along (hstep : ∀ s a, Inv s → P s a → Inv (f s a)) (hs : Inv s)
    (hl : Along P f s l) : Inv (exec f s l) := by
  induction l generalizing s with
  | nil => exact hs
  | cons a l ih => exact ih (hstep s a hs hl.1) hl.2

/-- The invariant rule. -/
theorem exec_invariant (hstep : ∀ s a, Inv s → Inv (f s a)) (hs : Inv s) (l : List α) :
    Inv (exec f s l) := by
  induction l generalizing s with
  | nil => exact hs
  | cons a l ih => exact ih (hstep s a hs)

/-- A step property that follows from an invariant holds along every run. -/
theorem along_of_invariant (hstep : ∀ s a, Inv s → P s a → Inv (f s a))
    (hQ : ∀ s a, Inv s → P s a → Q s a) (hs : Inv s)
    (hl : Along P f s l) : Along Q f s l := by
  induction l generalizing s with
  | nil => trivial
  | cons a l ih => exact ⟨hQ s a hs hl.1, ih (hstep s a hs hl.1) hl.2⟩

end Run
