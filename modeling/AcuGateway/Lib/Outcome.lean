/-
Calls that return a value, return an error or panic.

* `Outcome.bind` — one call after another;
* `Outcome.fold` — a loop, which ends with the first iteration that does not return.
-/
import Mathlib.Tactic.Common

inductive Outcome (α : Type)
  | ok (value : α)
  | error (message : String)
  | panicked
deriving DecidableEq

namespace Outcome

variable {α β σ : Type}

def bind : Outcome α → (α → Outcome β) → Outcome β
  | .ok a, f => f a
  | .error e, _ => .error e
  | .panicked, _ => .panicked

/-- A pointer that is dereferenced. -/
def deref : Option α → Outcome α
  | some a => .ok a
  | none => .panicked

/-- A loop over a list, which ends with the first iteration that does not return. -/
def fold (f : σ → α → Outcome σ) : σ → List α → Outcome σ
  | s, [] => .ok s
  | s, a :: l => (f s a).bind fun s => fold f s l

@[simp] theorem ok_bind (a : α) (f : α → Outcome β) : (ok a).bind f = f a := rfl

@[simp] theorem fold_nil (f : σ → α → Outcome σ) (s : σ) : fold f s [] = .ok s := rfl

@[simp] theorem fold_cons (f : σ → α → Outcome σ) (s : σ) (a : α) (l : List α) :
    fold f s (a :: l) = (f s a).bind fun s => fold f s l := rfl

end Outcome
