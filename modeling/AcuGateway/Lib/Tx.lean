/-
Outcomes of database transactions.

A transaction commits a new store, rolls back with an error message, or never
returns.  `Tx.after s` is the store once the transaction is over: only a commit
changes it.
-/
import Mathlib.Tactic.Common

universe u v

inductive Tx (σ : Type u) (α : Type v)
  | commit (a : α) (s : σ)
  | rollback (err : String)
  | diverge

namespace Tx

variable {σ : Type u} {α : Type v}

/-- The store after a transaction that began in `s`. -/
def after (s : σ) : Tx σ α → σ
  | commit _ s' => s'
  | rollback _ => s
  | diverge => s

/-- The transaction was committed. -/
def committed : Tx σ α → Bool
  | commit _ _ => true
  | _ => false

theorem committed_iff {t : Tx σ α} : t.committed = true ↔ ∃ a s, t = commit a s := by
  cases t <;> simp [committed]

/-- An invariant that every commit keeps holds after the transaction. -/
theorem after_invariant {Inv : σ → Prop} {s : σ} {t : Tx σ α} (hs : Inv s)
    (h : ∀ a s', t = commit a s' → Inv s') : Inv (t.after s) := by
  cases t with
  | commit a s' => exact h a s' rfl
  | rollback e => exact hs
  | diverge => exact hs

end Tx
