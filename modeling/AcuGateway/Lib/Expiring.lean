/-
Keys with an expiry time.

A key of such a store holds a value until a point in time; from then on it is as if it had never
been set.
-/
import Mathlib.Tactic.Common

universe u

/-- A value and when it expires. -/
structure Expiring (α : Type u) where
  value : α
  expiresAt : Int

namespace Expiring

variable {α : Type u} {key : Option (Expiring α)} {now : Int} {value : α}

/-- What is found under a key. -/
def get (key : Option (Expiring α)) (now : Int) : Option α :=
  key.bind fun entry => if now < entry.expiresAt then some entry.value else none

theorem get_eq_some :
    get key now = some value ↔ ∃ expiresAt, key = some ⟨value, expiresAt⟩ ∧ now < expiresAt := by
  cases key with
  | none => simp [get]
  | some entry =>
    obtain ⟨stored, expiresAt⟩ := entry
    by_cases hlt : now < expiresAt
    · simp [get, hlt]
    · simp [get, hlt]

end Expiring
