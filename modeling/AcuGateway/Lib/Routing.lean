/-
Fragments of texts that are sent to places.

Each sender may own a place; what arrives at the place is what its owner has sent, in
order.  A fragment that goes to the place of its sender, or to a new place that its
sender then owns, keeps it so.

* `Routed` — what has arrived is what was sent;
* `Routed.send` — one more fragment.
-/
import Mathlib.Logic.Function.Basic

/-- `sent i` has arrived at the place that `i` owns, and nothing has arrived elsewhere. -/
structure Routed {ι κ : Type*} (own : ι → Option κ) (sent : ι → String)
    (arrived : κ → String) : Prop where
  injective : ∀ i j k, own i = some k → own j = some k → i = j
  arrives : ∀ i k, own i = some k → arrived k = sent i
  silent : ∀ i, own i = none → sent i = ""
  unused : ∀ k, (∀ i, own i ≠ some k) → arrived k = ""

namespace Routed

variable {ι κ : Type*}

theorem start : Routed (fun _ : ι => (none : Option κ)) (fun _ => "") fun _ => "" :=
  ⟨nofun, nofun, fun _ _ => rfl, fun _ _ => rfl⟩

variable [DecidableEq ι] [DecidableEq κ] {own : ι → Option κ} {sent : ι → String}
  {arrived : κ → String}

theorem send_empty (h : Routed own sent arrived) (i : ι) (k : κ) :
    Routed own (fun j => sent j ++ if j = i then "" else "") fun l =>
      arrived l ++ if l = k then "" else "" := by
  simpa using h

/-- A fragment to a place that its sender owns, or that no one owns. -/
theorem send (h : Routed own sent arrived) {i : ι} {k : κ}
    (hk : own i = some k ∨ (own i = none ∧ ∀ j, own j ≠ some k)) (s : String) :
    Routed (Function.update own i (some k)) (fun j => sent j ++ if j = i then s else "")
      (fun l => arrived l ++ if l = k then s else "") := by
  -- no one else owns the place
  have hother : ∀ j, j ≠ i → own j ≠ some k := by
    intro j hj hjk
    rcases hk with hik | ⟨-, hfree⟩
    · exact hj (h.injective j i k hjk hik)
    · exact hfree j hjk
  have hboth : arrived k = sent i := by
    rcases hk with hik | ⟨hnone, hfree⟩
    · exact h.arrives i k hik
    · rw [h.unused k hfree, h.silent i hnone]
  refine ⟨?_, ?_, ?_, ?_⟩
  · intro j j' l hj hj'
    by_cases hi : j = i <;> by_cases hi' : j' = i
    · rw [hi, hi']
    · subst hi
      rw [Function.update_self, Option.some.injEq] at hj
      rw [Function.update_of_ne hi', ← hj] at hj'
      exact absurd hj' (hother j' hi')
    · subst hi'
      rw [Function.update_self, Option.some.injEq] at hj'
      rw [Function.update_of_ne hi, ← hj'] at hj
      exact absurd hj (hother j hi)
    · rw [Function.update_of_ne hi] at hj
      rw [Function.update_of_ne hi'] at hj'
      exact h.injective j j' l hj hj'
  · intro j l hj
    by_cases hi : j = i
    · subst hi
      rw [Function.update_self, Option.some.injEq] at hj
      subst hj
      simp [hboth]
    · rw [Function.update_of_ne hi] at hj
      have hl : l ≠ k := by
        rintro rfl
        exact hother j hi hj
      simp [hi, hl, h.arrives j l hj]
  · intro j hj
    by_cases hi : j = i
    · subst hi
      simp at hj
    · rw [Function.update_of_ne hi] at hj
      simp [hi, h.silent j hj]
  · intro l hl
    have hlk : l ≠ k := by
      rintro rfl
      exact hl i (Function.update_self ..)
    have hfree : ∀ j, own j ≠ some l := by
      intro j hj
      by_cases hi : j = i
      · subst hi
        rcases hk with hik | ⟨hnone, -⟩
        · rw [hik, Option.some.injEq] at hj
          exact hlk hj.symm
        · rw [hnone] at hj
          cases hj
      · exact hl j (by rwa [Function.update_of_ne hi])
    simp [hlk, h.unused l hfree]

end Routed
