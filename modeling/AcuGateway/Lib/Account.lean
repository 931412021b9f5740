/-
Amounts charged to keys.

An account is a list of keys with the amount charged to each.  A key is charged
at most once; if a list names it twice, the first entry counts.

* `total_adjust` — adjusting the amount of a charged key moves the total by the
  same amount;
* `total_remove` — removing a charged key lowers the total by its amount.
-/
import Mathlib.Tactic.Common

universe u

namespace Account

variable {κ : Type u}

/-- The sum of all amounts. -/
def total : List (κ × Int) → Int
  | [] => 0
  | e :: l => e.2 + total l

@[simp] theorem total_cons (e : κ × Int) (l : List (κ × Int)) :
    total (e :: l) = e.2 + total l := rfl

variable [DecidableEq κ]

/-- The amount charged to `k`. -/
def charge (k : κ) : List (κ × Int) → Option Int
  | [] => none
  | e :: l => if e.1 = k then some e.2 else charge k l

/-- Add `delta` to the amount of `k`. -/
def adjust (k : κ) (delta : Int) : List (κ × Int) → List (κ × Int)
  | [] => []
  | e :: l => if e.1 = k then (k, e.2 + delta) :: l else e :: adjust k delta l

/-- Drop `k`. -/
def remove (k : κ) : List (κ × Int) → List (κ × Int)
  | [] => []
  | e :: l => if e.1 = k then l else e :: remove k l

theorem total_adjust (k : κ) (delta : Int) (l : List (κ × Int)) :
    total (adjust k delta l) = total l + if (charge k l).isSome then delta else 0 := by
  induction l with
  | nil => simp [adjust, charge]
  | cons e l ih =>
    by_cases h : e.1 = k
    · rw [adjust, charge, if_pos h, if_pos h]
      simp only [total_cons, Option.isSome_some, if_true]
      omega
    · rw [adjust, charge, if_neg h, if_neg h]
      simp only [total_cons, ih]
      omega

theorem total_remove (k : κ) (l : List (κ × Int)) :
    total (remove k l) = total l - (charge k l).getD 0 := by
  induction l with
  | nil => simp [remove, charge]
  | cons e l ih =>
    by_cases h : e.1 = k
    · rw [remove, charge, if_pos h, if_pos h]
      simp only [total_cons, Option.getD_some]
      omega
    · rw [remove, charge, if_neg h, if_neg h]
      simp only [total_cons, ih]
      omega

end Account
