/-
Signed 64-bit words, modelled as integers.

A machine word is an integer in `[-2^63, 2^63)`; an arithmetic operation on
words is the exact operation followed by `wrap64`, which reduces modulo `2^64`
into that range.

* `wrap64_eq_self` — an exact result that fits is the machine result;
* `wrap64_of_overflow` — a sum of two words that overflows upwards turns into
  a negative word.
-/
import Mathlib.Tactic.Common

/-- Two's-complement reduction of an integer into `[-2^63, 2^63)`. -/
def wrap64 (x : Int) : Int := (x + 9223372036854775808) % 18446744073709551616 - 9223372036854775808

/-- The integers a signed 64-bit word can hold. -/
def IsInt64 (x : Int) : Prop := -9223372036854775808 ≤ x ∧ x < 9223372036854775808
deriving Decidable

/-- A count that is not negative. -/
def IsCount (x : Int) : Prop := 0 ≤ x ∧ IsInt64 x
deriving Decidable

theorem isInt64_wrap64 (x : Int) : IsInt64 (wrap64 x) := by
  unfold IsInt64 wrap64
  omega

theorem wrap64_eq_self {x : Int} (h : IsInt64 x) : wrap64 x = x := by
  unfold IsInt64 at h
  unfold wrap64
  omega

/-- An exact value in the upper half of `[0, 2^64)` becomes negative. -/
theorem wrap64_of_overflow {x : Int} (h : 9223372036854775808 ≤ x)
    (h' : x < 18446744073709551616) : wrap64 x = x - 18446744073709551616 := by
  unfold wrap64
  omega
