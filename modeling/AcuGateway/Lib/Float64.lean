/-
64-bit floating-point numbers.

A 64-bit float has 53 significant bits, so a number that needs more is rounded to the nearest one
that does not, ties to an even last bit.  `Float64.round q` is that number for a rational, and
`float64 x` for an integer; a sum or a product of floats is the rounded exact one.  Below `2^1024`
no number overflows.

* `float64_eq_self` — integers up to `2^53` are exact;
* `round_mono`, `float64_mono` — rounding keeps the order;
* `round_mul_zpow` — rounding does not see a power of two, down to the least float;
* `IsFloat64.normal` — every positive float is one of 53 bits times a power of two;
* `IsFloat64.told_apart` — products with two further factors tell two floats apart.
-/
import Mathlib.Algebra.Order.Field.Power
import Mathlib.Data.Int.Log
import Mathlib.Data.Rat.Floor
import Mathlib.Tactic.Linarith
import Mathlib.Tactic.Positivity

namespace Float64

/-! ### Integers -/

/-- `n` with its lowest `s` bits rounded away, to nearest, ties to even. -/
def roundBits (n s : Nat) : Nat :=
  let q := n / 2 ^ s
  let r := n % 2 ^ s
  if 2 ^ s < 2 * r ∨ (2 ^ s = 2 * r ∧ q % 2 = 1) then (q + 1) * 2 ^ s else q * 2 ^ s

/-- The float nearest to `n`. -/
def ofNat (n : Nat) : Nat := roundBits n (Nat.log2 n - 52)

section

variable (n s : Nat)

theorem roundBits_zero : roundBits n 0 = n := by
  simp [roundBits, Nat.mod_one]

theorem dvd_roundBits : 2 ^ s ∣ roundBits n s := by
  unfold roundBits
  dsimp only
  split_ifs
  · exact Dvd.intro_left _ rfl
  · exact Dvd.intro_left _ rfl

/-- The rounded number is at most half a unit away. -/
theorem roundBits_near : 2 * roundBits n s ≤ 2 * n + 2 ^ s ∧ 2 * n ≤ 2 * roundBits n s + 2 ^ s := by
  have hdiv := Nat.div_add_mod' n (2 ^ s)
  have hlt := Nat.mod_lt n (Nat.two_pow_pos s)
  have hstep : (n / 2 ^ s + 1) * 2 ^ s = n / 2 ^ s * 2 ^ s + 2 ^ s := Nat.succ_mul _ _
  unfold roundBits
  dsimp only
  split_ifs <;> omega

theorem ofNat_eq_self {n : Nat} (h : n ≤ 2 ^ 53) : ofNat n = n := by
  rcases Nat.lt_or_eq_of_le h with hlt | rfl
  · have hlog : Nat.log2 n - 52 = 0 := by
      by_cases hn : n = 0
      · subst hn; rfl
      · have := (Nat.log2_lt hn).mpr hlt
        omega
    rw [ofNat, hlog, roundBits_zero]
  · decide

end

end Float64

/-- The conversion of an integer to a 64-bit float. -/
def float64 (x : Int) : Int :=
  if 0 ≤ x then Float64.ofNat x.toNat else -(Float64.ofNat (-x).toNat : Int)

section

variable {x y : Int}

theorem float64_eq_self (h₀ : 0 ≤ x) (h : x ≤ 2 ^ 53) : float64 x = x := by
  have hn : x.toNat ≤ 2 ^ 53 := by omega
  rw [float64, if_pos h₀, Float64.ofNat_eq_self hn]
  omega

theorem float64_nonneg (h : 0 ≤ x) : 0 ≤ float64 x := by
  rw [float64, if_pos h]
  exact Int.natCast_nonneg _

theorem float64_nonpos (h : x < 0) : float64 x ≤ 0 := by
  rw [float64, if_neg (by omega)]
  exact Int.neg_nonpos_of_nonneg (Int.natCast_nonneg _)

end

namespace Float64

/-! ### Rationals -/

/-- The nearest integer, ties to even. -/
def roundEven (q : ℚ) : ℤ :=
  if q - ⌊q⌋ < 1 / 2 ∨ q - ⌊q⌋ = 1 / 2 ∧ ⌊q⌋ % 2 = 0 then ⌊q⌋ else ⌊q⌋ + 1

/-- The distance of the floats above the power of two below `q`. -/
def ulp (q : ℚ) : ℚ := 2 ^ max (Int.log 2 q - 52) (-1074)

/-- The float nearest to `q`. -/
def round (q : ℚ) : ℚ :=
  if 0 ≤ q then roundEven (q / ulp q) * ulp q else -(roundEven (-q / ulp (-q)) * ulp (-q))

theorem round_neg (q : ℚ) : round (-q) = -round q := by
  rcases lt_trichotomy q 0 with hneg | rfl | hpos
  · rw [round, if_pos (by linarith), round, if_neg (by linarith), neg_neg]
  · simp [round, roundEven]
  · rw [round, if_neg (by linarith), round, if_pos hpos.le, neg_neg]

theorem roundEven_intCast (n : ℤ) : roundEven n = n := by
  simp [roundEven]

/-- Rounding a quotient by a power of two is rounding bits away. -/
theorem roundEven_div (n s : Nat) : (roundEven ((n : ℚ) / 2 ^ s) : ℚ) * 2 ^ s = roundBits n s := by
  have hpos : (0 : ℚ) < 2 ^ s := by positivity
  have hfloor : ⌊(n : ℚ) / 2 ^ s⌋ = (n / 2 ^ s : Nat) := by
    rw [show ((2 : ℚ) ^ s) = ((2 ^ s : Nat) : ℚ) by push_cast; rfl]
    exact Rat.floor_natCast_div_natCast n (2 ^ s)
  -- quotient and rest of the division decide how the fraction is rounded
  have hsplit : (n : ℚ) / 2 ^ s = (n / 2 ^ s : Nat) + (n % 2 ^ s : Nat) / 2 ^ s := by
    rw [div_eq_iff hpos.ne', add_mul, div_mul_cancel₀ _ hpos.ne']
    exact_mod_cast (Nat.div_add_mod' n (2 ^ s)).symm
  have hfrac : (n : ℚ) / 2 ^ s - ((n / 2 ^ s : Nat) : ℤ) = (n % 2 ^ s : Nat) / 2 ^ s := by
    rw [hsplit, Int.cast_natCast, add_sub_cancel_left]
  have hlt : ((n % 2 ^ s : Nat) : ℚ) / 2 ^ s < 1 / 2 ↔ 2 * (n % 2 ^ s) < 2 ^ s := by
    rw [div_lt_div_iff₀ hpos two_pos, one_mul, mul_comm]
    exact_mod_cast Iff.rfl
  have heq : ((n % 2 ^ s : Nat) : ℚ) / 2 ^ s = 1 / 2 ↔ 2 * (n % 2 ^ s) = 2 ^ s := by
    rw [div_eq_div_iff hpos.ne' two_ne_zero, one_mul, mul_comm]
    exact_mod_cast Iff.rfl
  have hparity : ((n / 2 ^ s : Nat) : ℤ) % 2 = 0 ↔ n / 2 ^ s % 2 ≠ 1 := by omega
  unfold roundEven roundBits
  simp only [hfloor, hfrac, hlt, heq, hparity]
  split_ifs with h₁ h₂ h₂
  · omega
  · push_cast
    rfl
  · push_cast
    rfl
  · omega

/-- The exponent of a natural number times a power of two. -/
theorem log_mul_zpow {n : Nat} (hn : n ≠ 0) (k : ℤ) :
    Int.log 2 ((n : ℚ) * 2 ^ k) = Nat.log2 n + k := by
  have hpos : (0 : ℚ) < n * 2 ^ k := by positivity
  have hlow : (2 : ℚ) ^ Nat.log2 n ≤ n := mod_cast Nat.log2_self_le hn
  have hhigh : (n : ℚ) < 2 ^ (Nat.log2 n + 1) := mod_cast Nat.lt_log2_self
  refine le_antisymm (Int.lt_add_one_iff.mp ((Int.lt_zpow_iff_log_lt one_lt_two hpos).mp ?_))
    ((Int.zpow_le_iff_le_log one_lt_two hpos).mp ?_)
  · rw [Nat.cast_ofNat, show (Nat.log2 n : ℤ) + k + 1 =
      (Nat.log2 n + 1 : Nat) + k by push_cast; ring, zpow_add₀ two_ne_zero, zpow_natCast]
    exact mul_lt_mul_of_pos_right hhigh (by positivity)
  · rw [Nat.cast_ofNat, zpow_add₀ two_ne_zero, zpow_natCast]
    exact mul_le_mul_of_nonneg_right hlow (by positivity)

/-- Rounding does not see a factor that is a power of two and no less than the least float. -/
theorem round_natCast_mul_zpow (n : Nat) {k : ℤ} (hk : -1074 ≤ k) :
    round (n * 2 ^ k) = ofNat n * 2 ^ k := by
  have hnonneg : (0 : ℚ) ≤ n * 2 ^ k := by positivity
  rcases eq_or_ne n 0 with rfl | hn
  · simp [round, roundEven, show ofNat 0 = 0 from rfl]
  rw [round, if_pos hnonneg, ulp, log_mul_zpow hn]
  rcases Nat.lt_or_ge (Nat.log2 n) 53 with hsmall | hlarge
  · -- a multiple of the unit
    have hexact : ofNat n = n :=
      ofNat_eq_self (Nat.lt_log2_self.le.trans (Nat.pow_le_pow_right (by decide) hsmall))
    obtain ⟨j, hj⟩ : ∃ j : Nat, k = max ((Nat.log2 n : ℤ) + k - 52) (-1074) + j :=
      ⟨(k - max ((Nat.log2 n : ℤ) + k - 52) (-1074)).toNat, by omega⟩
    generalize max ((Nat.log2 n : ℤ) + k - 52) (-1074) = u at hj
    have hquot : (n : ℚ) * 2 ^ k / 2 ^ u = ((n * 2 ^ j : Nat) : ℤ) := by
      rw [hj, zpow_add₀ two_ne_zero, mul_left_comm, mul_div_cancel_left₀ _ (by positivity)]
      push_cast
      rfl
    rw [hquot, roundEven_intCast, hexact, ← hquot, div_mul_cancel₀ _ (by positivity)]
  · obtain ⟨s, hs⟩ : ∃ s, Nat.log2 n = 52 + s := ⟨Nat.log2 n - 52, by omega⟩
    have hunit : max ((Nat.log2 n : ℤ) + k - 52) (-1074) = s + k := by omega
    have hofNat : ofNat n = roundBits n s := by rw [ofNat, show Nat.log2 n - 52 = s by omega]
    rw [hunit, zpow_add₀ two_ne_zero, zpow_natCast, mul_div_mul_right _ _ (by positivity),
      ← mul_assoc, roundEven_div, hofNat]

theorem round_mul_zpow (x : ℤ) {k : ℤ} (hk : -1074 ≤ k) :
    round (x * 2 ^ k) = float64 x * 2 ^ k := by
  obtain ⟨n, rfl | rfl⟩ := x.eq_nat_or_neg
  · have hfloat : float64 n = ofNat n := if_pos (Int.natCast_nonneg n)
    rw [hfloat, Int.cast_natCast, Int.cast_natCast, round_natCast_mul_zpow n hk]
  · rcases Nat.eq_zero_or_pos n with rfl | hn
    · simp [round, roundEven, float64, show ofNat 0 = 0 from rfl]
    · have hfloat : float64 (-n) = -ofNat n := by
        rw [float64, if_neg (by omega), Int.neg_neg, Int.toNat_natCast]
      rw [hfloat, Int.cast_neg, Int.cast_natCast, Int.cast_neg, Int.cast_natCast, neg_mul, neg_mul,
        round_neg, round_natCast_mul_zpow n hk]

/-! ### The order -/

theorem roundEven_mono {p q : ℚ} (h : p ≤ q) : roundEven p ≤ roundEven q := by
  rcases (Int.floor_le_floor h).lt_or_eq with hlt | heq
  · unfold roundEven
    split_ifs <;> omega
  · -- the same integer below both, so that only the fractions count
    unfold roundEven
    rw [← heq]
    split_ifs with hp hq hq
    · exact le_rfl
    · omega
    · refine absurd ?_ hp
      rcases hq with hq | ⟨hq, heven⟩
      · exact .inl (by linarith)
      · rcases (show p - ⌊p⌋ ≤ 1 / 2 by linarith).lt_or_eq with hlt | heq
        · exact .inl hlt
        · exact .inr ⟨heq, heven⟩
    · exact le_rfl

theorem round_nonneg {q : ℚ} (h : 0 ≤ q) : 0 ≤ round q := by
  rw [round, if_pos h]
  have hzero : roundEven ((0 : ℤ) : ℚ) ≤ roundEven (q / ulp q) :=
    roundEven_mono (by rw [Int.cast_zero]; unfold ulp; positivity)
  rw [roundEven_intCast] at hzero
  exact mul_nonneg (mod_cast hzero) (by unfold ulp; positivity)

theorem round_mono_of_pos {p q : ℚ} (hp : 0 < p) (h : p ≤ q) : round p ≤ round q := by
  have hq : 0 < q := hp.trans_le h
  rw [round, if_pos hp.le, round, if_pos hq.le]
  have hlog : Int.log 2 p ≤ Int.log 2 q := Int.log_mono_right hp h
  rcases (max_le_max_right (-1074) (sub_le_sub_right hlog 52)).lt_or_eq with hlt | heq
  · -- a power of two lies between the two, and is a multiple of both units
    have hp' := Int.lt_zpow_succ_log_self (b := 2) one_lt_two p
    have hq' := Int.zpow_log_le_self (b := 2) one_lt_two hq
    unfold ulp
    rw [Nat.cast_ofNat] at hp' hq'
    generalize Int.log 2 p = l at *
    generalize Int.log 2 q = k at *
    have hu : max (k - 52) (-1074) = k - 52 := by omega
    have hlk : l + 1 ≤ k := by omega
    obtain ⟨j, hj⟩ : ∃ j : Nat, k = max (l - 52) (-1074) + j :=
      ⟨(k - max (l - 52) (-1074)).toNat, by omega⟩
    rw [hu]
    generalize max (l - 52) (-1074) = u at *
    have hbelow : roundEven (p / 2 ^ u) ≤ 2 ^ j := by
      rw [← roundEven_intCast (2 ^ j)]
      refine roundEven_mono ((div_le_iff₀ (by positivity)).mpr ?_)
      calc p ≤ 2 ^ (l + 1) := hp'.le
        _ ≤ 2 ^ k := zpow_le_zpow_right₀ one_le_two hlk
        _ = ((2 ^ j : ℤ) : ℚ) * 2 ^ u := by
          rw [hj, zpow_add₀ two_ne_zero, zpow_natCast]
          push_cast
          ring
    have habove : 2 ^ 52 ≤ roundEven (q / 2 ^ (k - 52)) := by
      rw [← roundEven_intCast (2 ^ 52)]
      refine roundEven_mono ((le_div_iff₀ (by positivity)).mpr ?_)
      calc ((2 ^ 52 : ℤ) : ℚ) * 2 ^ (k - 52) = 2 ^ k := by
            rw [show ((2 ^ 52 : ℤ) : ℚ) = 2 ^ (52 : ℤ) by norm_num, ← zpow_add₀ two_ne_zero]
            congr 1
            omega
        _ ≤ q := hq'
    calc (roundEven (p / 2 ^ u) : ℚ) * 2 ^ u ≤ ((2 ^ j : ℤ) : ℚ) * 2 ^ u :=
          mul_le_mul_of_nonneg_right (mod_cast hbelow) (by positivity)
      _ = ((2 ^ 52 : ℤ) : ℚ) * 2 ^ (k - 52) := by
        rw [show ((2 ^ 52 : ℤ) : ℚ) =
          2 ^ (52 : ℤ) by norm_num, ← zpow_add₀ two_ne_zero, Int.cast_pow,
          Int.cast_ofNat, ← zpow_natCast, ← zpow_add₀ two_ne_zero]
        congr 1
        omega
      _ ≤ roundEven (q / 2 ^ (k - 52)) * 2 ^ (k - 52) :=
        mul_le_mul_of_nonneg_right (mod_cast habove) (by positivity)
  · unfold ulp
    rw [heq]
    exact mul_le_mul_of_nonneg_right
      (mod_cast roundEven_mono (div_le_div_of_nonneg_right h (by positivity))) (by positivity)

/-- Rounding keeps the order. -/
theorem round_mono {p q : ℚ} (h : p ≤ q) : round p ≤ round q := by
  rcases lt_or_ge 0 p with hp | hp
  · exact round_mono_of_pos hp h
  · have hp' : round p ≤ 0 := by
      rw [← neg_neg p, round_neg]
      exact neg_nonpos.mpr (round_nonneg (neg_nonneg.mpr hp))
    rcases le_or_gt 0 q with hq | hq
    · exact hp'.trans (round_nonneg hq)
    · have hneg := round_mono_of_pos (neg_pos.mpr hq) (neg_le_neg h)
      rw [round_neg, round_neg] at hneg
      exact neg_le_neg_iff.mp hneg

end Float64

theorem float64_mono {x y : Int} (h : x ≤ y) : float64 x ≤ float64 y := by
  have hround := Float64.round_mono (show (x : ℚ) * 2 ^ (0 : ℤ) ≤ y * 2 ^ (0 : ℤ) by simpa using h)
  rw [Float64.round_mul_zpow x (by decide), Float64.round_mul_zpow y (by decide)] at hround
  simpa using hround

/-! ### Floats -/

/-- The finite floats. -/
def IsFloat64 (q : ℚ) : Prop := Float64.round q = q ∧ |q| < 2 ^ 1024
deriving Decidable

theorem IsFloat64.neg {q : ℚ} (h : IsFloat64 q) : IsFloat64 (-q) :=
  ⟨by rw [Float64.round_neg, h.1], by rw [abs_neg]; exact h.2⟩

theorem isFloat64_mul_zpow {n : Nat} (hn : n ≤ 2 ^ 53) {k : ℤ} (hk : -1074 ≤ k) (hk' : k ≤ 970) :
    IsFloat64 (n * 2 ^ k) := by
  refine ⟨by rw [Float64.round_natCast_mul_zpow n hk, Float64.ofNat_eq_self hn], ?_⟩
  rw [abs_of_nonneg (by positivity)]
  calc (n : ℚ) * 2 ^ k ≤ 2 ^ 53 * 2 ^ (970 : ℤ) :=
        mul_le_mul (mod_cast hn) (zpow_le_zpow_right₀ one_le_two hk') (by positivity)
          (by positivity)
    _ = 2 ^ (1023 : ℤ) := by rw [← zpow_natCast, ← zpow_add₀ two_ne_zero]; rfl
    _ < 2 ^ 1024 := by
      rw [← zpow_natCast]
      exact zpow_lt_zpow_right₀ one_lt_two (by decide)

/-- Positive floats are numbers of 53 bits times a power of two. -/
theorem IsFloat64.normal {q : ℚ} (h : IsFloat64 q) (hpos : 0 < q) :
    ∃ (n : Nat) (e : ℤ), 2 ^ 52 ≤ n ∧ n < 2 ^ 53 ∧ -1126 ≤ e ∧ e ≤ 971 ∧ q = n * 2 ^ e := by
  obtain ⟨hround, hfinite⟩ := h
  rw [Float64.round, if_pos hpos.le, Float64.ulp] at hround
  have hlow := Int.zpow_log_le_self (b := 2) one_lt_two hpos
  have hhigh := Int.lt_zpow_succ_log_self (b := 2) one_lt_two q
  rw [Nat.cast_ofNat] at hlow hhigh
  generalize Int.log 2 q = l at *
  generalize Float64.roundEven (q / 2 ^ max (l - 52) (-1074)) = z at hround
  -- the unit is a multiple of the power that leaves 53 bits
  obtain ⟨j, hj⟩ : ∃ j : Nat, max (l - 52) (-1074) = l - 52 + j :=
    ⟨(max (l - 52) (-1074) - (l - 52)).toNat, by omega⟩
  have hq : q = (z * 2 ^ j : ℤ) * 2 ^ (l - 52) := by
    rw [← hround, hj, zpow_add₀ two_ne_zero, zpow_natCast]
    push_cast
    ring
  have hscale : (0 : ℚ) < 2 ^ (l - 52) := by positivity
  have hmant : 2 ^ 52 ≤ z * 2 ^ j ∧ z * 2 ^ j < 2 ^ 53 := by
    constructor
    · have : ((2 ^ 52 : ℤ) : ℚ) * 2 ^ (l - 52) ≤ (z * 2 ^ j : ℤ) * 2 ^ (l - 52) := by
        rw [← hq, show ((2 ^ 52 : ℤ) : ℚ) = 2 ^ (52 : ℤ) by norm_num, ← zpow_add₀ two_ne_zero]
        simpa using hlow
      exact_mod_cast le_of_mul_le_mul_right this hscale
    · have : ((z * 2 ^ j : ℤ) : ℚ) * 2 ^ (l - 52) < (2 ^ 53 : ℤ) * 2 ^ (l - 52) := by
        rw [← hq, show ((2 ^ 53 : ℤ) : ℚ) = 2 ^ (53 : ℤ) by norm_num, ← zpow_add₀ two_ne_zero,
          show (53 : ℤ) + (l - 52) = l + 1 by ring]
        exact hhigh
      exact_mod_cast lt_of_mul_lt_mul_right this hscale.le
  have hz : 1 ≤ z := by
    by_contra hz
    have : z * 2 ^ j ≤ 0 := mul_nonpos_of_nonpos_of_nonneg (by omega) (by positivity)
    omega
  have hleast : -1074 ≤ l := by
    have : (2 : ℚ) ^ (-1074 : ℤ) < 2 ^ (l + 1) := by
      calc (2 : ℚ) ^ (-1074 : ℤ) ≤ 2 ^ max (l - 52) (-1074) :=
        zpow_le_zpow_right₀ one_le_two (le_max_right _ _)
        _ ≤ z * 2 ^ max (l - 52) (-1074) := le_mul_of_one_le_left (by positivity) (mod_cast hz)
        _ = q := hround
        _ < 2 ^ (l + 1) := hhigh
    have := (zpow_lt_zpow_iff_right₀ one_lt_two).mp this
    omega
  have hmost : l ≤ 1023 := by
    have : (2 : ℚ) ^ l < 2 ^ (1024 : ℤ) := by
      calc (2 : ℚ) ^ l ≤ q := hlow
        _ = |q| := (abs_of_pos hpos).symm
        _ < 2 ^ (1024 : ℤ) := by exact_mod_cast hfinite
    have := (zpow_lt_zpow_iff_right₀ one_lt_two).mp this
    omega
  refine ⟨(z * 2 ^ j).toNat, l - 52, by omega, by omega, by omega, by omega, ?_⟩
  have hcast : (((z * 2 ^ j).toNat : ℤ) : ℚ) = (z * 2 ^ j : ℤ) := by
    rw [Int.toNat_of_nonneg (by omega)]
  rw [← Int.cast_natCast, hcast]
  exact hq

/-! ### Telling floats apart -/

namespace Float64

/-- A product of 105 bits has 52 bits rounded away. -/
theorem ofNat_of_log {x : Nat} (hlow : 2 ^ 104 ≤ x) (hhigh : x < 2 ^ 105) :
    ∃ r, ofNat x = r * 2 ^ 52 ∧ 2 * ofNat x ≤ 2 * x + 2 ^ 52 ∧ 2 * x ≤ 2 * ofNat x + 2 ^ 52 := by
  have hlog : Nat.log2 x = 104 := by
    have hne : x ≠ 0 := by omega
    have := (Nat.le_log2 hne).mpr hlow
    have := (Nat.log2_lt hne).mpr hhigh
    omega
  have hbits : ofNat x = roundBits x 52 := by rw [ofNat, hlog]
  obtain ⟨r, hr⟩ := dvd_roundBits x 52
  rw [hbits]
  exact ⟨r, by rw [hr, mul_comm], roundBits_near x 52⟩

/-- A factor that brings a number of 53 bits and the next one just below a power of two, where they
are not rounded to the same. -/
theorem exists_factor {n : Nat} (hlow : 2 ^ 52 ≤ n) (hhigh : n < 2 ^ 53) :
    ∃ a r r', 0 < a ∧ a ≤ 2 ^ 53 ∧ 2 ^ 53 - 4 ≤ r ∧ r < r' ∧ r' ≤ 2 ^ 53 ∧
      ofNat (a * n) = r * 2 ^ 52 ∧ ofNat (a * (n + 1)) = r' * 2 ^ 52 := by
  have hpos : 0 < n + 1 := by omega
  have hle : 2 ^ 105 / (n + 1) * (n + 1) ≤ 2 ^ 105 := Nat.div_mul_le_self _ _
  have hlt : 2 ^ 105 < 2 ^ 105 / (n + 1) * (n + 1) + (n + 1) := by
    have := Nat.lt_div_mul_add (a := 2 ^ 105) hpos
    omega
  have ha : 2 ^ 52 ≤ 2 ^ 105 / (n + 1) := (Nat.le_div_iff_mul_le hpos).mpr (by omega)
  have ha' : 2 ^ 105 / (n + 1) ≤ 2 ^ 53 := Nat.div_le_of_le_mul (by omega)
  generalize 2 ^ 105 / (n + 1) = a at *
  have hnext : a * (n + 1) = a * n + a := Nat.mul_succ a n
  rw [hnext] at hle hlt
  obtain ⟨r, hr, hr₁, hr₂⟩ := ofNat_of_log (x := a * n) (by omega) (by omega)
  rcases hle.lt_or_eq with hbelow | hpower
  · obtain ⟨r', hr', hr₃, hr₄⟩ := ofNat_of_log (x := a * n + a) (by omega) hbelow
    refine ⟨a, r, r', by omega, ha', by omega, ?_, by omega, hr, hnext ▸ hr'⟩
    -- more than one unit apart, unless the factor is a power of two and both are exact
    rcases ha.lt_or_eq with hmore | hexact
    · omega
    · subst hexact
      omega
  · refine ⟨a, r, 2 ^ 53, by omega, ha', by omega, by omega, le_rfl, hr, ?_⟩
    rw [hnext, hpower]
    decide +kernel

/-- A second factor brings an integer between the two. -/
theorem exists_threshold {r r' : Nat} (hlow : 2 ^ 53 - 4 ≤ r) (hlt : r < r') (hhigh : r' ≤ 2 ^ 53) :
    ∃ c b t, 0 < c ∧ c ≤ 2 ^ 53 ∧ 1 ≤ b ∧ 100 ≤ t ∧ t ≤ 160 ∧ ofNat (r * 2 ^ 52 * c) < b * 2 ^ t ∧
      b * 2 ^ t ≤ ofNat (r' * 2 ^ 52 * c) ∧ ofNat (r' * 2 ^ 52 * c) ≤ 100 * 2 ^ t := by
  have hmono : ∀ {x y : Nat}, x ≤ y → ofNat x ≤ ofNat y := by
    intro x y hxy
    have hfloat : ∀ n : Nat, float64 n = ofNat n := fun n => if_pos (Int.natCast_nonneg n)
    have := float64_mono (Int.ofNat_le.mpr hxy)
    rwa [hfloat, hfloat, Int.ofNat_le] at this
  have hcases : r = 2 ^ 53 - 4 ∨ r = 2 ^ 53 - 3 ∨ r = 2 ^ 53 - 2 ∨ r = 2 ^ 53 - 1 := by omega
  have htable : ∃ c b t, 0 < c ∧ c ≤ 2 ^ 53 ∧ 1 ≤ b ∧ 100 ≤ t ∧ t ≤ 160 ∧
      ofNat (r * 2 ^ 52 * c) < b * 2 ^ t ∧ b * 2 ^ t ≤ ofNat ((r + 1) * 2 ^ 52 * c) ∧
      ofNat (2 ^ 53 * 2 ^ 52 * c) ≤ 100 * 2 ^ t := by
    -- for each mantissa a power that one product stays below and the next one reaches
    rcases hcases with rfl | rfl | rfl | rfl
    · exact ⟨3 * 2 ^ 51 + 2, 3, 156, by decide +kernel⟩
    · exact ⟨5 * 2 ^ 50 + 1, 5, 155, by decide +kernel⟩
    · exact ⟨3 * 2 ^ 51 + 1, 3, 156, by decide +kernel⟩
    · exact ⟨1, 1, 105, by decide +kernel⟩
  obtain ⟨c, b, t, hc, hc', hb, ht, ht', hbelow, habove, hbound⟩ := htable
  exact ⟨c, b, t, hc, hc', hb, ht, ht', hbelow, habove.trans (hmono (by gcongr; omega)),
    (hmono (by gcongr)).trans hbound⟩

end Float64

/-- Below a positive float there is room for the one before it. -/
theorem IsFloat64.exists_pred {x y : ℚ} (hx : IsFloat64 x) (hy : IsFloat64 y) (hpos : 0 < y)
    (hlt : x < y) :
    ∃ (n : Nat) (e : ℤ), 2 ^ 52 ≤ n ∧ n < 2 ^ 53 ∧ -1127 ≤ e ∧ e ≤ 971 ∧ x ≤ n * 2 ^ e ∧
      y = (n + 1) * 2 ^ e := by
  obtain ⟨m, e, hm, hm', he, he', rfl⟩ := hy.normal hpos
  have hhalf : (2 : ℚ) ^ e = 2 * 2 ^ (e - 1) := by
    rw [← zpow_one_add₀ two_ne_zero, add_sub_cancel]
  -- with a smaller exponent it lies below all floats that have this one
  have hbelow : x ≤ (2 ^ 53 - 1 : Nat) * 2 ^ (e - 1) ∨ ∃ k : Nat, 2 ^ 52 ≤ k ∧ k < m ∧
      x = k * 2 ^ e := by
    rcases le_or_gt x 0 with hneg | hx0
    · exact .inl (hneg.trans (by positivity))
    obtain ⟨k, f, hk, hk', -, -, rfl⟩ := hx.normal hx0
    rcases lt_trichotomy f e with hless | rfl | hmore
    · exact .inl
        (mul_le_mul (mod_cast by omega) (zpow_le_zpow_right₀ one_le_two (by omega)) (by positivity)
        (by positivity))
    · exact .inr ⟨k, hk, by exact_mod_cast lt_of_mul_lt_mul_right hlt (by positivity), rfl⟩
    · have hle : (m : ℚ) * 2 ^ e ≤ k * 2 ^ f := by
        calc (m : ℚ) * 2 ^ e ≤ (2 * k : Nat) * 2 ^ e := by gcongr; omega
          _ = k * 2 ^ (e + 1) := by
            rw [zpow_add_one₀ two_ne_zero]
            push_cast
            ring
          _ ≤ k * 2 ^ f := by gcongr <;> [exact one_le_two; omega]
      exact absurd hlt (not_lt.mpr hle)
  by_cases hpower : m = 2 ^ 52
  · refine ⟨2 ^ 53 - 1, e - 1, by decide, by decide, by omega, by omega, ?_, ?_⟩
    · exact hbelow.resolve_right fun ⟨k, hk, hkm, _⟩ => by omega
    · rw [hpower, hhalf]
      push_cast
      ring
  · obtain ⟨n, rfl⟩ : ∃ n, m = n + 1 := ⟨m - 1, by omega⟩
    refine ⟨n, e, by omega, by omega, by omega, he', ?_, by push_cast; rfl⟩
    rcases hbelow with hless | ⟨k, hk, hkm, rfl⟩
    · refine hless.trans ?_
      rw [hhalf, ← mul_assoc]
      gcongr
      exact_mod_cast show 2 ^ 53 - 1 ≤ n * 2 by omega
    · gcongr
      omega

/-- **Two floats are told apart** by two more factors: their rounded products have an integer
between them. -/
theorem IsFloat64.told_apart {x y : ℚ} (hx : IsFloat64 x) (hy : IsFloat64 y) (hpos : 0 < y)
    (hlt : x < y) (habs : -y ≤ x) :
    ∃ m o, ∃ b : ℤ, IsFloat64 m ∧ IsFloat64 o ∧ 0 < m ∧ 0 < o ∧ 1 ≤ b ∧
      |Float64.round (m * x)| < 2 ^ 1024 ∧ |Float64.round (m * y)| < 2 ^ 1024 ∧
      -100 ≤ Float64.round (Float64.round (m * x) * o) ∧
        Float64.round (Float64.round (m * x) * o) < b ∧
      b ≤ Float64.round (Float64.round (m * y) * o) ∧
        Float64.round (Float64.round (m * y) * o) ≤ 100 := by
  obtain ⟨n, e, hn, hn', he, he', hxn, rfl⟩ := hx.exists_pred hy hpos hlt
  obtain ⟨a, r, r', ha, ha', hr, hrr', hr', hround, hround'⟩ := Float64.exists_factor hn hn'
  obtain ⟨c, b, t, hc, hc', hb, ht, ht', hbelow, habove, hbound⟩ :=
    Float64.exists_threshold hr hrr' hr'
  -- half of the exponent goes into either factor
  obtain ⟨i, hi⟩ : ∃ i : ℤ, i = -((e + 105) / 2) := ⟨_, rfl⟩
  have hm : (0 : ℚ) < a * 2 ^ i := by positivity
  have ho : (0 : ℚ) < c * 2 ^ (-t - i - e) := by positivity
  have hfirst : ∀ k : Nat, Float64.round (a * 2 ^ i * (k * 2 ^ e)) =
      Float64.ofNat (a * k) * 2 ^ (i + e) := by
    intro k
    rw [mul_mul_mul_comm, ← zpow_add₀ two_ne_zero, ← Nat.cast_mul,
      Float64.round_natCast_mul_zpow _ (by omega)]
  have hsecond : ∀ k : Nat, Float64.round (k * 2 ^ (i + e) * (c * 2 ^ (-t - i - e))) =
      Float64.ofNat (k * c) / 2 ^ t := by
    intro k
    rw [mul_mul_mul_comm, ← zpow_add₀ two_ne_zero, show i + e + (-t - i - e) =
      -t by
        ring, ← Nat.cast_mul, Float64.round_natCast_mul_zpow _ (by omega), zpow_neg, zpow_natCast,
        div_eq_mul_inv]
  have hy₁ : Float64.round (a * 2 ^ i * ((n + 1) * 2 ^ e)) = (r' * 2 ^ 52 : Nat) * 2 ^ (i + e) := by
    rw [← hround', ← hfirst (n + 1), Nat.cast_succ]
  have hy₂ := hsecond (r' * 2 ^ 52)
  have hx₁ : Float64.round (a * 2 ^ i * x) ≤ (r * 2 ^ 52 : Nat) * 2 ^ (i + e) := by
    rw [← hround, ← hfirst n]
    exact Float64.round_mono (mul_le_mul_of_nonneg_left hxn hm.le)
  have hx₂ := Float64.round_mono (mul_le_mul_of_nonneg_right hx₁ ho.le)
  rw [hsecond] at hx₂
  -- `x` is not further from zero than `y`
  have hlow₁ : -Float64.round (a * 2 ^ i * ((n + 1) * 2 ^ e)) ≤ Float64.round (a * 2 ^ i * x) := by
    rw [← Float64.round_neg, ← mul_neg]
    exact Float64.round_mono (mul_le_mul_of_nonneg_left habs hm.le)
  have hlow₂ := Float64.round_mono (mul_le_mul_of_nonneg_right hlow₁ ho.le)
  rw [neg_mul, Float64.round_neg, hy₁, hy₂] at hlow₂
  have hpow : (0 : ℚ) < 2 ^ t := by positivity
  have hbound' : (Float64.ofNat (r' * 2 ^ 52 * c) : ℚ) / 2 ^ t ≤ 100 :=
    (div_le_iff₀ hpow).mpr (mod_cast hbound)
  have hhigh : ((r' * 2 ^ 52 : Nat) : ℚ) * 2 ^ (i + e) < 2 ^ 1024 := by
    calc ((r' * 2 ^ 52 : Nat) : ℚ) * 2 ^ (i + e) ≤ (2 ^ 105 : Nat) * 2 ^ (500 : ℤ) := by
          gcongr
          · omega
          · exact one_le_two
          · omega
      _ = 2 ^ (605 : ℤ) := by
        rw [Nat.cast_pow, Nat.cast_ofNat, ← zpow_natCast, ← zpow_add₀ two_ne_zero]
        rfl
      _ < 2 ^ 1024 := by
        rw [← zpow_natCast]
        exact zpow_lt_zpow_right₀ one_lt_two (by decide)
  rw [hy₁] at hlow₁
  have hle : (r * 2 ^ 52 : Nat) * (2 : ℚ) ^ (i + e) ≤ (r' * 2 ^ 52 : Nat) * 2 ^ (i + e) := by gcongr
  refine ⟨a * 2 ^ i, c * 2 ^ (-t - i - e), b, isFloat64_mul_zpow ha' (by omega) (by omega),
    isFloat64_mul_zpow hc' (by omega) (by omega), hm, ho, mod_cast hb, ?_, ?_, ?_, ?_, ?_, ?_⟩
  · exact abs_lt.mpr ⟨(neg_lt_neg hhigh).trans_le hlow₁, (hx₁.trans hle).trans_lt hhigh⟩
  · rw [hy₁, abs_of_nonneg (mul_nonneg (Nat.cast_nonneg _) (zpow_nonneg zero_le_two _))]
    exact hhigh
  · linarith
  · refine hx₂.trans_lt ((div_lt_iff₀ hpow).mpr ?_)
    exact_mod_cast hbelow
  · rw [hy₁, hy₂]
    refine (le_div_iff₀ hpow).mpr ?_
    exact_mod_cast habove
  · rw [hy₁, hy₂]
    exact hbound'
