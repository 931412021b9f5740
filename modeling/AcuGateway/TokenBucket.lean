/-
The token bucket that limits all requests of a user.

The script `rate_limit.lua` fills the bucket by the time that has passed and takes the tokens of a
request out of it.  The handler gives it the capacity `N * D`, the rate `N` and `D` tokens for a
request. The product is a 64-bit word, and the numbers of Lua are floats.

* `Metered.Balanced` — the tokens and the allowed requests of any stretch of time account for each
  other, kept by every call;
* `total_rate_bounded` — up to `2^53`, the tokens stay within the capacity, every interval has at
  most its share of allowed requests, and no request is refused without need;
* `bucket_rounded` — beyond, tokens are made up and requests refused.
-/
import AcuGateway.Lib.Float64
import AcuGateway.Lib.Run
import AcuGateway.Lib.Word
import Mathlib.Algebra.Order.Ring.Int
import Mathlib.Tactic.Ring

open Run

structure Bucket where
  tokens : Int
  lastTime : Int

namespace RedisLimiter

/-- The tokens that a call finds. -/
def available (rate capacity : Int) (bucket : Option Bucket) (now : Int) : Int :=
  match bucket with
  | none => float64 capacity
  | some bucket =>
    let elapsed := float64 (float64 now - bucket.lastTime)
    let addTokens := float64 (elapsed * float64 rate)
    min (float64 capacity) (float64 (bucket.tokens + addTokens))

/-- `rate_limit.lua`: the bucket after the call, and the answer. -/
def allow (requested rate capacity : Int) (bucket : Option Bucket) (now : Int) : Bucket × Bool :=
  let tokens := available rate capacity bucket now
  if tokens ≥ float64 requested then (⟨float64 (tokens - float64 requested), float64 now⟩, true)
  else (⟨tokens, float64 now⟩, false)

end RedisLimiter

open RedisLimiter

/-- The bucket of a user with the times of the requests that were allowed. -/
structure Metered where
  bucket : Option Bucket := none
  allowed : List Int := []
  now : Int

namespace Metered

variable {N D : Int} {s : Metered} {now : Int}

/-- The call of `redisRateLimitHandler` at the time `now`. -/
def step (N D : Int) (s : Metered) (now : Int) : Metered :=
  let (bucket, allowed) := allow D N (wrap64 (N * D)) s.bucket now
  { bucket, now, allowed := if allowed then now :: s.allowed else s.allowed }

/-- Time does not go back, and its seconds are floats. -/
def Orderly (s : Metered) (now : Int) : Prop := s.now ≤ now ∧ now ≤ 2 ^ 53

/-- The requests that were allowed from `first` on. -/
def since (s : Metered) (first : Int) : Nat := s.allowed.countP (first ≤ ·)

/-- The requests that were allowed from `first` to `last`. -/
def between (s : Metered) (first last : Int) : Nat :=
  s.allowed.countP fun time => first ≤ time ∧ time ≤ last

/-- What the bucket holds at the last call; before the first one it is full. -/
def tokens (N D : Int) (s : Metered) : Int := (s.bucket.map (·.tokens)).getD (N * D)

/-- What a call finds there, in exact numbers. -/
def found (N D : Int) (s : Metered) (now : Int) : Int :=
  min (N * D) (s.tokens N D + N * (now - s.now))

/-- Nothing is refused while a request's tokens are there, or fewer than `N` requests were allowed
in the last `D` seconds. -/
def RefusedForNeed (N D : Int) (s : Metered) (now : Int) : Prop :=
  (allow D N (wrap64 (N * D)) s.bucket now).2 = false →
    available N (wrap64 (N * D)) s.bucket now < D ∧ N ≤ s.since (now - D + 1)

/-- From `first` on the bucket has got at most the capacity and the rate's share, and has lost none
of the rate's share below the capacity. -/
structure Balanced (N D : Int) (s : Metered) : Prop where
  positive : 0 ≤ s.now
  last : ∀ bucket ∈ s.bucket, bucket.lastTime = s.now
  past : ∀ time ∈ s.allowed, time ≤ s.now
  range : 0 ≤ s.tokens N D ∧ s.tokens N D ≤ N * D
  most : ∀ first ≤ s.now, s.since first * D + s.tokens N D ≤ N * D + N * (s.now - first)
  least : ∀ first ≤ s.now, min (N * D) (N * (s.now - first)) ≤
    s.tokens N D + s.since (first + 1) * D
  interval : ∀ first last, first ≤ last → s.between first last * D ≤ N * D + N * (last - first)

theorem between_le_since (first last : Int) : s.between first last ≤ s.since first := by
  refine List.countP_mono_left fun time _ ht => ?_
  simp only [decide_eq_true_eq] at ht ⊢
  exact ht.1

theorem since_eq_zero (h : ∀ time ∈ s.allowed, time ≤ s.now) {first : Int}
    (hfirst : s.now < first) :
    s.since first = 0 := by
  refine List.countP_eq_zero.mpr fun time ht => ?_
  have := h time ht
  simp only [decide_eq_true_eq]
  omega

/-! ### The numbers of Lua -/

/-- Under a capacity that is a float, rounding is not seen. -/
theorem min_float64 {capacity x : Int} (hcapacity : capacity ≤ 2 ^ 53) (hx : 0 ≤ x) :
    min capacity (float64 x) = min capacity x := by
  rcases le_or_gt x (2 ^ 53) with hsmall | hlarge
  · rw [float64_eq_self hx hsmall]
  · have hround : float64 (2 ^ 53) ≤ float64 x := float64_mono hlarge.le
    rw [float64_eq_self (by decide) le_rfl] at hround
    omega

section

variable (hN : 1 ≤ N) (hD : 1 ≤ D) (hND : N * D ≤ 2 ^ 53)

include hN hD hND

/-- The arguments of the script are exact. -/
theorem exact_arguments : float64 (wrap64 (N * D)) = N * D ∧ float64 N = N ∧ float64 D = D := by
  have hN' : N ≤ N * D := le_mul_of_one_le_right (by omega) hD
  have hD' : D ≤ N * D := le_mul_of_one_le_left (by omega) hN
  have hword : wrap64 (N * D) = N * D := wrap64_eq_self ⟨by omega, by omega⟩
  rw [hword]
  exact ⟨float64_eq_self (by omega) hND, float64_eq_self (by omega) (by omega),
    float64_eq_self (by omega) (by omega)⟩

theorem Balanced.available_eq (h : s.Balanced N D) (hnow : s.Orderly now) :
    available N (wrap64 (N * D)) s.bucket now = found N D s now := by
  unfold found
  obtain ⟨hcapacity, hrate, -⟩ := exact_arguments hN hD hND
  obtain ⟨hle, hfloat⟩ := hnow
  have hpositive := h.positive
  have hgained : 0 ≤ (now - s.now) * N := mul_nonneg (by omega) (by omega)
  cases hbucket : s.bucket with
  | none =>
    simp only [available, tokens, hbucket, Option.map_none, Option.getD_none, hcapacity]
    rw [mul_comm N (now - s.now)]
    omega
  -- what is regained and the sum are exact up to the capacity
  | some bucket =>
    have hlast := h.last bucket hbucket
    have hrange := h.range
    simp only [tokens, hbucket, Option.map_some, Option.getD_some] at hrange ⊢
    have hround := float64_nonneg hgained
    have hadd := min_float64 hND hgained
    simp only [available, hcapacity, hrate, hlast, float64_eq_self (hpositive.trans hle) hfloat,
      float64_eq_self (Int.sub_nonneg.mpr hle) (show now - s.now ≤ 2 ^ 53 by omega)]
    rw [min_float64 hND (by omega), mul_comm N (now - s.now)]
    omega

/-- The call in exact numbers. -/
theorem Balanced.allow_eq (h : s.Balanced N D) (hnow : s.Orderly now) :
    allow D N (wrap64 (N * D)) s.bucket now = if D ≤ found N D s now then
      (⟨found N D s now - D, now⟩, true)
      else (⟨found N D s now, now⟩, false) := by
  obtain ⟨-, -, hrequested⟩ := exact_arguments hN hD hND
  have htime : float64 now = now := float64_eq_self (h.positive.trans hnow.1) hnow.2
  have hle : found N D s now ≤ N * D := min_le_left _ _
  rw [allow, h.available_eq hN hD hND hnow, hrequested, htime]
  split_ifs with henough
  · rw [float64_eq_self (Int.sub_nonneg.mpr henough) (by omega)]
  · rfl

/-- The call adds `used` requests to the list and takes their tokens. -/
theorem Balanced.step_eq (h : s.Balanced N D) (hnow : s.Orderly now) : ∃ used : Nat,
    (step N D s now).bucket = some ⟨found N D s now - used * D, now⟩ ∧
      (step N D s now).allowed = List.replicate used now ++ s.allowed ∧ (step N D s now).now = now ∧
      (0 ≤ found N D s now → 0 ≤ found N D s now - used * D) := by
  rw [step, h.allow_eq hN hD hND hnow]
  by_cases henough : D ≤ found N D s now
  · exact ⟨1, by simp [henough], by simp [henough], rfl, fun _ => by omega⟩
  · exact ⟨0, by simp [henough], by simp [henough], rfl, fun _ => by omega⟩

end

section

variable (hN : 1 ≤ N) (hD : 1 ≤ D)

section

variable {s' : Metered} {used : Nat} (h : s.Balanced N D) (hnow : s.now ≤ s'.now)
  (hallowed : s'.allowed = List.replicate used s'.now ++ s.allowed)

include hallowed

theorem since_step {first : Int} (hfirst : first ≤ s'.now) :
    s'.since first * D = used * D + s.since first * D := by
  simp [since, hallowed, List.countP_replicate, hfirst, add_mul]

include h

theorem Balanced.past_step (hnow : s.now ≤ s'.now) : ∀ time ∈ s'.allowed, time ≤ s'.now := by
  rw [hallowed, List.forall_mem_append]
  exact ⟨fun time ht => (List.eq_of_mem_replicate ht).le,
    fun time ht => (h.past time ht).trans hnow⟩

variable (htokens : s'.tokens N D = min (N * D) (s.tokens N D + N * (s'.now - s.now)) - used * D)

include hN htokens

theorem Balanced.most_step (first : Int) (hfirst : first ≤ s'.now) :
    s'.since first * D + s'.tokens N D ≤ N * D + N * (s'.now - first) := by
  rw [since_step hallowed hfirst, htokens]
  rcases le_or_gt first s.now with hold | hnew
  · have := h.most first hold
    have hshare : N * (s'.now - first) = N * (s'.now - s.now) + N * (s.now - first) := by ring
    omega
  · have hpos : 0 ≤ N * (s'.now - first) := mul_nonneg (by omega) (by omega)
    rw [since_eq_zero h.past hnew]
    omega

variable (h0 : 0 ≤ s'.tokens N D)

include hD hnow h0

theorem Balanced.least_step (first : Int) (hfirst : first ≤ s'.now) :
    min (N * D) (N * (s'.now - first)) ≤ s'.tokens N D + s'.since (first + 1) * D := by
  have hpos (s : Metered) : 0 ≤ s.since (first + 1) * D :=
    mul_nonneg (Int.natCast_nonneg _) (by omega)
  rcases hfirst.lt_or_eq with hlt | rfl
  · have hlow := h.range.1
    have := hpos s
    have hgain : 0 ≤ N * (s'.now - s.now) := mul_nonneg (by omega) (by omega)
    have hshare : N * (s'.now - first) = N * (s'.now - s.now) + N * (s.now - first) := by ring
    rw [since_step hallowed hlt, htokens]
    rcases le_or_gt first s.now with hold | hnew
    · have := h.least first hold
      omega
    · have : N * (s.now - first) ≤ 0 := mul_nonpos_of_nonneg_of_nonpos (by omega) (by omega)
      omega
  · rw [sub_self]
    have := hpos s'
    omega

theorem Balanced.interval_step (first last : Int) (hle : first ≤ last) :
    s'.between first last * D ≤ N * D + N * (last - first) := by
  -- a call after the interval is not counted
  rcases lt_or_ge last s'.now with hbefore | hafter
  · have hsame : s'.between first last = s.between first last := by
      simp [between, hallowed, List.countP_replicate, hbefore]
    rw [hsame]
    exact h.interval first last hle
  -- those in the interval are among those since its start
  have hfew : s'.between first last * D ≤ s'.since first * D :=
    mul_le_mul_of_nonneg_right (mod_cast between_le_since first last) (by omega)
  have hpos : 0 ≤ N * (last - s'.now) := mul_nonneg (by omega) (by omega)
  have hsplit : N * (last - first) = N * (last - s'.now) + N * (s'.now - first) := by ring
  rcases le_or_gt first s'.now with hin | hout
  · have := h.most_step hN hallowed htokens first hin
    omega
  · have hND : 0 ≤ N * D := mul_nonneg (by omega) (by omega)
    have : 0 ≤ N * (last - first) := mul_nonneg (by omega) (by omega)
    rw [since_eq_zero (h.past_step hallowed hnow) hout] at hfew
    omega

end

include hN hD

variable (hND : N * D ≤ 2 ^ 53)

include hND

theorem Balanced.step (s : Metered) (now : Int) (h : s.Balanced N D) (hnow : s.Orderly now) :
    (step N D s now).Balanced N D := by
  obtain ⟨used, hbucket, hallowed, hnow', hleft⟩ := h.step_eq hN hD hND hnow
  replace hnow : s.now ≤ now := hnow.1
  unfold found at hbucket hleft
  generalize Metered.step N D s now = s' at *
  subst hnow'
  have htokens : s'.tokens N D = min (N * D) (s.tokens N D + N * (s'.now - s.now)) - used * D := by
    simp [tokens, hbucket]
  obtain ⟨hlow, hhigh⟩ := h.range
  have hgain : 0 ≤ N * (s'.now - s.now) := mul_nonneg (by omega) (sub_nonneg.mpr hnow)
  have hused : 0 ≤ used * D := mul_nonneg (Int.natCast_nonneg used) (by omega)
  have hrange : 0 ≤ s'.tokens N D ∧ s'.tokens N D ≤ N * D := by omega
  exact ⟨h.positive.trans hnow, by simp [hbucket], h.past_step hallowed hnow, hrange,
    h.most_step hN hallowed htokens, h.least_step hN hD hnow hallowed htokens hrange.1,
    h.interval_step hN hD hnow hallowed htokens hrange.1⟩

theorem Balanced.refused (s : Metered) (now : Int) (h : s.Balanced N D) (hnow : s.Orderly now) :
    s.RefusedForNeed N D now := by
  intro hrefused
  rw [h.allow_eq hN hD hND hnow] at hrefused
  have hshort : ¬ D ≤ found N D s now := by
    intro henough
    simp [henough] at hrefused
  -- the bucket after the call has what was there, and no request more
  have hleast := (h.step hN hD hND s now hnow).least (now - D) (by simp only [Metered.step]; omega)
  simp only [Metered.step, h.allow_eq hN hD hND hnow, if_neg hshort, tokens, since, Option.map_some,
    Option.getD_some, sub_sub_cancel, min_self, Bool.false_eq_true, if_false] at hleast
  have hall : N * D < (s.since (now - D + 1) + 1) * D := by
    rw [add_mul, one_mul, since]
    omega
  have := lt_of_mul_lt_mul_right hall (by omega)
  rw [h.available_eq hN hD hND hnow]
  exact ⟨by omega, by omega⟩

end

/-- **The bucket limits the total rate**, as long as the capacity is a float. -/
theorem total_rate_bounded (hN : 1 ≤ N) (hD : 1 ≤ D) (hND : N * D ≤ 2 ^ 53) (start : Int)
    (hfirst : 0 ≤ start) (calls : List Int)
    (hcalls : Along Orderly (Metered.step N D) { now := start } calls) :
    (∀ bucket ∈ (exec (Metered.step N D) { now := start } calls).bucket,
        0 ≤ bucket.tokens ∧ bucket.tokens ≤ N * D) ∧
      (∀ first T, 0 ≤ T →
        (exec (Metered.step N D) { now := start } calls).between first (first + T) * D ≤
          N * D + N * T) ∧
      Along (RefusedForNeed N D) (Metered.step N D) { now := start } calls := by
  have hstart : Balanced N D { now := start } := by
    have hND : 0 ≤ N * D := mul_nonneg (by omega) (by omega)
    have hshare : ∀ first last, first ≤ last → 0 ≤ N * (last - first) :=
      fun first last hle => mul_nonneg (by omega) (by omega)
    refine ⟨hfirst,
      by simp, by simp, ⟨hND, le_rfl⟩, fun first hfirst => ?_, by simp [since, tokens],
      fun first last hle => ?_⟩
    · simpa [since, tokens] using hshare first start hfirst
    · simpa [between] using add_nonneg hND (hshare first last hle)
  have hend := exec_invariant_along (Balanced.step hN hD hND) hstart hcalls
  refine ⟨fun bucket hbucket => ?_, fun first T hT => ?_,
    along_of_invariant (Balanced.step hN hD hND) (Balanced.refused hN hD hND) hstart hcalls⟩
  · have hrange := hend.range
    rwa [tokens, hbucket] at hrange
  · have hinterval := hend.interval first (first + T) (by omega)
    rwa [add_sub_cancel_left] at hinterval

theorem total_rate_bounded_three : Along Orderly (Metered.step 2 3) { now := 0 } [0, 0, 1] ∧
      (exec (Metered.step 2 3) { now := 0 } [0, 0, 1]).between 0 (0 + 1) * 3 ≤
        (2 * 3 + 2 * 1 : Int) := by
  have hcalls : Along Orderly (Metered.step 2 3) { now := 0 } [0, 0, 1] := by
    refine ⟨⟨le_rfl, by decide⟩, ⟨le_rfl, by decide⟩, ⟨zero_le_one, by decide⟩, trivial⟩
  exact ⟨hcalls, (total_rate_bounded (by decide) (by decide) (by decide) 0 le_rfl _ hcalls).2.1 0 1
    zero_le_one⟩

/-- A capacity above `2^53` may be rounded up, so that the first call leaves more tokens than it;
one above the words is negative, and the first call is refused; and a second after `2^53` is not
counted. -/
theorem bucket_rounded :
    (exec (Metered.step (2 ^ 53 + 3) 1) { now := 0 } [0]).bucket.map (·.tokens) =
      some (2 ^ 53 + 4) ∧ (allow 2 (2 ^ 62) (wrap64 (2 ^ 62 * 2)) none 0).2 = false ∧
      (let s := exec (Metered.step 1 1) { now := 2 ^ 53 } [2 ^ 53]
      (allow 1 1 (wrap64 (1 * 1)) s.bucket (2 ^ 53 + 1)).2 = false ∧
        s.since (2 ^ 53 + 1 - 1 + 1) = 0) := by
  decide +kernel

end Metered
