/-
Subscription plans, subscriptions and their reset schedule.

The rows of `model/subscription.go` and the functions on single rows:

* `calcPlanEndTime` — the end of a subscription that starts now;
* `calcNextResetTime` — the next period boundary after a base time, `0` when
  the plan has none or when it lies after the end of the subscription;
* `maybeResetUserSubscriptionWithPlanTx` — the catch-up loop that sets
  `AmountUsed` to 0 when a boundary has passed.

Times are Unix seconds, local time is a fixed offset `zone` away, and a Go
duration is a 64-bit count of nanoseconds, so that a product that overflows
wraps (`wrap64`).
-/
import AcuGateway.Lib.Word
import AcuGateway.Lib.Text
import AcuGateway.Lib.Calendar
import AcuGateway.Store

open Calendar
open Text (trimSpace)

/-- The unit a plan's duration is counted in; any other text is an error. -/
inductive DurationUnit
  | year
  | month
  | day
  | hour
  | custom
  | other (text : String)
deriving DecidableEq

/-- The quota reset period of a plan. -/
inductive ResetPeriod
  | never
  | daily
  | weekly
  | monthly
  | custom
deriving DecidableEq

/-- A plan row.  Amounts are 64-bit words. -/
structure SubscriptionPlan where
  id : Int
  title : String := ""
  durationUnit : DurationUnit
  durationValue : Int
  customSeconds : Int := 0
  allowWalletOverflow : Option Bool := none
  maxPurchasePerUser : Int := 0
  upgradeGroup : String := ""
  downgradeGroup : String := ""
  totalAmount : Int
  quotaResetPeriod : String := "never"
  quotaResetCustomSeconds : Int := 0
  totalAmount_isInt64 : IsInt64 totalAmount := by decide

inductive SubscriptionStatus
  | active
  | expired
  | cancelled
deriving DecidableEq

/-- A subscription of a user: a snapshot of its plan and its usage. -/
structure UserSubscription where
  id : Int
  userId : Int
  planId : Int
  amountTotal : Int
  amountUsed : Int
  startTime : Int
  endTime : Int
  status : SubscriptionStatus
  source : String
  lastResetTime : Int
  nextResetTime : Int
  upgradeGroup : String
  prevUserGroup : String
  downgradeGroup : String
  allowWalletOverflow : Bool
deriving DecidableEq

/-! ### Times and durations -/

/-- Nanoseconds in a second. -/
def nanos : Int := 1000000000

/-- `t.Add(d)` for a time `t` on a whole second, back in whole seconds. -/
def addDuration (t ns : Int) : Int := t + wrap64 ns / nanos

/-- The local day number of time `t`. -/
def localDay (zone t : Int) : Int := (t + zone) / 86400

/-- The time of local midnight of day `n`. -/
def midnight (zone n : Int) : Int := n * 86400 - zone

/-- `t.AddDate(0, months, 0)`: the same day of the month and time of day,
`months` months later; a day past the end of that month runs into the next. -/
def addMonths (zone t months : Int) : Int :=
  let day := localDay zone t
  let month := monthOf day
  midnight zone (monthStart (month + months) + (day - monthStart month))
    + (t + zone) % 86400

/-- When a subscription to `plan` that starts at `start` ends. -/
def calcPlanEndTime (zone start : Int) (plan : SubscriptionPlan) : Except String Int :=
  if plan.durationValue ≤ 0 ∧ plan.durationUnit ≠ .custom then
    .error "duration_value must be > 0"
  else
    match plan.durationUnit with
    -- years and months follow the local calendar, the other units are durations
    | .year => .ok (addMonths zone start (12 * plan.durationValue))
    | .month => .ok (addMonths zone start plan.durationValue)
    | .day => .ok (addDuration start (plan.durationValue * 24 * 3600 * nanos))
    | .hour => .ok (addDuration start (plan.durationValue * 3600 * nanos))
    | .custom =>
      if plan.customSeconds ≤ 0 then .error "custom_seconds must be > 0"
      else .ok (addDuration start (plan.customSeconds * nanos))
    | .other text => .error ("invalid duration_unit: " ++ text)

@[irreducible] def normalizeResetPeriod (period : String) : ResetPeriod :=
  let p := trimSpace period
  if p = "daily" then .daily
  else if p = "weekly" then .weekly
  else if p = "monthly" then .monthly
  else if p = "custom" then .custom
  else .never

/-- The boundary that follows `base`, before the cut-off at the end of the
subscription; `none` for a plan without boundaries. -/
def followingBoundary (zone base : Int) (plan : SubscriptionPlan) : Option Int :=
  let day := localDay zone base
  match normalizeResetPeriod plan.quotaResetPeriod with
  | .never => none
  | .daily => some (midnight zone (day + 1))
  | .weekly =>
    -- Monday is 1 and Sunday is 7, so that the next Monday is `8 - weekday` days away
    let weekday := if Calendar.weekday day = 0 then 7 else Calendar.weekday day
    some (midnight zone (day + (8 - weekday)))
  | .monthly => some (midnight zone (monthStart (monthOf day + 1)))
  | .custom =>
    if plan.quotaResetCustomSeconds ≤ 0 then none
    else some (addDuration base (plan.quotaResetCustomSeconds * nanos))

/-- The next period boundary after `base`, `0` if there is none or if it lies
after `endUnix`. -/
def calcNextResetTime (zone base : Int) (plan : SubscriptionPlan) (endUnix : Int) : Int :=
  match followingBoundary zone base plan with
  | none => 0
  | some next => if 0 < endUnix ∧ next > endUnix then 0 else next

/-! ### The catch-up loop -/

/-- The loop of `maybeResetUserSubscriptionWithPlanTx`: move on from boundary to
boundary while they have passed.  `none` is a loop that did not end within
`fuel` rounds. -/
def catchUp (zone : Int) (plan : SubscriptionPlan) (endUnix now : Int) :
    Nat → Int → Int → Option (Int × Int)
  | 0, base, next => if 0 < next ∧ next ≤ now then none else some (base, next)
  | fuel + 1, base, next =>
    if 0 < next ∧ next ≤ now then
      catchUp zone plan endUnix now fuel next (calcNextResetTime zone next plan endUnix)
    else some (base, next)

/-- What a call of `maybeResetUserSubscriptionWithPlanTx` does to the row it is
given: nothing, save a new schedule, save a reset row, or never return. -/
inductive ResetOutcome
  | kept
  | scheduled (sub : UserSubscription)
  | reset (sub : UserSubscription)
  | diverges
deriving DecidableEq

/-- The base time of the catch-up loop. -/
def resetBase (sub : UserSubscription) : Int :=
  if sub.lastResetTime ≤ 0 then sub.startTime else sub.lastResetTime

/-- The loop passes through boundaries in `[1, now]` only, and through each at
most once unless it stands still, so `now + 1` rounds decide whether it ends. -/
def maybeResetUserSubscriptionWithPlanTx (zone : Int) (sub : UserSubscription)
    (plan : SubscriptionPlan) (now : Int) : ResetOutcome :=
  if 0 < sub.nextResetTime ∧ sub.nextResetTime > now then .kept
  else if normalizeResetPeriod plan.quotaResetPeriod = .never then .kept
  else
    let base := resetBase sub
    let next := calcNextResetTime zone base plan sub.endTime
    -- the stored `nextResetTime` only opens the way here; whether a reset is due is computed
    -- again from the base
    if 0 < next ∧ next ≤ now then
      match catchUp zone plan sub.endTime now (now.toNat + 1) base next with
      | none => .diverges
      | some (base', next') =>
        .reset { sub with amountUsed := 0, lastResetTime := base', nextResetTime := next' }
    -- a row without a schedule gets the computed one, and no reset
    else if sub.nextResetTime = 0 ∧ 0 < next then
      .scheduled { sub with nextResetTime := next, lastResetTime := base }
    else .kept

/-! ### What a call can do to its row -/

section Outcome

variable {zone now : Int} {sub sub' : UserSubscription} {plan : SubscriptionPlan}

theorem maybeReset_scheduled
    (h : maybeResetUserSubscriptionWithPlanTx zone sub plan now = .scheduled sub') :
    sub.nextResetTime = 0 ∧ 0 < calcNextResetTime zone (resetBase sub) plan sub.endTime ∧
      now < calcNextResetTime zone (resetBase sub) plan sub.endTime ∧
      sub' = { sub with
        nextResetTime := calcNextResetTime zone (resetBase sub) plan sub.endTime
        lastResetTime := resetBase sub } := by
  unfold maybeResetUserSubscriptionWithPlanTx at h
  dsimp only at h
  split_ifs at h with _ _ hdue hnew
  · split at h <;> cases h
  · obtain ⟨hzero, hpos⟩ := hnew
    injection h with h
    exact ⟨hzero, hpos, not_le.mp fun hle => hdue ⟨hpos, hle⟩, h.symm⟩

theorem maybeReset_reset
    (h : maybeResetUserSubscriptionWithPlanTx zone sub plan now = .reset sub') :
    ¬ (0 < sub.nextResetTime ∧ sub.nextResetTime > now) ∧
      0 < calcNextResetTime zone (resetBase sub) plan sub.endTime ∧
      calcNextResetTime zone (resetBase sub) plan sub.endTime ≤ now ∧
      ∃ base' next', catchUp zone plan sub.endTime now (now.toNat + 1) (resetBase sub)
          (calcNextResetTime zone (resetBase sub) plan sub.endTime) = some (base', next') ∧
        sub' = { sub with amountUsed := 0, lastResetTime := base', nextResetTime := next' } := by
  unfold maybeResetUserSubscriptionWithPlanTx at h
  dsimp only at h
  split_ifs at h with hkept _ hdue
  · split at h
    · cases h
    · rename_i base' next' hc
      injection h with h
      exact ⟨hkept, hdue.1, hdue.2, base', next', hc, h.symm⟩

end Outcome
