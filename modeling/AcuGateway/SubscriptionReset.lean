/-
Free resets and period boundaries.

The history of a subscription records every automatic reset and every
administrative one.  `Justified` says of a history that each automatic reset
came with a period boundary since the reset before it.

* `Scheduled` — what `LastResetTime` and `NextResetTime` keep: the stored next
  reset, or the one the next call would compute when none is stored, is a
  boundary after the latest reset;
* `scheduled_change` — every change keeps it, an administrative advance if it
  finds a boundary before the end of the subscription (`AdvanceLands`);
* `resets_justified` — hence at most one free reset for each boundary;
* `reset_without_boundary` — an advance in the last period clears both times,
  and the next pre-consume starts over from `StartTime`.
-/
import AcuGateway.SubscriptionRun
import AcuGateway.SubscriptionSchedule

open World Run

/-- The time of the latest automatic reset, or administrative one with advance. -/
def lastReset (start : Int) : List SubEvent → Int
  | [] => start
  | .reset _ time :: _ => time
  | .adminReset _ time true :: _ => time
  | _ :: h => lastReset start h

/-- The time that custom periods are counted from. -/
def anchorOf (start : Int) : List SubEvent → Int
  | [] => start
  | .adminReset _ time true :: _ => time
  | _ :: h => anchorOf start h

/-- Every automatic reset came with a boundary since the reset before it. -/
def Justified (zone : Int) (plan : SubscriptionPlan) (start : Int) : List SubEvent → Prop
  | [] => True
  | .reset _ now :: h =>
    (∃ t, lastReset start h < t ∧ t ≤ now ∧ IsBoundary zone plan (anchorOf start h) t) ∧
      Justified zone plan start h
  | _ :: h => Justified zone plan start h

/-- Every automatic reset of every subscription came with a boundary. -/
def ResetsJustified (zone : Int) (σ : Store) : Prop :=
  ∀ sub ∈ σ.subs.rows, ∀ plan ∈ σ.plans.find? sub.planId,
    Justified zone plan sub.startTime (about sub.id σ.log)

/-- An administrative advance finds a boundary before the end of each of its
subscriptions, or the subscription has none at all. -/
def AdvanceLands (zone : Int) (σ : Store) (op : SubOp) : Prop :=
  op.advances = some true → ∀ sub ∈ σ.subs.rows, op.targets sub = true →
    isLive op.time sub = true →
      ∀ plan ∈ σ.plans.find? sub.planId, 0 < calcNextResetTime zone op.time plan sub.endTime ∨
        calcNextResetTime zone sub.startTime plan sub.endTime ≤ 0
deriving Decidable

/-- The schedule of an active row: the next reset is a boundary after `last`. -/
structure OnSchedule (zone : Int) (plan : SubscriptionPlan) (anchor last : Int)
    (sub : UserSubscription) : Prop where
  stored : 0 < sub.nextResetTime →
    last < sub.nextResetTime ∧ IsBoundary zone plan anchor sub.nextResetTime
  computed : 0 < calcNextResetTime zone (resetBase sub) plan sub.endTime →
    IsBoundary zone plan anchor (calcNextResetTime zone (resetBase sub) plan sub.endTime)
  unstored : sub.nextResetTime ≤ 0 → 0 < calcNextResetTime zone (resetBase sub) plan sub.endTime →
      last < calcNextResetTime zone (resetBase sub) plan sub.endTime

/-- What holds of a row, with its history, at time `clock`. -/
structure Scheduled (zone : Int) (plans : Table SubscriptionPlan.id) (clock : Int)
    (s : RowState) : Prop where
  start_le : s.row.startTime ≤ lastReset s.row.startTime s.history
  last_le : lastReset s.row.startTime s.history ≤ clock
  justified : ∀ plan ∈ plans.find? s.row.planId, Justified zone plan s.row.startTime s.history
  schedule : s.row.status = .active → ∀ plan ∈ plans.find? s.row.planId,
    OnSchedule zone plan (anchorOf s.row.startTime s.history)
      (lastReset s.row.startTime s.history) s.row

variable {zone anchor last : Int} {plan : SubscriptionPlan} {sub : UserSubscription}

section Schedule

variable {now : Int} {sub' : UserSubscription}

/-- A row whose base is `base` and whose next reset was computed from it. -/
theorem onSchedule_of_base {base : Int} (hfits : CustomFits plan)
    (hbase : base = anchor ∨ IsBoundary zone plan anchor base) (hres : resetBase sub = base)
    (hnext : sub.nextResetTime = calcNextResetTime zone base plan sub.endTime)
    (hlast : 0 < sub.nextResetTime → last < sub.nextResetTime) :
    OnSchedule zone plan anchor last sub := by
  have hbound : 0 < calcNextResetTime zone base plan sub.endTime →
      IsBoundary zone plan anchor (calcNextResetTime zone base plan sub.endTime) :=
    fun h => isBoundary_followingBoundary hfits hbase (followingBoundary_of_pos h)
  refine ⟨fun h => ⟨hlast h, ?_⟩, ?_, ?_⟩
  · rw [hnext] at h ⊢
    exact hbound h
  · rw [hres]
    exact hbound
  · rw [hres, ← hnext]
    omega

section

variable (hs : OnSchedule zone plan anchor last sub)

include hs

/-- A due reset comes with a boundary. -/
theorem boundary_of_reset
    (hout : maybeResetUserSubscriptionWithPlanTx zone sub plan now = .reset sub') :
    ∃ t, last < t ∧ t ≤ now ∧ IsBoundary zone plan anchor t := by
  obtain ⟨hguard, hpos, hdue, -⟩ := maybeReset_reset hout
  -- a stored reset time is the boundary itself; otherwise the computed one is
  by_cases hstored : 0 < sub.nextResetTime
  · obtain ⟨hlt, hbound⟩ := hs.stored hstored
    exact ⟨_, hlt, by omega, hbound⟩
  · exact ⟨_, hs.unstored (not_lt.mp hstored) hpos, hdue, hs.computed hpos⟩

/-- After a reset the row is on schedule again, with the reset as the latest. -/
theorem onSchedule_reset (hfits : CustomFits plan)
    (hout : maybeResetUserSubscriptionWithPlanTx zone sub plan now = .reset sub') :
    OnSchedule zone plan anchor now sub' := by
  obtain ⟨-, hpos, hdue, base', next', hcatch, rfl⟩ := maybeReset_reset hout
  obtain ⟨⟨hbase', -, hbound⟩, hnext', hstop⟩ :=
    catchUp_due hfits hpos hdue (hs.computed hpos) hcatch
  refine onSchedule_of_base hfits (.inr hbound) (if_neg (not_le.mpr hbase')) hnext' ?_
  intro h
  by_contra hle
  exact hstop ⟨h, not_lt.mp hle⟩

/-- Noting the computed schedule keeps the row on it. -/
theorem onSchedule_scheduled
    (hout : maybeResetUserSubscriptionWithPlanTx zone sub plan now = .scheduled sub') :
    OnSchedule zone plan anchor last sub' := by
  obtain ⟨hzero, hpos, -, rfl⟩ := maybeReset_scheduled hout
  have hbase : resetBase { sub with
      nextResetTime := calcNextResetTime zone (resetBase sub) plan sub.endTime
      lastResetTime := resetBase sub } = resetBase sub := by
    unfold resetBase
    dsimp only
    split_ifs <;> omega
  have hlt := hs.unstored (le_of_eq hzero) hpos
  refine ⟨fun _ => ⟨hlt, hs.computed hpos⟩, ?_, ?_⟩
  · rw [hbase]
    exact hs.computed
  · intro h
    exact absurd h (not_le.mpr hpos)

end

/-- An advance that finds a boundary, or a row that has none, is on schedule. -/
theorem onSchedule_advance (hfits : CustomFits plan) (hnow : 0 < now)
    (hlands : 0 < calcNextResetTime zone now plan sub.endTime ∨
      calcNextResetTime zone sub.startTime plan sub.endTime ≤ 0) :
    OnSchedule zone plan now now (resetUserSubscriptionTx zone sub plan now true) := by
  by_cases hnext : 0 < calcNextResetTime zone now plan sub.endTime
  · have hrow : resetUserSubscriptionTx zone sub plan now true =
        { sub with
          amountUsed := 0
          nextResetTime := calcNextResetTime zone now plan sub.endTime
          lastResetTime := now } := by
      simp [resetUserSubscriptionTx, hnext]
    rw [hrow]
    exact onSchedule_of_base hfits (.inl rfl) (if_neg (not_le.mpr hnow)) rfl
      fun h => lt_calcNextResetTime hfits h
  · -- both times are cleared: the next call computes from the start again
    have hrow : resetUserSubscriptionTx zone sub plan now true =
        { sub with
          amountUsed := 0
          nextResetTime := calcNextResetTime zone now plan sub.endTime
          lastResetTime := 0 } := by
      simp [resetUserSubscriptionTx, hnext]
    have hstart := hlands.resolve_left hnext
    rw [hrow]
    refine ⟨fun h => absurd h hnext, fun h => ?_, fun _ h => ?_⟩
    · exact absurd h (not_lt.mpr hstart)
    · exact absurd h (not_lt.mpr hstart)

/-- A new row is on schedule. -/
theorem onSchedule_new (hfits : CustomFits plan) (userId : Int) (source group : String)
    (start endUnix id : Int) :
    OnSchedule zone plan start start
      (newSubscription zone userId plan source group start endUnix id) := by
  refine onSchedule_of_base hfits (.inl rfl) ?_ rfl fun h => lt_calcNextResetTime hfits h
  unfold resetBase newSubscription
  dsimp only
  split_ifs <;> omega

end Schedule

section Step

variable {clock : Int} {σ : Store} {op : SubOp} {a b : RowState}

/-- A change of other columns, noted by an entry that is not a reset. -/
theorem Scheduled.frame {plans : Table SubscriptionPlan.id} (ha : Scheduled zone plans clock a)
    (hstart : b.row.startTime = a.row.startTime) (hplan : b.row.planId = a.row.planId)
    (hlast : lastReset a.row.startTime b.history = lastReset a.row.startTime a.history)
    (hanchor : anchorOf a.row.startTime b.history = anchorOf a.row.startTime a.history)
    (hjust : ∀ plan, Justified zone plan a.row.startTime a.history →
      Justified zone plan a.row.startTime b.history)
    (hsched : ∀ plan anchor last, b.row.status = .active → a.row.status = .active ∧
      (OnSchedule zone plan anchor last a.row → OnSchedule zone plan anchor last b.row)) :
    Scheduled zone plans clock b := by
  refine ⟨?_, ?_, ?_, ?_⟩
  · rw [hstart, hlast]
    exact ha.start_le
  · rw [hstart, hlast]
    exact ha.last_le
  · rw [hstart, hplan]
    exact fun plan hp => hjust plan (ha.justified plan hp)
  · rw [hstart, hplan, hlast, hanchor]
    intro hactive plan hp
    obtain ⟨hactive', himp⟩ := hsched plan _ _ hactive
    exact himp (ha.schedule hactive' plan hp)

/-- The schedule does not depend on the used amount. -/
theorem onSchedule_used {used : Int} (h : OnSchedule zone plan anchor last sub) :
    OnSchedule zone plan anchor last { sub with amountUsed := used } :=
  ⟨h.stored, h.computed, h.unstored⟩

variable (hfits : ∀ plan ∈ σ.plans.rows, CustomFits plan)

include hfits

/-- **One change**, by a call at a positive time. -/
theorem scheduled_change (hnow : 0 < op.time)
    (hlands : AdvanceLands zone σ op) (ha : Scheduled zone σ.plans op.time a)
    (hc : Change zone σ op a b) : Scheduled zone σ.plans op.time b := by
  cases hc with
  | scheduled _ hactive hplan hout =>
    obtain ⟨-, -, -, rfl⟩ := maybeReset_scheduled hout
    refine ⟨ha.start_le, ha.last_le, ha.justified, fun _ p hp => ?_⟩
    obtain rfl := Option.some.inj (hplan.symm.trans hp)
    exact onSchedule_scheduled (ha.schedule hactive _ hplan) hout
  | @reset _ h sub plan sub' _ hactive hplan hout =>
    have hsched := ha.schedule hactive plan hplan
    have hsched' := onSchedule_reset hsched (hfits plan (Table.mem_of_find? hplan)) hout
    -- the boundary lies between the last reset and now
    have hbound := boundary_of_reset hsched hout
    have hstart : sub.startTime ≤ op.time := le_trans ha.start_le ha.last_le
    have hjust := ha.justified plan hplan
    obtain ⟨-, -, -, base', next', -, rfl⟩ := maybeReset_reset hout
    refine ⟨hstart, le_refl _, fun p hp => ?_, fun _ p hp => ?_⟩
    · obtain rfl := Option.some.inj (hplan.symm.trans hp)
      exact ⟨hbound, hjust⟩
    · obtain rfl := Option.some.inj (hplan.symm.trans hp)
      exact hsched'
  | consumed =>
    exact ha.frame rfl rfl rfl rfl (fun _ h => h) fun _ _ _ hactive => ⟨hactive, onSchedule_used⟩
  | adjusted _ hdelta =>
    obtain ⟨-, rfl⟩ := applyDelta_eq hdelta
    exact ha.frame rfl rfl rfl rfl (fun _ h => h) fun _ _ _ hactive => ⟨hactive, onSchedule_used⟩
  | refunded _ _ _ _ _ hdelta =>
    obtain ⟨-, rfl⟩ := applyDelta_eq hdelta
    exact ha.frame rfl rfl rfl rfl (fun _ h => h) fun _ _ _ hactive => ⟨hactive, onSchedule_used⟩
  | @adminReset _ h sub plan advance hop hsub htarget hlive hplan =>
    cases advance with
    | false =>
      exact ha.frame rfl rfl rfl rfl (fun _ h => h) fun _ _ _ hactive =>
        ⟨hactive, onSchedule_used⟩
    | true =>
      -- an advance starts the count of boundaries again at its own time
      have hland := hlands hop sub (Table.mem_of_find? hsub) htarget hlive plan hplan
      refine ⟨le_trans ha.start_le ha.last_le, le_refl _, ha.justified, fun _ p hp => ?_⟩
      obtain rfl := Option.some.inj (hplan.symm.trans hp)
      exact onSchedule_advance (hfits plan (Table.mem_of_find? hplan)) hnow hland
  | expired =>
    exact ha.frame rfl rfl rfl rfl (fun _ h => h) fun _ _ _ hactive => by cases hactive
  | cancelled =>
    exact ha.frame rfl rfl rfl rfl (fun _ h => h) fun _ _ _ hactive => by cases hactive

theorem scheduled_created
    {x : UserSubscription} (hx : Created zone σ op x) : Scheduled zone σ.plans op.time ⟨[], x⟩ := by
  obtain ⟨userId, planId, source, now, plan, endUnix, rfl, hplan, -, rfl⟩ := hx
  have hid := Table.key_of_find? hplan
  refine ⟨le_refl _, le_refl _, fun _ _ => trivial, fun _ p hp => ?_⟩
  have hp : σ.plans.find? plan.id = some p := hp
  rw [hid, hplan] at hp
  obtain rfl := Option.some.inj hp
  exact onSchedule_new (hfits plan (Table.mem_of_find? hplan)) ..

end Step

/-! ### Runs -/

/-- **At most one free reset for each boundary**, in every state that a run
reaches whose administrative advances land before the end of the
subscriptions. -/
theorem resets_justified (zone : Int) (w : World) (hw : w.Fresh) (hclock : 0 < w.clock)
    (hfits : ∀ plan ∈ w.store.plans.rows, CustomFits plan) (ops : List SubOp)
    (hops : Along (fun w op => w.InOrder op ∧ AdvanceLands zone w.store op) (step zone) w ops) :
    ResetsJustified zone (exec (step zone) w ops).store := by
  -- every row is scheduled as its plan says, and the clock runs
  let Inv : World → Prop := fun w => w.Rows (Scheduled zone w.store.plans) ∧ 0 < w.clock ∧
    ∀ plan ∈ w.store.plans.rows, CustomFits plan
  have hstep : ∀ (w : World) (op : SubOp), Inv w →
      w.InOrder op ∧ AdvanceLands zone w.store op → Inv (w.step zone op) := by
    rintro w op ⟨hrows, hclock, hfits⟩ ⟨horder, hlands⟩
    have hnow : 0 < op.time := lt_of_lt_of_le hclock horder
    refine ⟨?_, hnow, ?_⟩
    · rw [step_plans]
      refine rows_step (fun s hs => ?_) (fun x hx => scheduled_created hfits hx)
        (fun a b ha hc => scheduled_change hfits hnow hlands ha hc) hrows
      exact ⟨hs.start_le, le_trans hs.last_le horder, hs.justified, hs.schedule⟩
    · rw [step_plans]
      exact hfits
  have hinv := exec_invariant_along hstep ⟨rows_of_fresh hw, hclock, hfits⟩ hops
  exact fun sub hsub => (hinv.1.rows sub hsub).justified

/-- A plan for two days, reset every day. -/
def twoDays : Table SubscriptionPlan.id :=
  Table.empty.insert
    (fun id => { id, durationUnit := .day, durationValue := 2, totalAmount := 50,
                 quotaResetPeriod := "daily" }) fun _ => rfl

/-- Bought at noon; an administrator resets it on the last morning, with advance;
it is used one hour later. -/
def lastMorning : List SubOp :=
  [.create 1 1 "order" 43200, .adminResetPlan 1 194400 true, .preConsume "a" 1 5 198000]

theorem resets_justified_first_day :
    ResetsJustified 0 (exec (step 0) (World.opening "default" twoDays)
      [.create 1 1 "order" 43200, .adminResetPlan 1 50000 true, .preConsume "a" 1 5 90000]).store :=
  resets_justified 0 _ (fresh_opening ..) (by decide) (by decide) _ (by decide +kernel)

/-- The pre-consume sets the used amount to 0 again, without a midnight between
the two resets. -/
theorem reset_without_boundary :
    Along InOrder (step 0) (World.opening "default" twoDays) lastMorning ∧
      ¬ ResetsJustified 0 (exec (step 0) (World.opening "default" twoDays) lastMorning).store := by
  refine ⟨by decide +kernel, fun h => ?_⟩
  have hrow : (exec (step 0) (World.opening "default" twoDays)
      lastMorning).store.subs.rows.map (fun sub => (sub.id, sub.planId, sub.startTime)) =
        [(1, 1, 43200)] := by decide +kernel
  have hplan : ((exec (step 0) (World.opening "default" twoDays)
      lastMorning).store.plans.find? 1).map
        (fun plan => normalizeResetPeriod plan.quotaResetPeriod) = some .daily := by
    decide +kernel
  have hlog : about 1 (exec (step 0) (World.opening "default" twoDays)
      lastMorning).store.log =
        [.consumed 1 "a" 5, .reset 1 198000, .adminReset 1 194400 true] := by decide +kernel
  obtain ⟨sub, hsub, hvals⟩ := List.mem_map.mp (hrow ▸ List.mem_singleton_self _)
  obtain ⟨plan, hfind, hdaily⟩ := Option.map_eq_some_iff.mp hplan
  simp only [Prod.mk.injEq] at hvals
  obtain ⟨hid, hplanId, hstart⟩ := hvals
  have hjust := h sub hsub plan (by rw [hplanId]; exact hfind)
  rw [hid, hlog] at hjust
  -- there is no midnight between the two resets of one day
  obtain ⟨⟨t, hlt, hle, hbound⟩, -⟩ := hjust
  unfold IsBoundary at hbound
  rw [hdaily] at hbound
  obtain ⟨n, rfl⟩ := hbound
  simp only [lastReset, midnight] at hlt hle
  omega
