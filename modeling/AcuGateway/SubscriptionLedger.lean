/-
The ledger of a subscription stays within its total.

* `ledgerBound_step` — no call takes `AmountUsed` of a limited subscription out
  of `[0, AmountTotal]`;
* `adjust_refused_iff`, `preConsume_refused_iff` — when a call that would
  exceed the total is refused;
* `ledger_bounded` — both in every state that a run reaches.

A settlement adds its delta in 64-bit arithmetic: a delta that takes the sum
past `2^63` wraps to a negative number, is clamped to 0 and passes the check
against the total (`settlement_past_word`).
-/
import AcuGateway.SubscriptionRun
import AcuGateway.SubscriptionSchedule

open World Run
open Text (trimSpace)

/-- `AmountUsed` of every limited subscription lies between 0 and its total. -/
def LedgerBound (σ : Store) : Prop :=
  ∀ sub ∈ σ.subs.rows, 0 < sub.amountTotal → 0 ≤ sub.amountUsed ∧ sub.amountUsed ≤ sub.amountTotal

/-! ### Calls that would exceed a total -/

/-- The call would take every subscription it may charge above its total. -/
def Exceeds (zone : Int) (σ : Store) : SubOp → Prop
  | .adjust sub _ delta _ =>
    ∃ row, σ.subs.find? sub = some row ∧ 0 < row.amountTotal ∧
      row.amountTotal < row.amountUsed + delta
  | .preConsume request userId amount now =>
    0 < userId ∧ trimSpace request ≠ "" ∧ 0 < amount ∧ σ.findRecord request = none ∧
      ∀ sub ∈ candidates σ userId now,
      0 < sub.amountTotal ∧ ∀ plan, σ.plans.find? sub.planId = some plan →
        sub.amountTotal < (afterReset zone now plan sub).amountUsed + amount
  | _ => False

/-- The call returns an error and changes nothing. -/
def Refused (zone : Int) (σ : Store) (op : SubOp) : Prop := ∃ e, op.outcome zone σ = (σ, .failed e)

/-- The reset loops of the candidates return, up to a candidate whose plan
cannot be read. -/
def ResetsReturn (zone : Int) (σ : Store) (now : Int) : List UserSubscription → Prop
  | [] => True
  | sub :: rest =>
    match getSubscriptionPlanByIdTx σ sub.planId with
    | .error _ => True
    | .ok plan =>
      maybeResetUserSubscriptionWithPlanTx zone sub plan now ≠ .diverges ∧
        ResetsReturn zone σ now rest

/-- The call stays within 64-bit arithmetic: a settlement does not take the sum
past a word, and the reset loops of a pre-consume return. -/
def InRange (zone : Int) (σ : Store) : SubOp → Prop
  | .adjust sub _ delta _ =>
    ∀ row, σ.subs.find? sub = some row → 0 < row.amountTotal →
      row.amountUsed + delta < 9223372036854775808
  | .preConsume _ userId _ now => ResetsReturn zone σ now (candidates σ userId now)
  | _ => True

/-- The integer argument of the call is a 64-bit word. -/
def WellTyped : SubOp → Prop
  | .adjust _ _ delta _ => IsInt64 delta
  | .preConsume _ _ amount _ => IsInt64 amount
  | _ => True

/-! ### The bound -/

/-- The part of the bound that concerns one row. -/
def RowBound (sub : UserSubscription) : Prop :=
  IsInt64 sub.amountTotal ∧
    (0 < sub.amountTotal → 0 ≤ sub.amountUsed ∧ sub.amountUsed ≤ sub.amountTotal)

variable {zone delta : Int} {sub : UserSubscription}

section RowBound

variable {sub' : UserSubscription} {amount : Int}

variable (hb : RowBound sub)

include hb

/-- What is left of a limited subscription does not wrap. -/
theorem wrap64_left (hlimited : 0 < sub.amountTotal) :
    wrap64 (sub.amountTotal - sub.amountUsed) = sub.amountTotal - sub.amountUsed := by
  obtain ⟨⟨-, htotal⟩, hbound⟩ := hb
  obtain ⟨hnonneg, hle⟩ := hbound hlimited
  exact wrap64_eq_self ⟨by omega, by omega⟩

/-- A charge that the room check lets through neither wraps nor exceeds. -/
theorem wrap64_charge (hlimited : 0 < sub.amountTotal) (hpos : 0 < amount)
    (hroom : ¬ (0 < sub.amountTotal ∧ wrap64 (sub.amountTotal - sub.amountUsed) < amount)) :
    wrap64 (sub.amountUsed + amount) = sub.amountUsed + amount ∧
      sub.amountUsed + amount ≤ sub.amountTotal := by
  rw [wrap64_left hb hlimited] at hroom
  obtain ⟨⟨-, htotal⟩, hbound⟩ := hb
  obtain ⟨hnonneg, -⟩ := hbound hlimited
  exact ⟨wrap64_eq_self ⟨by omega, by omega⟩, by omega⟩

theorem rowBound_applyDelta (happly : applyDelta sub delta = .ok sub') : RowBound sub' := by
  obtain ⟨hle, rfl⟩ := applyDelta_eq happly
  exact ⟨hb.1, fun hpos => ⟨le_max_right .., hle hpos⟩⟩

theorem rowBound_zero (htotal : sub'.amountTotal = sub.amountTotal)
    (hused : sub'.amountUsed = 0) : RowBound sub' := by
  rw [RowBound, htotal, hused]
  exact ⟨hb.1, fun hpos => ⟨le_refl 0, le_of_lt hpos⟩⟩

end RowBound

variable {now : Int} {σ : Store} {op : SubOp}

theorem rowBound_change {a b : RowState} (ha : RowBound a.row) (hc : Change zone σ op a b) :
    RowBound b.row := by
  cases hc with
  | scheduled _ _ _ hout =>
    obtain ⟨-, -, -, rfl⟩ := maybeReset_scheduled hout
    exact ha
  | reset _ _ _ hout =>
    obtain ⟨-, -, -, _, _, -, rfl⟩ := maybeReset_reset hout
    exact rowBound_zero ha rfl rfl
  | consumed _ hpos _ _ _ _ _ hroom =>
    refine ⟨ha.1, fun hlimited => ?_⟩
    -- there was room, so the sum does not wrap around
    obtain ⟨hsum, hle⟩ := wrap64_charge ha hlimited hpos hroom
    dsimp only at hlimited ⊢
    rw [hsum]
    exact ⟨Int.add_nonneg (ha.2 hlimited).1 (le_of_lt hpos), hle⟩
  | adjusted _ hdelta => exact rowBound_applyDelta ha hdelta
  | refunded _ _ _ _ _ hdelta => exact rowBound_applyDelta ha hdelta
  | @adminReset _ _ _ _ advance => cases advance <;> exact rowBound_zero ha rfl rfl
  | expired => exact ha
  | cancelled => exact ha

theorem rowBound_created {x : UserSubscription} (hx : Created zone σ op x) : RowBound x := by
  obtain ⟨_, _, _, _, plan, _, -, -, -, rfl⟩ := hx
  exact ⟨plan.totalAmount_isInt64, fun hpos => ⟨le_refl 0, le_of_lt hpos⟩⟩

/-- Every call keeps the bound. -/
theorem ledgerBound_step (zone : Int) (w : World) (op : SubOp)
    (hw : w.Rows fun _ s => RowBound s.row) :
    (w.step zone op).Rows fun _ s => RowBound s.row :=
  rows_step (fun _ h => h) (fun _ hx => rowBound_created hx)
    (fun _ _ ha hc => rowBound_change ha hc) hw

/-! ### Refusals -/

/-- A settlement above the total is refused exactly when the sum is a word. -/
theorem adjust_refused_iff {sub : Int} {request : String}
    {row : UserSubscription} (hrow : σ.subs.find? sub = some row) (hb : RowBound row)
    (hlimited : 0 < row.amountTotal) (hdelta : IsInt64 delta)
    (hexceeds : row.amountTotal < row.amountUsed + delta) :
    Refused zone σ (.adjust sub request delta now) ↔
      row.amountUsed + delta < 9223372036854775808 := by
  obtain ⟨hnonneg, hle⟩ := hb.2 hlimited
  have hne : delta ≠ 0 := by omega
  constructor
  · rintro ⟨e, he⟩
    by_contra hword
    -- the sum wraps to a negative number and the row is saved with 0
    have hmax : max (wrap64 (row.amountUsed + delta)) 0 = 0 := by
      have hdelta' := hdelta.2
      have htotal := hb.1.2
      rw [wrap64_of_overflow (not_lt.mp hword) (by omega)]
      omega
    have happly := @applyDelta_ok row delta (by rw [hmax]; exact le_of_lt)
    simp [SubOp.outcome, postConsumeUserSubscriptionDelta_ok hne hrow happly, ofTx] at he
  · intro hword
    have hmax : max (wrap64 (row.amountUsed + delta)) 0 = row.amountUsed + delta := by
      rw [wrap64_eq_self ⟨by omega, hword⟩]
      omega
    obtain ⟨e, happly⟩ := applyDelta_error hlimited (hmax ▸ hexceeds)
    exact ⟨e, congrArg (ofTx σ) (postConsumeUserSubscriptionDelta_error hne hrow happly)⟩

theorem rowBound_afterReset (hb : RowBound sub) (zone now : Int)
    (plan : SubscriptionPlan) : RowBound (afterReset zone now plan sub) := by
  obtain ⟨_, _, _, rfl | rfl, h⟩ := afterReset_eq zone now plan sub
  · rw [h]
    exact hb
  · rw [h]
    exact rowBound_zero hb rfl rfl

variable {userId : Int}

/-- A pre-consume that has no room in any of `l` ends with an error, unless a
reset loop does not return. -/
theorem preConsumeFrom_exceeds {amount : Int} {request : String} {σ₀ σ : Store}
    {l : List UserSubscription} (hplans : σ.plans = σ₀.plans)
    (hl : ∀ sub ∈ l, RowBound sub ∧ 0 < sub.amountTotal ∧
      ∀ plan, σ₀.plans.find? sub.planId = some plan →
        sub.amountTotal < (afterReset zone now plan sub).amountUsed + amount) :
    (∃ e, preConsumeFrom zone now request userId amount none l σ = .rollback e) ∧
      ResetsReturn zone σ₀ now l ∨
      preConsumeFrom zone now request userId amount none l σ = .diverge ∧
        ¬ ResetsReturn zone σ₀ now l := by
  induction l generalizing σ with
  | nil => exact .inl ⟨⟨_, rfl⟩, trivial⟩
  | cons sub rest ih =>
    obtain ⟨⟨hb, hlimited, hexceeds⟩, hrest⟩ := List.forall_mem_cons.mp hl
    have hget : getSubscriptionPlanByIdTx σ sub.planId =
        getSubscriptionPlanByIdTx σ₀ sub.planId := by
      rw [getSubscriptionPlanByIdTx, getSubscriptionPlanByIdTx, hplans]
    unfold preConsumeFrom ResetsReturn
    rw [hget]
    rcases hplan : getSubscriptionPlanByIdTx σ₀ sub.planId with e | plan
    · exact .inl ⟨⟨e, rfl⟩, trivial⟩
    · dsimp only
      by_cases hout : maybeResetUserSubscriptionWithPlanTx zone sub plan now = .diverges
      · rw [hout]
        exact .inr ⟨rfl, fun h => h.1 rfl⟩
      · obtain ⟨subs, log, happly⟩ := applyReset_returns σ hout
        have hbound := rowBound_afterReset hb zone now plan
        have htotal := afterReset_amountTotal zone now plan sub
        have hlt := hexceeds plan (getSubscriptionPlanByIdTx_ok hplan)
        -- the room check fails on the row as it is after its reset
        have hroom : 0 < (afterReset zone now plan sub).amountTotal ∧
            wrap64 ((afterReset zone now plan sub).amountTotal -
              (afterReset zone now plan sub).amountUsed) < amount := by
          rw [wrap64_left hbound (by omega)]
          omega
        rw [happly]
        dsimp only
        rw [if_pos hroom]
        simp only [ne_eq, hout, not_false_eq_true, true_and]
        exact ih hplans hrest

theorem preConsume_refused_iff {amount : Int} {request : String}
    (hb : ∀ sub ∈ σ.subs.rows, RowBound sub)
    (hexceeds : Exceeds zone σ (.preConsume request userId amount now)) :
    Refused zone σ (.preConsume request userId amount now) ↔
      ResetsReturn zone σ now (candidates σ userId now) := by
  obtain ⟨huser, hrequest, hamount, hnew, hall⟩ := hexceeds
  have hfrom := @preConsumeFrom_exceeds zone now userId amount request σ σ _ rfl
    fun sub hsub => ⟨hb sub (mem_candidates.mp hsub).1, hall sub hsub⟩
  have houtcome : SubOp.outcome zone σ (.preConsume request userId amount now) =
      ofTx σ (preConsumeUserSubscription zone σ request userId amount now) := rfl
  rw [Refused, houtcome, preConsumeUserSubscription_new huser hrequest hamount hnew]
  by_cases hnil : candidates σ userId now = []
  · rw [if_pos hnil, hnil]
    exact ⟨fun _ => trivial, fun _ => ⟨_, rfl⟩⟩
  · rw [if_neg hnil]
    -- no candidate has room: an error, unless a reset never returns
    rcases hfrom with ⟨⟨e, he⟩, hret⟩ | ⟨hdiv, hret⟩
    · rw [he]
      exact ⟨fun _ => hret, fun _ => ⟨e, rfl⟩⟩
    · rw [hdiv]
      exact ⟨fun ⟨_, h⟩ => by simp [ofTx] at h, fun h => absurd h hret⟩

/-! ### Runs -/

/-- The state respects the totals, and so does the call that comes next. -/
def LedgerSafe (zone : Int) (σ : Store) (op : SubOp) : Prop :=
  LedgerBound σ ∧ (Exceeds zone σ op → Refused zone σ op)

/-- **The ledger bound.**  In every state that a run reaches the used amounts lie
within the totals, and the next call, if it would exceed a total, is refused
without effect exactly when it stays within 64-bit arithmetic. -/
theorem ledger_bounded (zone : Int) (w : World) (hw : w.Fresh) (ops : List SubOp) (op : SubOp)
    (hop : WellTyped op) :
    LedgerSafe zone (exec (step zone) w ops).store op ↔
      (Exceeds zone (exec (step zone) w ops).store op →
        InRange zone (exec (step zone) w ops).store op) := by
  have hrows := (exec_invariant (ledgerBound_step zone) (rows_of_fresh hw) ops).rows
  generalize (exec (step zone) w ops).store = σ at hrows
  have hbound : LedgerBound σ := fun sub hsub => (hrows sub hsub).2
  rw [LedgerSafe, and_iff_right hbound]
  refine forall_congr' fun hexceeds => ?_
  cases op with
  | adjust sub request delta now =>
    obtain ⟨row, hrow, hlimited, hlt⟩ := hexceeds
    rw [adjust_refused_iff hrow (hrows row (Table.mem_of_find? hrow)) hlimited hop hlt]
    refine ⟨fun h row' hrow' _ => ?_, fun h => h row hrow hlimited⟩
    obtain rfl : row = row' := by simpa [hrow] using hrow'
    exact h
  | preConsume => exact preConsume_refused_iff hrows hexceeds
  | _ => exact hexceeds.elim

/-- A plan of ten units for a day. -/
def tenUnits : Table SubscriptionPlan.id :=
  Table.empty.insert (fun id => { id, durationUnit := .day, durationValue := 1, totalAmount := 10 })
    fun _ => rfl

/-- Buy the plan and use five units of it. -/
def fiveUsed : List SubOp := [.create 1 1 "order" 1000, .preConsume "a" 1 5 2000]

theorem ledger_bounded_fiveUsed :
    (World.opening "default" tenUnits).Fresh ∧ WellTyped (.adjust 1 "a" 6 3000) ∧
      LedgerSafe 0 (exec (step 0) (World.opening "default" tenUnits) fiveUsed).store
        (.adjust 1 "a" 6 3000) := by
  have hword : WellTyped (.adjust 1 "a" 6 3000) := show IsInt64 6 by decide
  refine ⟨fresh_opening .., hword, ?_⟩
  refine (ledger_bounded 0 _ (fresh_opening ..) fiveUsed _ hword).mpr fun _ => ?_
  intro row hrow _
  have hused : ((exec (step 0) (World.opening "default" tenUnits) fiveUsed).store.subs.find?
      1).map UserSubscription.amountUsed = some 5 := by decide +kernel
  rw [hrow] at hused
  have : row.amountUsed = 5 := by simpa using hused
  omega

/-- The largest word, settled on top of five used units, is accepted. -/
theorem settlement_past_word :
    ¬ LedgerSafe 0 (exec (step 0) (World.opening "default" tenUnits) fiveUsed).store
      (.adjust 1 "a" 9223372036854775807 3000) := by
  rintro ⟨-, hrefused⟩
  have hdone : (SubOp.outcome 0 (exec (step 0) (World.opening "default" tenUnits) fiveUsed).store
      (.adjust 1 "a" 9223372036854775807 3000)).2 = .done := by decide +kernel
  have hrow : ((exec (step 0) (World.opening "default" tenUnits) fiveUsed).store.subs.find?
      1).map (fun row => (row.amountTotal, row.amountUsed)) = some (10, 5) := by decide +kernel
  obtain ⟨row, hfind, hvals⟩ := Option.map_eq_some_iff.mp hrow
  obtain ⟨htotal, hused⟩ := Prod.mk.inj hvals
  obtain ⟨e, he⟩ := hrefused ⟨row, hfind, by omega, by omega⟩
  rw [he] at hdone
  cases hdone

/-! ### Resets -/
