/-
Refunds and settlements against the usage of other requests.

The history of a subscription says which requests are charged in the current
period and how much (`charges`): a pre-consume opens a charge, a settlement
moves it, a refund and a reset end it.  `AmountUsed` is a bare counter, and a
refund or a negative settlement lowers it whether or not the request it belongs
to is charged in the current period.

* `covered_change` — a change keeps the counter above the sum of the charges
  when what it gives back was charged in this period (`Attributable`);
* `usage_covered` — the same for every run;
* `refund_after_reset` — a refund that crosses a reset takes away what another
  request has used.
-/
import AcuGateway.Lib.Account
import AcuGateway.SubscriptionLedger

open World Run
open Account (charge total)

/-- The requests that are charged in the current period, with their amounts. -/
def charges : List SubEvent → List (String × Int)
  | [] => []
  | .reset .. :: _ => []
  | .adminReset .. :: _ => []
  | .consumed _ request amount :: h => (request, amount) :: charges h
  | .adjusted _ request delta :: h => Account.adjust request delta (charges h)
  | .refunded _ request _ :: h => Account.remove request (charges h)

/-- `AmountUsed` of every subscription is at least the sum of what the requests
of the current period are charged. -/
def UsageCovered (σ : Store) : Prop :=
  ∀ sub ∈ σ.subs.rows, total (charges (about sub.id σ.log)) ≤ sub.amountUsed

/-- The call gives back only what was charged in the current period, and does
not leave the range of a word. -/
def Attributable (zone : Int) (σ : Store) : SubOp → Prop
  | .adjust sub request delta _ =>
    IsInt64 delta ∧ ∀ row ∈ σ.subs.find? sub,
      (delta < 0 → (charge request (charges (about sub σ.log))).isSome) ∧
        row.amountUsed + delta < 9223372036854775808
  | .refund request _ =>
    ∀ record ∈ σ.findRecord request, record.status ≠ .refunded → 0 < record.preConsumed →
      IsInt64 record.preConsumed ∧
        ∃ amount ∈ charge request (charges (about record.userSubscriptionId σ.log)),
          record.preConsumed ≤ amount
  | .preConsume _ userId amount now =>
    ∀ sub ∈ candidates σ userId now, ∀ plan ∈ σ.plans.find? sub.planId, sub.amountTotal ≤ 0 →
        (afterReset zone now plan sub).amountUsed + amount < 9223372036854775808
  | _ => True

instance Attributable.decidable (zone : Int) (σ : Store) : DecidablePred (Attributable zone σ) :=
  fun _ => by
  unfold Attributable; split <;> infer_instance

/-- The part of the invariant that concerns one row. -/
structure Covered (s : RowState) : Prop where
  bound : RowBound s.row
  nonneg : 0 ≤ s.row.amountUsed
  word : s.row.amountUsed < 9223372036854775808
  covered : total (charges s.history) ≤ s.row.amountUsed

variable {zone : Int} {σ : Store} {op : SubOp}

section Covered

variable {a b : RowState} {sub : UserSubscription} {h : List SubEvent}

/-- A settlement or refund within the range of a word, which moves the charges
by at most as much as the counter. -/
theorem covered_applyDelta {sub' : UserSubscription} {delta : Int} {h' : List SubEvent}
    (hs : Covered ⟨h, sub⟩) (happly : applyDelta sub delta = .ok sub')
    (hlow : -9223372036854775808 ≤ delta)
    (hhigh : sub.amountUsed + delta < 9223372036854775808)
    (hcharges : total (charges h') ≤ max (sub.amountUsed + delta) 0) : Covered ⟨h', sub'⟩ := by
  have hbound := rowBound_applyDelta hs.bound happly
  have hnonneg := hs.nonneg
  obtain ⟨-, rfl⟩ := applyDelta_eq happly
  have hused : wrap64 (sub.amountUsed + delta) = sub.amountUsed + delta :=
    wrap64_eq_self ⟨by dsimp only at hnonneg; omega, hhigh⟩
  rw [hused] at hbound ⊢
  exact ⟨hbound, le_max_right .., max_lt hhigh (by decide), hcharges⟩

/-- A row that has just been reset. -/
theorem covered_reset (hb : RowBound sub)
    (hused : sub.amountUsed = 0) (hcharges : charges h = []) : Covered ⟨h, sub⟩ := by
  refine ⟨hb, ?_, ?_, ?_⟩
  · exact le_of_eq hused.symm
  · show sub.amountUsed < _
    rw [hused]
    decide
  · show total (charges h) ≤ sub.amountUsed
    rw [hcharges, hused]
    exact le_refl 0

/-- The sum that a charge leaves is not wrapped. -/
theorem charge_word {stored : UserSubscription} {plan : SubscriptionPlan} {request : String}
    {userId amount now : Int} (hop : Attributable zone σ (.preConsume request userId amount now))
    (hmem : stored ∈ candidates σ userId now)
    (hplan : σ.plans.find? stored.planId = some plan)
    (hsub : sub = afterReset zone now plan stored) (hb : RowBound sub)
    (hnonneg : 0 ≤ sub.amountUsed) (hpos : 0 < amount)
    (hroom : ¬ (0 < sub.amountTotal ∧ wrap64 (sub.amountTotal - sub.amountUsed) < amount)) :
    wrap64 (sub.amountUsed + amount) = sub.amountUsed + amount := by
  rcases lt_or_ge 0 sub.amountTotal with hlimited | hunlimited
  · exact (wrap64_charge hb hlimited hpos hroom).1
  · have hfits := hop stored hmem plan hplan (by rwa [hsub, afterReset_amountTotal] at hunlimited)
    rw [← hsub] at hfits
    exact wrap64_eq_self ⟨by omega, hfits⟩

/-- **One change**, by a call that gives back only what was charged. -/
theorem covered_change (hop : Attributable zone σ op) (ha : Covered a) (hc : Change zone σ op a b) :
    Covered b := by
  have hbound := rowBound_change ha.bound hc
  cases hc with
  | scheduled _ _ _ hout =>
    obtain ⟨-, -, -, rfl⟩ := maybeReset_scheduled hout
    exact ⟨hbound, ha.nonneg, ha.word, ha.covered⟩
  | reset _ _ _ hout =>
    obtain ⟨-, -, -, _, _, -, rfl⟩ := maybeReset_reset hout
    exact covered_reset hbound rfl rfl
  | consumed _ hpos hstored huser hlive hplan hsub hroom =>
    have hmem := mem_candidates.mpr ⟨Table.mem_of_find? hstored, huser, hlive⟩
    -- the counter and the charges move by the same amount
    have hword := charge_word hop hmem hplan hsub ha.bound ha.nonneg hpos hroom
    have hnonneg := ha.nonneg
    have hcovered := ha.covered
    refine ⟨hbound, ?_, (isInt64_wrap64 _).2, ?_⟩
    · show 0 ≤ wrap64 _
      dsimp only at hnonneg
      omega
    · show total (charges (_ :: _)) ≤ wrap64 _
      rw [hword, charges, Account.total_cons]
      dsimp only at hcovered ⊢
      omega
  | @adjusted request delta now sub sub' hsub hdelta =>
    obtain ⟨hword, hrow⟩ := hop
    obtain ⟨hlive, hhigh⟩ := hrow sub hsub
    refine covered_applyDelta ha hdelta hword.1 hhigh ?_
    have hcovered := ha.covered
    rw [charges, Account.total_adjust]
    dsimp only at hcovered
    by_cases hcharged : (charge request (charges (about sub.id σ.log))).isSome
    · rw [if_pos hcharged]
      omega
    · -- nothing is given back on behalf of a request of another period
      have : ¬ delta < 0 := fun h => hcharged (hlive h)
      rw [if_neg hcharged]
      omega
  | @refunded request now record sub sub' hsub hrecord hopen hpos hid hdelta =>
    -- the charge that the record stands for is one of this period, and no smaller
    obtain ⟨hword, amount, hcharge, hle⟩ := hop record hrecord hopen hpos
    have hcovered := ha.covered
    have hused := ha.word
    dsimp only at hcovered hused
    refine covered_applyDelta ha hdelta (by have := hword.2; omega) (by omega) ?_
    rw [charges, Account.total_remove, ← hid, Option.mem_def.mp hcharge, Option.getD_some, hid]
    omega
  | @adminReset _ _ _ _ advance => cases advance <;> exact covered_reset hbound rfl rfl
  | expired => exact ⟨hbound, ha.nonneg, ha.word, ha.covered⟩
  | cancelled => exact ⟨hbound, ha.nonneg, ha.word, ha.covered⟩

end Covered

theorem covered_created {x : UserSubscription} (hx : Created zone σ op x) : Covered ⟨[], x⟩ := by
  refine covered_reset (rowBound_created hx) ?_ rfl
  obtain ⟨_, _, _, _, _, _, -, -, -, rfl⟩ := hx
  rfl

/-- **Usage is covered.**  In a run whose calls give back only what was charged in
the current period, `AmountUsed` is at least the sum of the charges in every
state that is reached. -/
theorem usage_covered (zone : Int) (w : World) (hw : w.Fresh) (ops : List SubOp)
    (hops : Along (fun w op => Attributable zone w.store op) (step zone) w ops) :
    UsageCovered (exec (step zone) w ops).store := by
  have hstep : ∀ (w : World) (op : SubOp), (w.Rows fun _ s => Covered s) →
      Attributable zone w.store op → (w.step zone op).Rows fun _ s => Covered s :=
    fun w op hrows hop => rows_step (fun _ h => h) (fun _ hx => covered_created hx)
      (fun _ _ ha hc => covered_change hop ha hc) hrows
  have hrows := exec_invariant_along hstep (rows_of_fresh hw) hops
  exact fun sub hsub => (hrows.rows sub hsub).covered

/-- A plan of a hundred units for ten days, reset every day. -/
def hundredDaily : Table SubscriptionPlan.id :=
  Table.empty.insert
    (fun id => { id, durationUnit := .day, durationValue := 10, totalAmount := 100,
                 quotaResetPeriod := "daily" }) fun _ => rfl

/-- Request `a` is charged on the first day, and request `b` on the second day,
after the reset. -/
def acrossReset : List SubOp :=
  [.create 1 1 "order" 1000, .preConsume "a" 1 10 2000, .preConsume "b" 1 5 90000]

theorem usage_covered_acrossReset : Along (fun w op => Attributable 0 w.store op) (step 0)
        (World.opening "default" hundredDaily) acrossReset ∧
      UsageCovered (exec (step 0) (World.opening "default" hundredDaily)
        acrossReset).store :=
  have hops : Along (fun w op => Attributable 0 w.store op) (step 0)
      (World.opening "default" hundredDaily) acrossReset := by decide +kernel
  ⟨hops, usage_covered 0 _ (fresh_opening ..) _ hops⟩

/-- The refund of `a` takes away what `b` has used. -/
theorem refund_after_reset : ¬ UsageCovered (exec (step 0) (World.opening "default" hundredDaily)
      (acrossReset ++ [.refund "a" 91000])).store := by
  intro h
  have hrow : (exec (step 0) (World.opening "default" hundredDaily)
      (acrossReset ++ [.refund "a" 91000])).store.subs.rows.map
        (fun sub => (sub.id, sub.amountUsed)) = [(1, 0)] := by decide +kernel
  have hcharged : total (charges (about 1 (exec (step 0) (World.opening "default" hundredDaily)
      (acrossReset ++ [.refund "a" 91000])).store.log)) = 5 := by decide +kernel
  obtain ⟨sub, hsub, hvals⟩ := List.mem_map.mp (hrow ▸ List.mem_singleton_self (1, (0 : Int)))
  obtain ⟨hid, hused⟩ := Prod.mk.inj hvals
  have hcovered := h sub hsub
  rw [hid, hcharged, hused] at hcovered
  omega
