/-
Completion by hand against the completion of the provider.

* `quotaOf_run`, `quotaOf_epayNotify` — what a completion adds to the quota of
  the user of a pending order;
* `manual_adds_alike_iff` — completion by hand adds what the provider's own path
  adds for Epay and Waffo orders, for Stripe orders worth a whole amount of
  quota, and for Creem orders only when the unit does not matter;
* `creem_by_hand` — a Creem order of a dollar's quota, completed by hand.
-/
import AcuGateway.TopUp
import Mathlib.Data.Int.CharZero

namespace PayDB

theorem quotaOf_credit_self {db : PayDB} {userId : Int} {u : Payer}
    (hu : db.users.find? userId = some u) (quota : ℚ) (touch : Payer → Payer)
    (htouch : ∀ u, (touch u).id = u.id) :
    (db.credit userId quota touch htouch).quotaOf userId = db.quotaOf userId + quota := by
  rw [quotaOf_credit, hu, if_pos ⟨rfl, rfl⟩]

/-- What a call has added to the quota of a user. -/
def quotaAdded (db db' : PayDB) (userId : Int) : ℚ := db'.quotaOf userId - db.quotaOf userId

end PayDB

/-- The quota of a completion; a refused one adds nothing. -/
def credited : Except String ℚ → ℚ
  | .ok quota => quota
  | .error _ => 0

/-- A pending order of a provider, whose user exists. -/
structure PendingOrder (db : PayDB) (order : TopUp) : Prop where
  found : db.getTopUpByTradeNo order.tradeNo = some order
  trade_ne : order.tradeNo ≠ ""
  pending : order.status = .pending
  user : ∃ u, db.users.find? order.userId = some u
  provider : order.paymentProvider ≠ .unset

section Added

variable {db : PayDB} {order : TopUp} {quotaPerUnit : ℚ}

theorem quotaOf_run (h : PendingOrder db order) (path : CompletionPath)
    (hprovider : ∀ provider ∈ path.provider, order.paymentProvider = provider) (now : Int) :
    db.quotaAdded ((path.run quotaPerUnit db order.tradeNo now).after db) order.userId =
      credited (path.quota quotaPerUnit order) := by
  obtain ⟨u, hu⟩ := h.user
  have hmatch : ¬ ∃ provider ∈ path.provider, order.paymentProvider ≠ provider := by
    rintro ⟨provider, hmem, hne⟩
    exact hne (hprovider provider hmem)
  have hopen : ¬ (path.idempotent = true ∧ order.status = .success) := by
    rw [h.pending]
    exact fun hc => absurd hc.2 (by decide)
  unfold CompletionPath.run
  rw [if_neg h.trade_ne, h.found]
  dsimp only
  rw [if_neg hmatch, if_neg hopen, if_neg (not_not.mpr h.pending)]
  cases path.quota quotaPerUnit order with
  | error e => exact sub_self _
  | ok quota =>
    dsimp only
    rw [hu, if_neg fun hc => absurd hc.2 (by simp)]
    show (PayDB.credit _ order.userId quota path.touch path.touch_id).quotaOf order.userId -
      db.quotaOf order.userId = quota
    have hsaved : (db.saveTopUp { order with completeTime := now, status := .success }).users.find?
        order.userId = some u := hu
    rw [PayDB.quotaOf_credit_self hsaved]
    exact add_sub_cancel_left ..

/-- Epay adds the quota of the amount unless it is negative. -/
theorem quotaOf_epayNotify (h : PendingOrder db order) (hepay : order.paymentProvider = .epay)
    (callbackType : String) :
    db.quotaAdded (epayNotify quotaPerUnit db order.tradeNo callbackType) order.userId =
      if quotaOfAmount quotaPerUnit order.amount < 0 then 0
      else (quotaOfAmount quotaPerUnit order.amount : ℚ) := by
  obtain ⟨u, hu⟩ := h.user
  have hread : epayRead db order.tradeNo callbackType =
      some { order with paymentMethod := callbackType, status := .success } := by
    unfold epayRead
    rw [h.found]
    dsimp only
    rw [if_neg (not_not.mpr hepay), if_pos h.pending]
  unfold epayNotify
  rw [hread]
  dsimp only
  unfold epayCredit
  dsimp only
  split_ifs with hneg
  · exact sub_self _
  · have hsaved : (epaySave db { order with
        paymentMethod := callbackType, status := .success }).users.find? order.userId = some u := hu
    show (PayDB.credit _ order.userId _ id _).quotaOf order.userId - db.quotaOf order.userId = _
    rw [PayDB.quotaOf_credit_self hsaved]
    exact add_sub_cancel_left ..

/-- A whole number within a word is its own integer part. -/
theorem intPart_intCast {n : Int} (h : IsInt64 n) : intPart n = n := by
  unfold intPart
  rw [Rat.num_intCast, Rat.den_intCast, Nat.cast_one, Int.tdiv_one, wrap64_eq_self h]

theorem credited_positiveQuota (q : Int) : credited (positiveQuota q) = if q ≤ 0 then 0
    else (q : ℚ) := by
  unfold positiveQuota
  split_ifs <;> rfl

/-- Cutting off changes nothing exactly for whole amounts that are not negative. -/
theorem credited_intPart_iff (x : ℚ) : credited (positiveQuota (intPart x)) = x ↔
      ∃ n : Int, 0 ≤ n ∧ n < 9223372036854775808 ∧ x = n := by
  rw [credited_positiveQuota]
  constructor
  · intro h
    split_ifs at h with hq
    · exact ⟨0, le_rfl, by decide, by simpa using h.symm⟩
    · exact ⟨intPart x, by omega, (isInt64_wrap64 _).2, h.symm⟩
  · rintro ⟨n, hnonneg, hlt, rfl⟩
    rw [intPart_intCast ⟨by omega, hlt⟩]
    split_ifs with hq
    · obtain rfl : n = 0 := by omega
      simp
    · rfl

end Added

/-! ### By hand and by callback -/

/-- The completion that the provider of an order triggers. -/
def ownCompletion (quotaPerUnit : ℚ) (db : PayDB) (order : TopUp)
    (callbackType customerId customerEmail : String) (now : Int) : PayDB :=
  match order.paymentProvider with
  | .epay => epayNotify quotaPerUnit db order.tradeNo callbackType
  | .stripe => ((recharge customerId).run quotaPerUnit db order.tradeNo now).after db
  | .creem => ((rechargeCreem customerEmail).run quotaPerUnit db order.tradeNo now).after db
  | .waffo => (rechargeWaffo.run quotaPerUnit db order.tradeNo now).after db
  | .waffoPancake => (rechargeWaffoPancake.run quotaPerUnit db order.tradeNo now).after db
  | .unset => db

/-- The two ways to complete an order agree on its value. -/
def AddsAlike (quotaPerUnit : ℚ) (order : TopUp) : Prop :=
  match order.paymentProvider with
  | .stripe => ∃ n : Int, 0 ≤ n ∧ n < 9223372036854775808 ∧ order.money * quotaPerUnit = n
  | .creem =>
    order.amount = 0 ∨ (0 < order.amount ∧ quotaOfAmount quotaPerUnit order.amount = order.amount)
  | _ => True

theorem creem_alike_iff (quotaPerUnit : ℚ) (amount : Int) :
    credited (positiveQuota (quotaOfAmount quotaPerUnit amount)) = (amount : ℚ) ↔
      amount = 0 ∨ (0 < amount ∧ quotaOfAmount quotaPerUnit amount = amount) := by
  rw [credited_positiveQuota]
  by_cases hzero : amount = 0
  · have hquota : quotaOfAmount quotaPerUnit 0 = 0 := by
      unfold quotaOfAmount
      rw [Int.cast_zero, zero_mul]
      decide
    rw [hzero, hquota]
    simp
  · rw [or_iff_right hzero]
    split_ifs with hq
    · refine ⟨fun h => absurd (Int.cast_eq_zero.mp h.symm) hzero, fun h => ?_⟩
      omega
    · rw [Int.cast_inj]
      refine ⟨fun h => ⟨by omega, h⟩, fun h => h.2⟩

/-- **Completion by hand** adds to the quota of the user what the provider's own
path adds exactly for the orders on which the two agree about units. -/
theorem manual_adds_alike_iff (quotaPerUnit : ℚ) (db : PayDB) (order : TopUp)
    (h : PendingOrder db order) (callbackType customerId customerEmail : String)
    (now now' : Int) :
    db.quotaAdded ((manualCompleteTopUp.run quotaPerUnit db order.tradeNo now).after db)
        order.userId =
      db.quotaAdded (ownCompletion quotaPerUnit db order callbackType customerId customerEmail now')
        order.userId ↔ AddsAlike quotaPerUnit order := by
  have hown : ∀ path : CompletionPath, path.provider = some order.paymentProvider →
      db.quotaAdded ((path.run quotaPerUnit db order.tradeNo now').after db) order.userId =
        credited (path.quota quotaPerUnit order) := by
    intro path hpath
    refine quotaOf_run h path (fun provider hmem => ?_) now'
    rw [hpath] at hmem
    exact Option.some.inj hmem
  rw [quotaOf_run h manualCompleteTopUp nofun]
  unfold ownCompletion AddsAlike manualCompleteTopUp
  dsimp only
  cases hp : order.paymentProvider with
  | epay =>
    dsimp only
    -- Epay refuses negative quotas, the other way refuses 0 as well: both add nothing
    rw [quotaOf_epayNotify h hp, if_neg (by decide), credited_positiveQuota]
    refine iff_true_intro ?_
    split_ifs with hle hneg
    · rfl
    · have : quotaOfAmount quotaPerUnit order.amount = 0 := by omega
      rw [this, Int.cast_zero]
    · omega
    · rfl
  | stripe =>
    dsimp only
    -- Stripe credits the product itself, by hand its integer part
    rw [hown (recharge customerId) (by rw [hp]; rfl), if_pos rfl]
    exact credited_intPart_iff _
  | creem =>
    dsimp only
    -- for Creem the amount is quota already
    rw [hown (rechargeCreem customerEmail) (by rw [hp]; rfl), if_neg (by decide)]
    exact creem_alike_iff quotaPerUnit order.amount
  | waffo =>
    dsimp only
    rw [hown rechargeWaffo (by rw [hp]; rfl), if_neg (by decide)]
    exact iff_true_intro rfl
  | waffoPancake =>
    dsimp only
    rw [hown rechargeWaffoPancake (by rw [hp]; rfl), if_neg (by decide)]
    exact iff_true_intro rfl
  | unset => exact absurd hp h.provider

/-- Ten units paid with Stripe. -/
theorem manual_adds_alike_stripe : (oneOrder .stripe 10 10).quotaAdded
        ((manualCompleteTopUp.run 500000 (oneOrder .stripe 10 10) "t" 0).after
          (oneOrder .stripe 10 10)) 1 =
      (oneOrder .stripe 10 10).quotaAdded (ownCompletion 500000 (oneOrder .stripe 10 10)
          ⟨1, 1, 10, 10, "t", "card", .stripe, 0, .pending⟩ "" "" "" 0) 1 :=
  (manual_adds_alike_iff 500000 (oneOrder .stripe 10 10)
    ⟨1, 1, 10, 10, "t", "card", .stripe, 0, .pending⟩
    ⟨by decide +kernel, by decide, rfl, ⟨_, rfl⟩, by decide⟩ "" "" "" 0 0).mpr
    ⟨5000000, by decide, by decide, by decide +kernel⟩

/-- A Creem order of half a million units of quota is worth as much by callback,
and half a million times as much by hand. -/
theorem creem_by_hand : (oneOrder .creem 500000 1).quotaAdded
        ((manualCompleteTopUp.run 500000 (oneOrder .creem 500000 1) "t" 0).after
          (oneOrder .creem 500000 1)) 1 ≠
      (oneOrder .creem 500000 1).quotaAdded (ownCompletion 500000 (oneOrder .creem 500000 1)
          ⟨1, 1, 500000, 1, "t", "card", .creem, 0, .pending⟩ "" "" "" 0) 1 := by
  decide +kernel
