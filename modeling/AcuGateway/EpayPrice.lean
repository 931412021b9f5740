/-
What an Epay order charges and what it credits.

`RequestEpay` prices the requested amount and stores it in units; the callback turns the stored
units back into quota.  In the display type TOKENS the amount is quota itself: the price is that
of the exact quotient by the unit, and the order stores its integer part.

* `EpaySetting.getPayMoney`, `EpaySetting.requestEpay` — the price and the order;
* `charged_as_credited_iff` — the price is that of the credited quota exactly for requests of a
  whole number of units that are worth a whole amount of quota;
* `broken_unit_lost` — half a unit is paid and not credited.
-/
import AcuGateway.TextQuota
import AcuGateway.TopUpManual
import Mathlib.Data.Rat.Floor

/-- The unit in which amounts are shown and requested. -/
inductive QuotaDisplayType
  | usd
  | cny
  | tokens
  | custom
deriving DecidableEq

/-- The settings that an order reads. -/
structure EpaySetting where
  displayType : QuotaDisplayType
  price : ℚ
  quotaPerUnit : ℚ
  minTopUp : Int
  topupGroupRatio : String → ℚ
  amountDiscount : Int → Option ℚ
  payMethods : List String

variable (setting : EpaySetting) (amount : Int)

namespace EpaySetting

/-- A requested amount in units. -/
def units : ℚ :=
  if setting.displayType = .tokens then decimalDiv amount setting.quotaPerUnit else amount

/-- The `Amount` of the order. -/
def topUpAmount : Int :=
  if setting.displayType = .tokens then intPart (setting.units amount) else amount

def ratio (group : String) : ℚ :=
  if setting.topupGroupRatio group = 0 then 1 else setting.topupGroupRatio group

def discount : ℚ :=
  match setting.amountDiscount amount with
  | none => 1
  | some ds => if 0 < ds then ds else 1

def getPayMoney (group : String) : ℚ :=
  setting.units amount * setting.price * setting.ratio group * setting.discount amount

def getMinTopup : Int :=
  if setting.displayType = .tokens then intPart (setting.minTopUp * setting.quotaPerUnit)
  else setting.minTopUp

/-- The amount and the money of the order, or the error.  `group` is `none` if it cannot be read;
`placed` says what the payment provider and the insert answer. -/
def requestEpay (paymentMethod : String)
    (group : Option String) (placed : Except String Unit) : Except String (Int × ℚ) :=
  if amount < setting.getMinTopup then
    .error ("充值数量不能小于 " ++ toString setting.getMinTopup)
  else
    match group with
    | none => .error "获取用户分组失败"
    | some group =>
      if setting.getPayMoney amount group < 1 / 100 then .error "充值金额过低"
      else if paymentMethod ∉ setting.payMethods then .error "支付方式不存在"
      else placed.map fun _ =>
        (setting.topUpAmount amount, setting.getPayMoney amount group)

/-- The amount is a whole number of units, worth a whole amount of quota; both fit a word. -/
def Whole : Prop :=
  ∃ units quota : Int, IsInt64 units ∧ IsInt64 quota ∧ setting.units amount = units ∧
    units * setting.quotaPerUnit = quota

end EpaySetting

/-! ### Cutting off -/

theorem intPart_of_nonneg {x : ℚ} (hx : 0 ≤ x) :
    ∃ k : Int, 0 ≤ k ∧ (k : ℚ) ≤ x ∧ intPart x = wrap64 k := by
  refine ⟨⌊x⌋, Int.floor_nonneg.mpr hx, Int.floor_le x, ?_⟩
  rw [Rat.floor_def', ← Int.tdiv_eq_ediv_of_nonneg (Rat.num_nonneg.mpr hx), intPart]

theorem intPart_of_nonpos {x : ℚ} (hx : x ≤ 0) :
    ∃ k : Int, 0 ≤ k ∧ (k : ℚ) ≤ -x ∧ intPart x = wrap64 (-k) := by
  have hneg := neg_nonneg.mpr hx
  refine ⟨⌊-x⌋, Int.floor_nonneg.mpr hneg, Int.floor_le _, ?_⟩
  rw [Rat.floor_def', ← Int.tdiv_eq_ediv_of_nonneg (Rat.num_nonneg.mpr hneg),
    Rat.num_neg_eq_neg_num, Rat.den_neg_eq_den, Int.neg_tdiv, neg_neg, intPart]

/-- If the quota of the stored units is that of the exact ones, the units are whole. -/
theorem intPart_eq_of_quota {d q : ℚ} (hd : 0 < d) (hq : 0 < q)
    (h : (intPart (intPart d * q) : ℚ) = d * q) : (intPart d : ℚ) = d := by
  obtain ⟨k, hk, hkd, hn⟩ := intPart_of_nonneg hd.le
  have hle : intPart d ≤ k := by
    unfold wrap64 at hn
    omega
  refine le_antisymm ((Int.cast_le.mpr hle).trans hkd) (le_of_mul_le_mul_right ?_ hq)
  rw [← h]
  rcases le_or_gt 0 (intPart d) with hpos | hneg
  · obtain ⟨m, hm, hmx, hc⟩ := intPart_of_nonneg (mul_nonneg (Int.cast_nonneg hpos) hq.le)
    have : intPart (intPart d * q) ≤ m := by
      unfold wrap64 at hc
      omega
    exact (Int.cast_le.mpr this).trans hmx
  · -- a negative word: the units are beyond a word, and the quota would have to wrap back to them
    obtain ⟨m, hm, hmx, hc⟩ :=
      intPart_of_nonpos (mul_nonpos_of_nonpos_of_nonneg (Int.cast_nonpos.mpr hneg.le) hq.le)
    have hquota : 0 < intPart (intPart d * q) := by
      rw [← Int.cast_pos (R := ℚ), h]
      exact mul_pos hd hq
    have hwrapped : intPart (intPart d * q) < m ∧ -intPart d ≤ k := by
      unfold wrap64 at hc hn
      omega
    have hlt : d * q < -intPart d * q := by
      rw [← h, neg_mul]
      exact (Int.cast_lt.mpr hwrapped.1).trans_le hmx
    have hword : (-intPart d : ℚ) ≤ k := by exact_mod_cast hwrapped.2
    exact absurd (lt_of_mul_lt_mul_right hlt hq.le) (not_lt.mpr (hword.trans hkd))

/-! ### The order and its callback -/

namespace EpaySetting

theorem topUpAmount_eq {amount : Int} (hamount : IsInt64 amount) :
    setting.topUpAmount amount = intPart (setting.units amount) := by
  unfold topUpAmount units
  split_ifs
  · rfl
  · exact (intPart_intCast hamount).symm

/-- What an accepted request has priced and stored. -/
theorem requestEpay_ok {setting : EpaySetting} {amount : Int} {paymentMethod : String}
    {group : String} {placed : Except String Unit} {stored : Int} {money : ℚ}
    (h : setting.requestEpay amount paymentMethod (some group) placed = .ok (stored, money))
    (hamount : IsInt64 amount) :
    stored = intPart (setting.units amount) ∧ money = setting.getPayMoney amount group ∧
      1 / 100 ≤ money := by
  unfold requestEpay at h
  dsimp only at h
  split_ifs at h with hmin hlow hmethod
  cases placed with
  | error e => cases h
  | ok _ =>
    obtain ⟨rfl, rfl⟩ := Prod.mk.inj (Except.ok.inj h)
    exact ⟨setting.topUpAmount_eq hamount, rfl, not_lt.mp hlow⟩

end EpaySetting

/-- Over every accepted request without discount and the callback of its order: the price is that
of the quota which the callback adds exactly for a whole number of units. -/
theorem charged_as_credited_iff (setting : EpaySetting) (amount : Int)
    (paymentMethod group : String)
    (placed : Except String Unit) (stored : Int) (money : ℚ) (db : PayDB) (order : TopUp)
    (callbackType : String) (hamount : IsInt64 amount) (hprice : 0 < setting.price)
    (hunit : 0 < setting.quotaPerUnit) (hratio : setting.ratio group = 1)
    (hdiscount : setting.discount amount = 1)
    (haccepted : setting.requestEpay amount paymentMethod (some group) placed = .ok (stored, money))
    (horder : PendingOrder db order) (hepay : order.paymentProvider = .epay)
    (hstored : order.amount = stored) :
    setting.getPayMoney amount group = setting.price * (db.quotaAdded
          (epayNotify setting.quotaPerUnit db order.tradeNo callbackType) order.userId /
            setting.quotaPerUnit) ↔
      setting.Whole amount := by
  obtain ⟨rfl, rfl, hmoney⟩ := EpaySetting.requestEpay_ok haccepted hamount
  have hpay : setting.getPayMoney amount group = setting.price * setting.units amount := by
    unfold EpaySetting.getPayMoney
    rw [hratio, hdiscount, mul_one, mul_one, mul_comm]
  rw [hpay] at hmoney ⊢
  -- an order that was accepted is for more than nothing
  have hpos : 0 < setting.units amount := pos_of_mul_pos_right (by linarith) hprice.le
  rw [quotaOf_epayNotify horder hepay, hstored, mul_right_inj' hprice.ne', eq_div_iff hunit.ne']
  unfold quotaOfAmount
  constructor
  · intro h
    have hadded : (0 : ℚ) < setting.units amount * setting.quotaPerUnit := mul_pos hpos hunit
    split_ifs at h with hneg
    · linarith
    have hwhole := intPart_eq_of_quota hpos hunit h.symm
    exact ⟨_, _, isInt64_wrap64 _, isInt64_wrap64 _, hwhole.symm,
      (congrArg (· * setting.quotaPerUnit) hwhole).trans h⟩
  · rintro ⟨units, quota, hunits, hquota, hu, hq⟩
    rw [hu, intPart_intCast hunits, hq, intPart_intCast hquota, if_neg]
    rw [← Int.cast_lt (R := ℚ), ← hq, ← hu, not_lt]
    exact (mul_pos hpos hunit).le

/-- A minimal shop: a unit of half a million, at 7 a unit. -/
def shop (displayType : QuotaDisplayType) : EpaySetting :=
  ⟨displayType, 7, 500000, 1, fun _ => 1, fun _ => none, ["alipay"]⟩

/-- Ten units are paid and credited. -/
theorem charged_as_credited_usd :
    (shop .usd).getPayMoney 10 "default" = 7 * ((oneOrder .epay 10 70).quotaAdded
          (epayNotify 500000 (oneOrder .epay 10 70) "t" "alipay") 1 / 500000) :=
  (charged_as_credited_iff (shop .usd) 10 "alipay" "default" (.ok ()) 10 70 (oneOrder .epay 10 70)
    ⟨1, 1, 10, 70, "t", "card", .epay, 0, .pending⟩ "alipay" (by decide) (by decide +kernel)
    (by decide +kernel) (by decide +kernel) rfl (by decide +kernel)
    ⟨by decide +kernel, by decide, rfl, ⟨_, rfl⟩, by decide⟩ rfl rfl).mpr
    ⟨10, 5000000, by decide, by decide, by decide +kernel, by decide +kernel⟩

/-- A request for 750000 tokens pays one and a half units; its order is credited one. -/
theorem broken_unit_lost :
    (shop .tokens).requestEpay 750000 "alipay" (some "default") (.ok ()) = .ok (1, 21 / 2) ∧
      (shop .tokens).getPayMoney 750000 "default" ≠ 7 * ((oneOrder .epay 1 (21 / 2)).quotaAdded
          (epayNotify 500000 (oneOrder .epay 1 (21 / 2)) "t" "alipay") 1 / 500000) := by
  decide +kernel
