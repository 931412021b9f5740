/-
Top-up orders and the ways to complete them.

An order is pending until it is completed or closed.  A completion marks it as
successful and credits its user; how much depends on the payment provider.  The
completions of Stripe, Creem and Waffo and the one by hand are transactions
(`CompletionPath`); the callback of Epay is a sequence of statements outside any
transaction (`epayRead`, `epaySave`, `epayCredit`).

Amounts of money and quota are exact numbers here; quota that is computed from
an amount is cut off to a 64-bit word (`intPart`).
-/
import AcuGateway.Lib.Tx
import AcuGateway.Lib.Word
import AcuGateway.Store
import Mathlib.Algebra.Order.Ring.Rat
import Mathlib.Data.Rat.Lemmas

/-! ### Rows -/

inductive PaymentProvider
  | epay
  | stripe
  | creem
  | waffo
  | waffoPancake
  | unset
deriving DecidableEq

inductive TopUpStatus
  | pending
  | success
  | failed
  | expired
deriving DecidableEq

structure TopUp where
  id : Int
  userId : Int
  amount : Int
  money : ℚ
  tradeNo : String
  paymentMethod : String
  paymentProvider : PaymentProvider
  completeTime : Int
  status : TopUpStatus
deriving DecidableEq

/-- The columns of a user that payments read and write. -/
structure Payer where
  id : Int
  quota : ℚ
  email : String
  stripeCustomer : String

structure PayDB where
  topUps : Table TopUp.id
  users : Table Payer.id

/-- That a user was credited for an order. -/
structure Credit where
  order : Int
  userId : Int
  quota : ℚ

variable (db : PayDB) {tradeNo : String} {topUp : TopUp}

namespace PayDB

def getTopUpByTradeNo (tradeNo : String) : Option TopUp :=
  db.topUps.rows.find? fun topUp => topUp.tradeNo = tradeNo

theorem mem_of_getTopUpByTradeNo {db : PayDB}
    (h : db.getTopUpByTradeNo tradeNo = some topUp) : topUp ∈ db.topUps.rows :=
  List.mem_of_find?_eq_some h

/-- Overwrite an order. -/
def saveTopUp (topUp : TopUp) : PayDB := { db with topUps := db.topUps.save topUp }

/-- Add to the quota of a user, and change other columns along with it. -/
def credit (userId : Int) (quota : ℚ) (touch : Payer → Payer) (htouch : ∀ u, (touch u).id = u.id) :
    PayDB :=
  { db with
    users := db.users.update (fun u => u.id = userId)
      (fun u => { touch u with quota := u.quota + quota }) fun u _ => htouch u }

/-- The quota of a user; a missing row reads as 0. -/
def quotaOf (userId : Int) : ℚ := ((db.users.find? userId).map Payer.quota).getD 0

section Credit

variable {db : PayDB} {userId : Int} {quota : ℚ} {touch : Payer → Payer}
  {htouch : ∀ u, (touch u).id = u.id}

theorem isSome_find?_credit (k : Int) :
    ((db.credit userId quota touch htouch).users.find? k).isSome = (db.users.find? k).isSome := by
  unfold credit
  dsimp only
  rw [Table.find?_update, Option.isSome_map]

/-- A credit reaches its user, if there is one, and no one else. -/
theorem quotaOf_credit (k : Int) : (db.credit userId quota touch htouch).quotaOf k =
      db.quotaOf k + if (db.users.find? userId).isSome ∧ k = userId then quota else 0 := by
  unfold quotaOf credit
  dsimp only
  rw [Table.find?_update]
  cases hu : db.users.find? k with
  | none =>
    rw [if_neg]
    · exact (add_zero _).symm
    · rintro ⟨hsome, rfl⟩
      rw [hu] at hsome
      cases hsome
  | some u =>
    have hid : u.id = k := Table.key_of_find? hu
    by_cases hk : k = userId
    · subst hk
      simp [hid, hu]
    · simp [hid, hk]

end Credit

end PayDB

/-! ### Amounts -/

/-- `decimal.IntPart`: the part before the point, as a 64-bit word. -/
def intPart (d : ℚ) : Int := wrap64 (d.num.tdiv d.den)

/-- The quota of an amount in units. -/
def quotaOfAmount (quotaPerUnit : ℚ) (amount : Int) : Int := intPart (amount * quotaPerUnit)

/-- Quota that has to be positive. -/
def positiveQuota (quotaToAdd : Int) : Except String ℚ :=
  if quotaToAdd ≤ 0 then .error "无效的充值额度" else .ok quotaToAdd

/-! ### Completion in a transaction -/

/-- What the completion transactions differ in. -/
structure CompletionPath where
  /-- The error for an empty trade number. -/
  noTradeNo : String
  /-- The provider whose orders the path accepts; `none` for all. -/
  provider : Option PaymentProvider
  /-- An order that is already successful is no error. -/
  idempotent : Bool
  /-- The error for an order that is not pending. -/
  notPending : String
  quota : ℚ → TopUp → Except String ℚ
  /-- The path reads the user row before it writes it. -/
  readsUser : Bool := false
  touch : Payer → Payer := id
  touch_id : ∀ u, (touch u).id = u.id := by intro u; rfl
  /-- An error of the transaction is replaced by a general one. -/
  hidesError : Bool := true

variable {quotaPerUnit : ℚ} {db' : PayDB}

namespace CompletionPath

variable (path : CompletionPath)

def fail (e : String) : String := if path.hidesError then "充值失败，请稍后重试" else e

/-- Mark the order as successful and credit its user, or roll back.  The result
says whether a user was credited. -/
def run (quotaPerUnit : ℚ) (db : PayDB) (tradeNo : String) (now : Int) :
    Tx PayDB (Option Credit) :=
  if tradeNo = "" then .rollback path.noTradeNo
  else
    match db.getTopUpByTradeNo tradeNo with
    | none => .rollback (path.fail "充值订单不存在")
    | some topUp =>
      if ∃ provider ∈ path.provider, topUp.paymentProvider ≠ provider then
        .rollback (path.fail "payment method mismatch")
      -- a repeated callback is answered with success and changes nothing
      else if path.idempotent = true ∧ topUp.status = .success then .commit none db
      else if topUp.status ≠ .pending then .rollback (path.fail path.notPending)
      else
        match path.quota quotaPerUnit topUp with
        | .error e => .rollback (path.fail e)
        | .ok quota =>
          let found := (db.users.find? topUp.userId).isSome
          -- the paths that only update the user do not notice that the user is gone
          if path.readsUser = true ∧ found = false then .rollback (path.fail "record not found")
          else
            .commit (if found then some ⟨topUp.id, topUp.userId, quota⟩ else none)
              ((db.saveTopUp { topUp with completeTime := now, status := .success }).credit
                topUp.userId quota path.touch path.touch_id)

/-- A committed completion had nothing to do, or completed a pending order. -/
theorem run_commit {path : CompletionPath} {db : PayDB} {now : Int} {credit : Option Credit}
    (h : path.run quotaPerUnit db tradeNo now = .commit credit db') :
    (credit = none ∧ db' = db) ∨ ∃ topUp quota, db.getTopUpByTradeNo tradeNo = some topUp ∧
      topUp.status = .pending ∧
        credit = (if (db.users.find? topUp.userId).isSome then
          some ⟨topUp.id, topUp.userId, quota⟩ else none) ∧
        db' = (db.saveTopUp { topUp with completeTime := now, status := .success }).credit
          topUp.userId quota path.touch path.touch_id := by
  unfold run at h
  split_ifs at h
  split at h
  · cases h
  rename_i topUp hfound
  split_ifs at h with _ _ hpending
  · injection h with hc hdb
    exact .inl ⟨hc.symm, hdb.symm⟩
  split at h
  · cases h
  rename_i quota hquota
  dsimp only at h
  split at h
  · cases h
  · injection h with hc hdb
    exact .inr ⟨topUp, quota, hfound, not_not.mp hpending, hc.symm, hdb.symm⟩

end CompletionPath

/-- Stripe: `Money` counts units, and the product is added as it is. -/
def recharge (customerId : String) : CompletionPath where
  noTradeNo := "未提供支付单号"
  provider := some .stripe
  idempotent := false
  notPending := "充值订单状态错误"
  quota := fun quotaPerUnit topUp => .ok (topUp.money * quotaPerUnit)
  touch := fun u => { u with stripeCustomer := customerId }

/-- Creem: `Amount` is the quota itself. -/
def rechargeCreem (customerEmail : String) : CompletionPath where
  noTradeNo := "未提供支付单号"
  provider := some .creem
  idempotent := false
  notPending := "充值订单状态错误"
  quota := fun _ topUp => .ok topUp.amount
  readsUser := customerEmail ≠ ""
  touch := fun u => { u with email := if u.email = "" then customerEmail else u.email }

def rechargeWaffo : CompletionPath where
  noTradeNo := "未提供支付单号"
  provider := some .waffo
  idempotent := true
  notPending := "充值订单状态错误"
  quota := fun quotaPerUnit topUp => positiveQuota (quotaOfAmount quotaPerUnit topUp.amount)

def rechargeWaffoPancake : CompletionPath where
  noTradeNo := "未提供支付单号"
  provider := some .waffoPancake
  idempotent := true
  notPending := "充值订单状态错误"
  quota := fun quotaPerUnit topUp => positiveQuota (quotaOfAmount quotaPerUnit topUp.amount)

/-- By hand: `Money` counts units for Stripe, `Amount` does for all others. -/
def manualCompleteTopUp : CompletionPath where
  noTradeNo := "未提供订单号"
  provider := none
  idempotent := true
  notPending := "订单状态不是待支付，无法补单"
  quota := fun quotaPerUnit topUp =>
    if topUp.paymentProvider = .stripe then positiveQuota (intPart (topUp.money * quotaPerUnit))
    else positiveQuota (quotaOfAmount quotaPerUnit topUp.amount)
  hidesError := false

/-- Close a pending order without a credit. -/
def updatePendingTopUpStatus (tradeNo : String)
    (expectedPaymentProvider : Option PaymentProvider) (targetStatus : TopUpStatus) :
    Tx PayDB TopUp :=
  if tradeNo = "" then .rollback "未提供支付单号"
  else
    match db.getTopUpByTradeNo tradeNo with
    | none => .rollback "topup not found"
    | some topUp =>
      if ∃ provider ∈ expectedPaymentProvider, topUp.paymentProvider ≠ provider then
        .rollback "payment method mismatch"
      else if topUp.status ≠ .pending then .rollback "topup status invalid"
      else .commit topUp (db.saveTopUp { topUp with status := targetStatus })

theorem updatePendingTopUpStatus_commit {db : PayDB} {provider : Option PaymentProvider}
    {target : TopUpStatus}
    (h : updatePendingTopUpStatus db tradeNo provider target = .commit topUp db') :
    db.getTopUpByTradeNo tradeNo = some topUp ∧ topUp.status = .pending ∧
      (∀ p ∈ provider, topUp.paymentProvider = p) ∧
      db' = db.saveTopUp { topUp with status := target } := by
  unfold updatePendingTopUpStatus at h
  split_ifs at h
  split at h
  · cases h
  rename_i topUp' hfound
  split_ifs at h with hprovider hpending
  injection h with htopUp hdb
  subst htopUp
  refine ⟨hfound, not_not.mp hpending, fun p hp => ?_, hdb.symm⟩
  by_contra hne
  exact hprovider ⟨p, hp, hne⟩

/-! ### The callback of Epay -/

/-- The row that a callback is going to save, if there is anything to do. -/
def epayRead (tradeNo callbackType : String) : Option TopUp :=
  match db.getTopUpByTradeNo tradeNo with
  | none => none
  | some topUp =>
    if topUp.paymentProvider ≠ .epay then none
    else if topUp.status = .pending then
      some { topUp with paymentMethod := callbackType, status := .success }
    else none

/-- What a callback read: a pending order of Epay. -/
theorem epayRead_some {db : PayDB} {callbackType : String} {row : TopUp}
    (h : epayRead db tradeNo callbackType = some row) :
    ∃ topUp, db.getTopUpByTradeNo tradeNo = some topUp ∧ topUp.paymentProvider = .epay ∧
      topUp.status = .pending ∧
      row = { topUp with paymentMethod := callbackType, status := .success } := by
  unfold epayRead at h
  split at h
  · cases h
  rename_i topUp hfound
  split_ifs at h with hepay hpending
  injection h with h
  exact ⟨topUp, hfound, not_not.mp hepay, hpending, h.symm⟩

/-- Save the row as it was read, whatever is stored by now. -/
def epaySave (topUp : TopUp) : PayDB := db.saveTopUp topUp

def epayCredit (quotaPerUnit : ℚ) (db : PayDB) (topUp : TopUp) : Except String PayDB :=
  if quotaOfAmount quotaPerUnit topUp.amount < 0 then .error negativeQuota
  else .ok (db.credit topUp.userId (quotaOfAmount quotaPerUnit topUp.amount) id fun _ => rfl)

theorem epayCredit_ok {db : PayDB} (h : epayCredit quotaPerUnit db topUp = .ok db') :
    db' = db.credit topUp.userId (quotaOfAmount quotaPerUnit topUp.amount) id fun _ => rfl := by
  unfold epayCredit at h
  split_ifs at h
  injection h with h
  exact h.symm

/-- A callback that no other call interferes with and in which no statement
fails. -/
def epayNotify (quotaPerUnit : ℚ) (db : PayDB) (tradeNo callbackType : String) : PayDB :=
  match epayRead db tradeNo callbackType with
  | none => db
  | some topUp =>
    match epayCredit quotaPerUnit (epaySave db topUp) topUp with
    | .error _ => epaySave db topUp
    | .ok db' => db'

/-- An order of the given provider, and its user. -/
def oneOrder (paymentProvider : PaymentProvider) (amount : Int) (money : ℚ) : PayDB :=
  { topUps := Table.empty.insert
      (fun id => ⟨id, 1, amount, money, "t", "card", paymentProvider, 0, .pending⟩) fun _ => rfl
    users := Table.empty.insert (fun id => ⟨id, 0, "", ""⟩) fun _ => rfl }
