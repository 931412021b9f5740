/-
The charge for a finalized usage report.

`applyACUUsageCharge` is one transaction: it claims the idempotency key of the
report by inserting a record, then charges the wallet of the user and the token.
An error at any point rolls back the record and the charges together.  The record
is under two unique indexes, one on the key of the report and one on the logical
request.

* `chargeACUWallet_ok_iff`, `chargeACUToken_ok_iff` — when the two charges succeed;
* `chargeACUWallet_ok`, `chargeACUToken_ok` — what they do then;
* `Delivery`, `applyACUUsageCharge_delivery` — what a report can end in.
-/
import AcuGateway.Lib.Tx
import AcuGateway.Store

open List Table

/-! ### Reports and records -/

/-- What a report says about the usage; it is stored as it is. -/
structure ACUUsage where
  actualModel : String
  provider : String
  channel : String
  inputTokens : Int
  cachedInputTokens : Int
  outputTokens : Int
  reasoningTokens : Int
  judgeCostUsd : String
  providerCostUsd : String
  failedBilledCostUsd : String
  finalUserCostUsd : String
  nominalProviderCostUsd : String
  providerBalanceChargeUsd : String
  providerBalanceCharge : String
  providerBalanceCurrency : String
  providerCreditCashCostCny : String
  effectiveProviderCashCostCny : String
  judgeCashCostCny : String
  judgeInputTokens : Int
  judgeOutputTokens : Int
  judgeOfficialPaygEquivalentCost : String
  judgeCostCurrency : String
  judgeCostStatus : String
  judgeCostSource : String
  judgeProvider : String
  judgeModel : String
  failedAttemptCashCostCny : String
  actualTotalCashCostCny : String
  userChargeCny : String
  counterfactualQualityCeilingCostCny : String
  costBreakdownJson : String

structure ACUUsageChargeInput where
  reportIdempotencyKey : String
  logicalRequestId : String
  payloadHash : String
  userId : Int
  tokenId : Int
  logId : String
  usage : ACUUsage
  finalQuota : Int

inductive ACUFinalizeStatus
  | charged
  | finalized

/-- The record of a charged report. -/
structure ACUUsageFinalize extends ACUUsageChargeInput where
  id : Int
  status : ACUFinalizeStatus
  createdAt : Int
  updatedAt : Int

/-- Users, tokens and records, with the unique indexes of the records. -/
structure UsageDB where
  users : Users
  tokens : Tokens
  finalizes : Table ACUUsageFinalize.id
  report_unique : (finalizes.rows.map fun r => r.reportIdempotencyKey).Nodup
  logical_unique : (finalizes.rows.map fun r => r.logicalRequestId).Nodup

def sameACUFinalizePayload (record : ACUUsageFinalize) (input : ACUUsageChargeInput) : Bool :=
  record.payloadHash = input.payloadHash ∧
    record.reportIdempotencyKey = input.reportIdempotencyKey ∧
    record.logicalRequestId = input.logicalRequestId ∧
    record.userId = input.userId ∧ record.tokenId = input.tokenId ∧ record.logId = input.logId

/-- The new record, under the id that the sequence gives it. -/
def chargedRecord (input : ACUUsageChargeInput) (now id : Int) : ACUUsageFinalize :=
  { input with id, status := .charged, createdAt := now, updatedAt := now }

variable (db : UsageDB)

namespace UsageDB

def byReportKey (key : String) : Option ACUUsageFinalize :=
  db.finalizes.rows.find? fun r => r.reportIdempotencyKey = key

def byLogicalRequest (logicalRequestId : String) : Option ACUUsageFinalize :=
  db.finalizes.rows.find? fun r => r.logicalRequestId = logicalRequestId

variable (input : ACUUsageChargeInput)

/-- A record of the report would conflict with none that is there. -/
def Unclaimed : Prop :=
  ∀ r ∈ db.finalizes.rows, r.reportIdempotencyKey ≠ input.reportIdempotencyKey ∧
    r.logicalRequestId ≠ input.logicalRequestId
deriving Decidable

/-- Insert the record of a report that is unclaimed. -/
def claim (now : Int) (h : db.Unclaimed input) : UsageDB :=
  { db with
    finalizes := db.finalizes.insert (chargedRecord input now) fun _ => rfl
    report_unique := nodup_column_concat db.report_unique fun r hr => (h r hr).1
    logical_unique := nodup_column_concat db.logical_unique fun r hr => (h r hr).2 }

end UsageDB

/-! ### The charge -/

def errACUInsufficientWallet : String := "ACU wallet balance is insufficient"

def errACUInsufficientToken : String := "ACU token quota is insufficient"

/-- The charge of the wallet. -/
def chargeACUWallet (users : Users) (input : ACUUsageChargeInput) : Except String Users :=
  match users.find? input.userId with
  | none => .error "record not found"
  | some user =>
    if user.status ≠ 1 then .error "ACU user is disabled"
    else if user.quota < input.finalQuota then .error errACUInsufficientWallet
    else
      let charged : User → Bool :=
        fun u => u.id = input.userId ∧ u.status = 1 ∧ input.finalQuota ≤ u.quota
      if users.affected charged ≠ 1 then .error "ACU wallet charge lost its locked user row"
      else
        .ok (users.update charged
          (fun u => { u with
            quota := u.quota - input.finalQuota
            usedQuota := u.usedQuota + input.finalQuota
            requestCount := u.requestCount + 1 })
          fun _ _ => rfl)

/-- The charge of the token, which is limited or not as it was read. -/
def chargeACUToken (tokens : Tokens) (input : ACUUsageChargeInput) (now : Int) :
    Except String Tokens :=
  match tokens.rows.find? fun t => t.id = input.tokenId ∧ t.userId = input.userId with
  | none => .error "record not found"
  | some token =>
    if token.status ≠ 1 then .error "ACU token is disabled"
    else
      let charged : Token → Bool :=
        fun t => t.id = input.tokenId ∧ t.userId = input.userId ∧ t.status = 1 ∧
          (token.unlimitedQuota = false → input.finalQuota ≤ t.remainQuota)
      if tokens.affected charged ≠ 1 then .error errACUInsufficientToken
      else
        .ok (tokens.update charged
          (fun t => { t with
            usedQuota := t.usedQuota + input.finalQuota
            accessedTime := now
            remainQuota :=
              if token.unlimitedQuota then t.remainQuota else t.remainQuota - input.finalQuota })
          fun _ _ => rfl)

/-- What is answered to a report whose key is on record. -/
def answerKnown (existing : ACUUsageFinalize) (input : ACUUsageChargeInput) :
    Tx UsageDB (ACUUsageFinalize × Bool) :=
  if sameACUFinalizePayload existing input then .commit (existing, true) db
  else .rollback "ACU finalize idempotency key payload mismatch"

/-- The record of the report, and whether it was there already. -/
def applyACUUsageCharge (input : ACUUsageChargeInput) (now : Int) :
    Tx UsageDB (ACUUsageFinalize × Bool) :=
  match db.byReportKey input.reportIdempotencyKey with
  | some existing => answerKnown db existing input
  | none =>
    if h : db.Unclaimed input then
      -- the insert claims the report, and a charge that fails takes the claim back with it
      let claimed := db.claim input now h
      match chargeACUWallet claimed.users input with
      | .error e => .rollback e
      | .ok users =>
        match chargeACUToken claimed.tokens input now with
        | .error e => .rollback e
        | .ok tokens =>
          .commit (chargedRecord input now db.finalizes.seq, false) { claimed with users, tokens }
    else
      -- the insert met one of the two unique indexes: which one decides the answer
      match db.byReportKey input.reportIdempotencyKey with
      | some existing => answerKnown db existing input
      | none =>
        match db.byLogicalRequest input.logicalRequestId with
        | some _ => .rollback "ACU logical request already finalized with a different report"
        | none => .rollback "ACU finalize idempotency claim failed"

/-- Note that the log of a charged report is written. -/
def markACUUsageFinalized (id now : Int) : UsageDB :=
  { db with
    finalizes := db.finalizes.update (fun r => r.id = id)
      (fun r => { r with status := .finalized, updatedAt := now }) fun _ _ => rfl
    report_unique := by
      have hcolumn := map_column_update (fun r : ACUUsageFinalize => r.reportIdempotencyKey)
        db.finalizes.rows (fun r => r.id = id)
        (fun r => { r with status := .finalized, updatedAt := now }) fun _ _ => rfl
      exact hcolumn ▸ db.report_unique
    logical_unique := by
      have hcolumn := map_column_update (fun r : ACUUsageFinalize => r.logicalRequestId)
        db.finalizes.rows (fun r => r.id = id)
        (fun r => { r with status := .finalized, updatedAt := now }) fun _ _ => rfl
      exact hcolumn ▸ db.logical_unique }

/-! ### What the charges do -/

variable {input : ACUUsageChargeInput} {now : Int}

section Charges

variable {users users' : Users} {tokens tokens' : Tokens}

/-- The wallet after the charge. -/
def User.charge (u : User) (finalQuota : Int) : User :=
  { u with
    quota := u.quota - finalQuota
    usedQuota := u.usedQuota + finalQuota
    requestCount := u.requestCount + 1 }

/-- The token after the charge. -/
def Token.charge (t : Token) (finalQuota now : Int) : Token :=
  { t with
    usedQuota := t.usedQuota + finalQuota
    accessedTime := now
    remainQuota := if t.unlimitedQuota then t.remainQuota else t.remainQuota - finalQuota }

/-- The wallet can pay the report. -/
def User.Covers (u : User) (finalQuota : Int) : Prop := u.status = 1 ∧ finalQuota ≤ u.quota

/-- The token can pay the report. -/
def Token.Covers (t : Token) (input : ACUUsageChargeInput) : Prop :=
  t.userId = input.userId ∧ t.status = 1 ∧
    (t.unlimitedQuota = false → input.finalQuota ≤ t.remainQuota)

/-- An update of one row, seen from the lookups. -/
structure Replaces {ρ : Type} {key : ρ → Int} (t t' : Table key) (k : Int) (r : ρ) : Prop where
  this : t'.find? k = some r
  others : ∀ k', k' ≠ k → t'.find? k' = t.find? k'

theorem replaces_update {ρ : Type} {key : ρ → Int} {t : Table key} {k : Int} {r : ρ} {p : ρ → Bool}
    {f : ρ → ρ} {hf : ∀ r, p r = true → key (f r) = key r} (hr : t.find? k = some r)
    (hp : p r = true) (honly : ∀ x, p x = true → key x = k) :
    Replaces t (t.update p f hf) k (f r) := by
  refine ⟨?_, ?_⟩
  · rw [find?_update, hr, Option.map_some, if_pos hp]
  · intro k' hk'
    rw [find?_update]
    cases hx : t.find? k' with
    | none => rfl
    | some x =>
      rw [Option.map_some, if_neg]
      intro hpx
      exact hk' ((key_of_find? hx).symm.trans (honly x hpx))

/-- The wallet is charged if and only if the user is there and can pay; the guards
of the update never fail after the checks. -/
theorem chargeACUWallet_ok_iff : (∃ users', chargeACUWallet users input = .ok users') ↔
      ∃ u, users.find? input.userId = some u ∧ u.Covers input.finalQuota := by
  unfold chargeACUWallet
  cases hu : users.find? input.userId with
  | none => simp
  | some u =>
    dsimp only
    have hone := Table.affected_eq_one_iff hu
      (p := fun u => u.id = input.userId ∧ u.status = 1 ∧ input.finalQuota ≤ u.quota)
      fun x hx => (of_decide_eq_true hx).1
    constructor
    · rintro ⟨users', h⟩
      split_ifs at h with hstatus hquota
      exact ⟨u, rfl, not_not.mp hstatus, not_lt.mp hquota⟩
    · rintro ⟨_, ⟨⟩, hstatus, hquota⟩
      have haffected := hone.mpr (decide_eq_true ⟨key_of_find? hu, hstatus, hquota⟩)
      rw [if_neg (not_not.mpr hstatus), if_neg (not_lt.mpr hquota), if_neg (not_not.mpr haffected)]
      exact ⟨_, rfl⟩

theorem chargeACUWallet_ok (h : chargeACUWallet users input = .ok users') :
    ∃ u, users.find? input.userId = some u ∧ u.Covers input.finalQuota ∧
      Replaces users users' input.userId (u.charge input.finalQuota) := by
  obtain ⟨u, hu, hcovers⟩ := chargeACUWallet_ok_iff.mp ⟨users', h⟩
  refine ⟨u, hu, hcovers, ?_⟩
  unfold chargeACUWallet at h
  rw [hu] at h
  dsimp only at h
  split_ifs at h
  injection h with h
  rw [← h]
  refine replaces_update hu ?_ ?_
  · exact decide_eq_true ⟨key_of_find? hu, hcovers⟩
  · intro x hx
    exact (of_decide_eq_true hx).1

variable {t : Token}

/-- A search by id and owner finds the token with the id, if it has the owner. -/
theorem find?_owned :
    tokens.rows.find? (fun t => t.id = input.tokenId ∧ t.userId = input.userId) = some t ↔
      tokens.find? input.tokenId = some t ∧ t.userId = input.userId := by
  constructor
  · intro h
    have howned : t.id = input.tokenId ∧ t.userId = input.userId := by
      simpa using find?_some h
    exact ⟨find?_eq_some.mpr ⟨mem_of_find?_eq_some h, howned.1⟩, howned.2⟩
  · -- ids are unique, so no other row is found first
    rintro ⟨hfind, howner⟩
    cases hx : tokens.rows.find? fun t => t.id = input.tokenId ∧ t.userId = input.userId with
    | none =>
      have hnone := List.find?_eq_none.mp hx t (mem_of_find? hfind)
      exact absurd (decide_eq_true ⟨key_of_find? hfind, howner⟩) hnone
    | some x =>
      have howned : x.id = input.tokenId ∧ x.userId = input.userId := by
        simpa using find?_some hx
      rw [eq_of_key_eq (mem_of_find?_eq_some hx) (mem_of_find? hfind)
        (howned.1.trans (key_of_find? hfind).symm)]

/-- The guarded update of the token affects its row if and only if it can pay. -/
theorem affected_token (hfind : tokens.find? input.tokenId = some t) :
    (tokens.affected fun x => x.id = input.tokenId ∧ x.userId = input.userId ∧ x.status = 1 ∧
      (t.unlimitedQuota = false → input.finalQuota ≤ x.remainQuota)) = 1 ↔ t.Covers input := by
  rw [Table.affected_eq_one_iff hfind fun x hx => (of_decide_eq_true hx).1, decide_eq_true_eq]
  exact and_iff_right (key_of_find? hfind)

/-- The token is charged if and only if it belongs to the user and can pay. -/
theorem chargeACUToken_ok_iff : (∃ tokens', chargeACUToken tokens input now = .ok tokens') ↔
      ∃ t, tokens.find? input.tokenId = some t ∧ t.Covers input := by
  unfold chargeACUToken
  cases ht : tokens.rows.find? fun t => t.id = input.tokenId ∧ t.userId = input.userId with
  | none =>
    refine ⟨by simp, ?_⟩
    rintro ⟨t, hfind, hcovers⟩
    rw [find?_owned.mpr ⟨hfind, hcovers.1⟩] at ht
    cases ht
  | some t =>
    dsimp only
    obtain ⟨hfind, howner⟩ := find?_owned.mp ht
    have hone := affected_token hfind
    constructor
    · rintro ⟨tokens', h⟩
      by_cases hstatus : t.status = 1
      · rw [if_neg (not_not.mpr hstatus)] at h
        by_cases haffected : t.Covers input
        · exact ⟨t, hfind, haffected⟩
        · rw [if_pos (mt hone.mp haffected)] at h
          cases h
      · rw [if_pos hstatus] at h
        cases h
    · rintro ⟨x, hx, hcovers⟩
      obtain rfl : t = x := Option.some.inj (hfind.symm.trans hx)
      rw [if_neg (not_not.mpr hcovers.2.1), if_neg (not_not.mpr (hone.mpr hcovers))]
      exact ⟨_, rfl⟩

theorem chargeACUToken_ok (h : chargeACUToken tokens input now = .ok tokens') :
    ∃ t, tokens.find? input.tokenId = some t ∧ t.Covers input ∧
      Replaces tokens tokens' input.tokenId (t.charge input.finalQuota now) := by
  obtain ⟨t, hfind, hcovers⟩ := chargeACUToken_ok_iff.mp ⟨tokens', h⟩
  refine ⟨t, hfind, hcovers, ?_⟩
  unfold chargeACUToken at h
  rw [find?_owned.mpr ⟨hfind, hcovers.1⟩] at h
  dsimp only at h
  rw [if_neg (not_not.mpr hcovers.2.1), if_neg (not_not.mpr ((affected_token hfind).mpr hcovers))]
    at h
  injection h with h
  rw [← h]
  refine replaces_update hfind ?_ ?_
  · exact decide_eq_true ⟨key_of_find? hfind, hcovers⟩
  · intro x hx
    exact (of_decide_eq_true hx).1

end Charges

/-! ### What a report can end in -/

section Deliveries

variable {db db' : UsageDB} {r : ACUUsageFinalize}

namespace UsageDB

theorem byReportKey_eq_some : db.byReportKey input.reportIdempotencyKey = some r ↔
      r ∈ db.finalizes.rows ∧ r.reportIdempotencyKey = input.reportIdempotencyKey := by
  unfold byReportKey
  constructor
  · intro h
    exact ⟨mem_of_find?_eq_some h, by simpa using find?_some h⟩
  · rintro ⟨hr, hkey⟩
    cases hx : db.finalizes.rows.find? fun r =>
        r.reportIdempotencyKey = input.reportIdempotencyKey with
    | none =>
      have hnone := List.find?_eq_none.mp hx r hr
      exact absurd (decide_eq_true hkey) hnone
    | some x =>
      have hxkey : x.reportIdempotencyKey = input.reportIdempotencyKey := by
        simpa using find?_some hx
      rw [inj_on_of_nodup_map db.report_unique (mem_of_find?_eq_some hx) hr (hxkey.trans hkey.symm)]

theorem byReportKey_eq_none : db.byReportKey input.reportIdempotencyKey = none ↔
      ∀ r ∈ db.finalizes.rows, r.reportIdempotencyKey ≠ input.reportIdempotencyKey := by
  unfold byReportKey
  rw [List.find?_eq_none]
  simp

end UsageDB

/-- A report on record is answered from the record, one for a logical request that
is on record under another key is refused; any other is charged, or refused for
lack of funds. -/
inductive Delivery (db : UsageDB) (input : ACUUsageChargeInput) (now : Int) :
    Tx UsageDB (ACUUsageFinalize × Bool) → Prop
  | known {r : ACUUsageFinalize} (hr : r ∈ db.finalizes.rows)
      (hkey : r.reportIdempotencyKey = input.reportIdempotencyKey) :
      Delivery db input now (answerKnown db r input)
  | otherKey {r : ACUUsageFinalize} (hr : r ∈ db.finalizes.rows)
      (hlogical : r.logicalRequestId = input.logicalRequestId)
      (hkeys : ∀ r ∈ db.finalizes.rows, r.reportIdempotencyKey ≠ input.reportIdempotencyKey) :
      Delivery db input now
        (.rollback "ACU logical request already finalized with a different report")
  | unpaid {e} (h : db.Unclaimed input)
    (hunpaid : (∀ users', chargeACUWallet db.users input ≠ .ok users') ∨
        ∀ tokens', chargeACUToken db.tokens input now ≠ .ok tokens') :
      Delivery db input now (.rollback e)
  | charged {users tokens} (h : db.Unclaimed input)
    (hwallet : chargeACUWallet db.users input = .ok users)
      (htoken : chargeACUToken db.tokens input now = .ok tokens) :
      Delivery db input now (.commit (chargedRecord input now db.finalizes.seq, false)
          { db.claim input now h with users, tokens })

/-- The error of a failed claim is never returned: a conflict is with the key or
with the logical request. -/
theorem applyACUUsageCharge_delivery (db : UsageDB) (input : ACUUsageChargeInput) (now : Int) :
    Delivery db input now (applyACUUsageCharge db input now) := by
  unfold applyACUUsageCharge
  cases hkey : db.byReportKey input.reportIdempotencyKey with
  | some r =>
    obtain ⟨hr, hrkey⟩ := UsageDB.byReportKey_eq_some.mp hkey
    exact .known hr hrkey
  | none =>
    have hkeys := UsageDB.byReportKey_eq_none.mp hkey
    dsimp only
    split_ifs with h
    · show Delivery db input now (match chargeACUWallet db.users input with
        | .error e => .rollback e
        | .ok users =>
          match chargeACUToken db.tokens input now with
          | .error e => .rollback e
          | .ok tokens => _)
      cases hwallet : chargeACUWallet db.users input with
      | error e => exact .unpaid h (.inl fun users' hok => by rw [hwallet] at hok; cases hok)
      | ok users =>
        cases htoken : chargeACUToken db.tokens input now with
        | error e => exact .unpaid h (.inr fun tokens' hok => by rw [htoken] at hok; cases hok)
        | ok tokens => exact .charged h hwallet htoken
    · cases hlogical : db.byLogicalRequest input.logicalRequestId with
      | some r =>
        have hrlogical : r.logicalRequestId = input.logicalRequestId := by
          simpa using find?_some hlogical
        exact .otherKey (mem_of_find?_eq_some hlogical) hrlogical hkeys
      | none =>
        refine absurd ?_ h
        intro r hr
        have hnone := List.find?_eq_none.mp hlogical r hr
        exact ⟨hkeys r hr, by simpa using hnone⟩

/-- A report on record is answered from its record. -/
theorem applyACUUsageCharge_known (hr : r ∈ db.finalizes.rows)
    (hkey : r.reportIdempotencyKey = input.reportIdempotencyKey) :
    applyACUUsageCharge db input now = answerKnown db r input := by
  unfold applyACUUsageCharge
  rw [UsageDB.byReportKey_eq_some.mpr ⟨hr, hkey⟩]

/-- An answer from a record changes nothing. -/
@[simp] theorem answerKnown_after (db : UsageDB) (r : ACUUsageFinalize)
    (input : ACUUsageChargeInput) : (answerKnown db r input).after db = db := by
  rw [answerKnown]
  split_ifs <;> rfl

variable {record : ACUUsageFinalize}

/-- An answer from a record is not a charge. -/
theorem answerKnown_ne_charged : answerKnown db r input ≠ .commit (record, false) db' := by
  rw [answerKnown]
  split_ifs
  · intro h
    injection h with hanswer
    cases hanswer
  · nofun

theorem answerKnown_other (h : sameACUFinalizePayload r input = false) :
    answerKnown db r input = .rollback "ACU finalize idempotency key payload mismatch" := by
  rw [answerKnown, h, if_neg Bool.false_ne_true]

/-- A report that was charged was unclaimed, and both charges succeeded. -/
theorem applyACUUsageCharge_charged
    (h : applyACUUsageCharge db input now = .commit (record, false) db') :
    ∃ (hfree : db.Unclaimed input) (users : Users) (tokens : Tokens),
      chargeACUWallet db.users input = .ok users ∧ chargeACUToken db.tokens input now = .ok tokens ∧
      db' = { db.claim input now hfree with users, tokens } := by
  have hdelivery := applyACUUsageCharge_delivery db input now
  generalize applyACUUsageCharge db input now = outcome at h hdelivery
  cases hdelivery with
  | known hr hkey => exact absurd h answerKnown_ne_charged
  | otherKey hr hlogical hkeys => cases h
  | unpaid hfree hunpaid => cases h
  | charged hfree hwallet htoken =>
    injection h with _ hdb
    exact ⟨hfree, _, _, hwallet, htoken, hdb.symm⟩

end Deliveries
