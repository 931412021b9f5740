/-
Subscriptions in the database.

The transactions of `model/subscription.go` on a store of users, plans,
subscriptions and pre-consume records.  A transaction reads the store it begins
in and either commits a new one or rolls back (`Tx`); row locks make
transactions on one row run one after the other.

The store also carries a history `log`, newest entry first: each statement that
changes `AmountUsed` adds an entry that says why.  No function reads it.

* `createUserSubscriptionFromPlanTx` — buy a subscription;
* `preConsumeUserSubscription`, `postConsumeUserSubscriptionDelta`,
  `refundSubscriptionPreConsume` — the life of one request;
* `resetDueSubscriptions`, `adminResetUserSubscriptionsByPlan`,
  `adminResetPlanSubscriptions` — resets;
* `expireDueSubscriptions`, `adminInvalidateUserSubscription`,
  `adminDeleteUserSubscription` — the end of a subscription.
-/
import AcuGateway.Lib.Tx
import AcuGateway.SubscriptionPlan
import Mathlib.Data.List.Sort

open Text (trimSpace)

inductive RecordStatus
  | consumed
  | refunded
deriving DecidableEq

/-- The idempotency record of one pre-consume. -/
structure SubscriptionPreConsumeRecord where
  id : Int
  requestId : String
  userId : Int
  userSubscriptionId : Int
  preConsumed : Int
  status : RecordStatus

/-- Why `AmountUsed` of a subscription changed. -/
inductive SubEvent
  | reset (sub time : Int)
  | adminReset (sub time : Int) (advance : Bool)
  | consumed (sub : Int) (request : String) (amount : Int)
  | adjusted (sub : Int) (request : String) (delta : Int)
  | refunded (sub : Int) (request : String) (amount : Int)
deriving DecidableEq

structure Store where
  users : Users
  tokens : Tokens
  plans : Table SubscriptionPlan.id
  subs : Table UserSubscription.id
  records : Table SubscriptionPreConsumeRecord.id
  log : List SubEvent

/-- The error of a lookup that finds no row. -/
def recordNotFound : String := "record not found"

namespace Store

/-- Save a subscription row and note why. -/
def saveSub (σ : Store) (sub : UserSubscription) (why : List SubEvent) : Store :=
  { σ with subs := σ.subs.save sub, log := why ++ σ.log }

def findRecord (σ : Store) (requestId : String) : Option SubscriptionPreConsumeRecord :=
  σ.records.rows.find? fun r => r.requestId = requestId

def userGroup (σ : Store) (userId : Int) : String := ((σ.users.find? userId).map User.group).getD ""

def setUserGroup (σ : Store) (userId : Int) (group : String) : Store :=
  { σ with
    users := σ.users.update (fun u => u.id = userId) (fun u => { u with group := group })
      fun _ _ => rfl }

end Store

def getSubscriptionPlanByIdTx (σ : Store) (id : Int) : Except String SubscriptionPlan :=
  if id ≤ 0 then .error "invalid plan id"
  else
    match σ.plans.find? id with
    | some plan => .ok plan
    | none => .error recordNotFound

variable {σ σ' : Store} {plan : SubscriptionPlan} {sub sub' : UserSubscription}
  {now userId zone delta : Int}
  {why : SubEvent} {id : Int}

theorem getSubscriptionPlanByIdTx_ok
    (h : getSubscriptionPlanByIdTx σ id = .ok plan) : σ.plans.find? id = some plan := by
  unfold getSubscriptionPlanByIdTx at h
  split_ifs at h
  split at h
  · rename_i hplan
    injection h with h
    rw [hplan, h]
  · cases h

def getUserGroupByIdTx (σ : Store) (userId : Int) : Except String String :=
  if userId ≤ 0 then .error "invalid userId" else .ok (σ.userGroup userId)

/-- `ORDER BY end_time asc, id asc`. -/
def endsBefore (a b : UserSubscription) : Bool :=
  a.endTime < b.endTime || (a.endTime = b.endTime && a.id ≤ b.id)

/-- The subscriptions that satisfy `p`, first to end first. -/
def subsByEnd (σ : Store) (p : UserSubscription → Bool) : List UserSubscription :=
  (σ.subs.rows.filter p).insertionSort fun a b => endsBefore a b = true

theorem mem_subsByEnd {p : UserSubscription → Bool} :
    sub ∈ subsByEnd σ p ↔ sub ∈ σ.subs.rows ∧ p sub = true := by
  rw [subsByEnd, List.mem_insertionSort, List.mem_filter]

/-- `status = 'active' AND end_time > now`. -/
def isLive (now : Int) (sub : UserSubscription) : Bool := sub.status = .active && sub.endTime > now

theorem isLive_iff : isLive now sub = true ↔ sub.status = .active ∧ now < sub.endTime := by
  simp [isLive]

theorem isLive_active (h : isLive now sub = true) : sub.status = .active := (isLive_iff.mp h).1

/-- The live subscriptions of a user, first to end first. -/
def candidates (σ : Store) (userId now : Int) : List UserSubscription :=
  subsByEnd σ fun s => s.userId = userId && isLive now s

theorem mem_candidates : sub ∈ candidates σ userId now ↔
      sub ∈ σ.subs.rows ∧ sub.userId = userId ∧ isLive now sub = true := by
  simp [candidates, mem_subsByEnd]

/-! ### Buying a subscription -/

/-- The purchase of `plan` moves a user out of `currentGroup`. -/
def elevates (plan : SubscriptionPlan) (currentGroup : String) : Prop :=
  trimSpace plan.upgradeGroup ≠ "" ∧ currentGroup ≠ trimSpace plan.upgradeGroup
deriving Decidable

/-- The row of a new subscription; the group held before is noted only when the
purchase changes it. -/
def newSubscription (zone userId : Int) (plan : SubscriptionPlan) (source currentGroup : String)
    (now endUnix id : Int) : UserSubscription :=
  let nextReset := calcNextResetTime zone now plan endUnix
  { id
    userId
    planId := plan.id
    amountTotal := plan.totalAmount
    amountUsed := 0
    startTime := now
    endTime := endUnix
    status := .active
    source
    lastResetTime := if 0 < nextReset then now else 0
    nextResetTime := nextReset
    upgradeGroup := trimSpace plan.upgradeGroup
    prevUserGroup := if elevates plan currentGroup then currentGroup else ""
    downgradeGroup := trimSpace plan.downgradeGroup
    allowWalletOverflow := plan.allowWalletOverflow.getD true }

def createUserSubscriptionFromPlanTx (zone : Int) (σ : Store) (userId : Int)
    (plan : SubscriptionPlan) (source : String) (now : Int) : Tx Store UserSubscription :=
  if plan.id = 0 then .rollback "invalid plan"
  else if userId ≤ 0 then .rollback "invalid user id"
  else if 0 < plan.maxPurchasePerUser ∧ plan.maxPurchasePerUser ≤
      (σ.subs.rows.countP fun s => s.userId = userId && s.planId = plan.id : Nat) then
    .rollback "已达到该套餐购买上限"
  else
    match calcPlanEndTime zone now plan with
    | .error e => .rollback e
    | .ok endUnix =>
      let currentGroup := σ.userGroup userId
      let σ' := if elevates plan currentGroup then
        σ.setUserGroup userId (trimSpace plan.upgradeGroup) else σ
      let mk := newSubscription zone userId plan source currentGroup now endUnix
      .commit (mk σ.subs.seq) { σ' with subs := σ.subs.insert mk fun _ => rfl }

theorem createUserSubscriptionFromPlanTx_commit {source : String}
    (h : createUserSubscriptionFromPlanTx zone σ userId plan source now = .commit sub σ') :
    0 < userId ∧ (∃ endUnix, calcPlanEndTime zone now plan = .ok endUnix ∧ σ'.subs = σ.subs.insert
        (newSubscription zone userId plan source (σ.userGroup userId) now endUnix)
        fun _ => rfl) ∧
      σ'.plans = σ.plans ∧ σ'.log = σ.log ∧
      σ'.users = if elevates plan (σ.userGroup userId) then
        (σ.setUserGroup userId (trimSpace plan.upgradeGroup)).users else σ.users := by
  unfold createUserSubscriptionFromPlanTx at h
  split_ifs at h with _ huser
  split at h
  · cases h
  · rename_i endUnix hend
    injection h with _ h
    subst h
    refine ⟨not_le.mp huser, ⟨endUnix, hend, rfl⟩, ?_⟩
    dsimp only
    split_ifs <;> exact ⟨rfl, rfl, rfl⟩

/-- `AmountUsed` of subscription `id`. -/
def usedOf (σ : Store) (id : Int) : Int :=
  ((σ.subs.find? id).map UserSubscription.amountUsed).getD 0

/-! ### Consuming -/

structure SubscriptionPreConsumeResult where
  userSubscriptionId : Int
  preConsumed : Int
  amountTotal : Int
  amountUsedBefore : Int
  amountUsedAfter : Int

/-- The row a candidate has after its due reset. -/
def afterReset (zone now : Int) (plan : SubscriptionPlan) (sub : UserSubscription) :
    UserSubscription :=
  match maybeResetUserSubscriptionWithPlanTx zone sub plan now with
  | .scheduled sub' => sub'
  | .reset sub' => sub'
  | _ => sub

/-- A reset touches the used amount and the two times only. -/
theorem afterReset_eq (zone now : Int) (plan : SubscriptionPlan) (sub : UserSubscription) :
    ∃ amountUsed lastResetTime nextResetTime, (amountUsed = sub.amountUsed ∨ amountUsed = 0) ∧
      afterReset zone now plan sub = { sub with amountUsed, lastResetTime, nextResetTime } := by
  unfold afterReset
  split
  · rename_i hout
    obtain ⟨-, -, -, rfl⟩ := maybeReset_scheduled hout
    exact ⟨_, _, _, .inl rfl, rfl⟩
  · rename_i hout
    obtain ⟨-, -, -, _, _, -, rfl⟩ := maybeReset_reset hout
    exact ⟨_, _, _, .inr rfl, rfl⟩
  · exact ⟨_, _, _, .inl rfl, rfl⟩

theorem afterReset_amountTotal (zone now : Int) (plan : SubscriptionPlan) (sub : UserSubscription) :
    (afterReset zone now plan sub).amountTotal = sub.amountTotal := by
  obtain ⟨_, _, _, -, h⟩ := afterReset_eq zone now plan sub
  rw [h]

/-- Write the outcome of `maybeResetUserSubscriptionWithPlanTx`; `none` when the
call does not return. -/
def applyReset (σ : Store) (sub : UserSubscription) (now : Int) :
    ResetOutcome → Option (UserSubscription × Store)
  | .kept => some (sub, σ)
  | .scheduled sub' => some (sub', σ.saveSub sub' [])
  | .reset sub' => some (sub', σ.saveSub sub' [.reset sub'.id now])
  | .diverges => none

/-- What is written when the call returns. -/
theorem applyReset_eq_some {outcome : ResetOutcome}
    (h : applyReset σ sub now outcome = some (sub', σ')) :
    (outcome = .kept ∧ sub' = sub ∧ σ' = σ) ∨ (outcome = .scheduled sub' ∧ σ' = σ.saveSub sub' []) ∨
      (outcome = .reset sub' ∧ σ' = σ.saveSub sub' [.reset sub'.id now]) := by
  cases outcome with
  | kept =>
    cases h
    exact .inl ⟨rfl, rfl, rfl⟩
  | scheduled r =>
    cases h
    exact .inr (.inl ⟨rfl, rfl⟩)
  | reset r =>
    cases h
    exact .inr (.inr ⟨rfl, rfl⟩)
  | diverges => cases h

/-- A reset that returns writes the subscriptions and the history only. -/
theorem applyReset_returns (σ : Store)
    (h : maybeResetUserSubscriptionWithPlanTx zone sub plan now ≠ .diverges) :
    ∃ subs log, applyReset σ sub now (maybeResetUserSubscriptionWithPlanTx zone sub plan now) =
      some (afterReset zone now plan sub, { σ with subs, log }) := by
  unfold afterReset
  rcases hout : maybeResetUserSubscriptionWithPlanTx zone sub plan now with _ | r | r | _
  · exact ⟨σ.subs, σ.log, rfl⟩
  · exact ⟨_, _, rfl⟩
  · exact ⟨_, _, rfl⟩
  · exact absurd hout h

/-- The loop over the candidate subscriptions.  `clash` is the record that a
concurrent transaction inserted under the same request id after this one looked
for it: the insert then fails on the unique index. -/
def preConsumeFrom (zone now : Int) (requestId : String) (userId amount : Int)
    (clash : Option SubscriptionPreConsumeRecord) :
    List UserSubscription → Store → Tx Store SubscriptionPreConsumeResult
  | [], _ => .rollback ("subscription quota insufficient, need=" ++ toString amount)
  | candidate :: rest, σ =>
    match getSubscriptionPlanByIdTx σ candidate.planId with
    | .error e => .rollback e
    | .ok plan =>
      match applyReset σ candidate now
          (maybeResetUserSubscriptionWithPlanTx zone candidate plan now) with
      | none => .diverge
      | some (sub, σ') =>
        -- a total of 0 or less is unlimited; a candidate that is passed over keeps its reset
        if 0 < sub.amountTotal ∧ wrap64 (sub.amountTotal - sub.amountUsed) < amount then
          preConsumeFrom zone now requestId userId amount clash rest σ'
        else
          match clash with
          -- the other transaction's record answers, with the candidate of this one
          | some dup =>
            if dup.status = .refunded then
              .rollback "subscription pre-consume already refunded"
            else
              .commit ⟨sub.id, dup.preConsumed, sub.amountTotal, sub.amountUsed, sub.amountUsed⟩ σ'
          | none =>
            let record : Int → SubscriptionPreConsumeRecord := fun id =>
              ⟨id, requestId, userId, sub.id, amount, .consumed⟩
            let charged := { sub with amountUsed := wrap64 (sub.amountUsed + amount) }
            .commit ⟨sub.id, amount, sub.amountTotal, sub.amountUsed, charged.amountUsed⟩
              { σ' with
                subs := σ'.subs.save charged
                records := σ'.records.insert record fun _ => rfl
                log := .consumed sub.id requestId amount :: σ'.log }

def preConsumeUserSubscriptionWith (zone : Int) (σ : Store) (requestId : String)
    (userId amount now : Int) (clash : Option SubscriptionPreConsumeRecord) :
    Tx Store SubscriptionPreConsumeResult :=
  if userId ≤ 0 then .rollback "invalid userId"
  else if trimSpace requestId = "" then .rollback "requestId is empty"
  else if amount ≤ 0 then .rollback "amount must be > 0"
  else
    match σ.findRecord requestId with
    -- a request that was charged before is answered without a second charge
    | some existing =>
      if existing.status = .refunded then
        .rollback "subscription pre-consume already refunded"
      else
        match σ.subs.find? existing.userSubscriptionId with
        | none => .rollback recordNotFound
        | some sub =>
          .commit ⟨sub.id, existing.preConsumed, sub.amountTotal, sub.amountUsed, sub.amountUsed⟩ σ
    | none =>
      match candidates σ userId now with
      | [] => .rollback "no active subscription"
      | subs => preConsumeFrom zone now requestId userId amount clash subs σ

/-- A pre-consume that no other transaction interferes with. -/
def preConsumeUserSubscription (zone : Int) (σ : Store) (requestId : String)
    (userId amount now : Int) : Tx Store SubscriptionPreConsumeResult :=
  preConsumeUserSubscriptionWith zone σ requestId userId amount now none

variable {requestId : String}

/-- A valid pre-consume of a request without a record tries the candidates. -/
theorem preConsumeUserSubscription_new {amount : Int} (huser : 0 < userId)
    (hrequest : trimSpace requestId ≠ "")
    (hamount : 0 < amount) (hnew : σ.findRecord requestId = none) :
    preConsumeUserSubscription zone σ requestId userId amount now =
      if candidates σ userId now = [] then .rollback "no active subscription"
      else preConsumeFrom zone now requestId userId amount none (candidates σ userId now) σ := by
  unfold preConsumeUserSubscription preConsumeUserSubscriptionWith
  rw [if_neg (by omega), if_neg hrequest, if_neg (by omega), hnew]
  dsimp only
  split
  · rename_i hnil
    rw [if_pos hnil]
  · rename_i hcons
    rw [if_neg hcons]

/-- The row `PostConsumeUserSubscriptionDelta` saves: the sum is a 64-bit word,
clamped at 0 from below and checked against the total from above. -/
def applyDelta (sub : UserSubscription) (delta : Int) : Except String UserSubscription :=
  let newUsed := max (wrap64 (sub.amountUsed + delta)) 0
  if 0 < sub.amountTotal ∧ newUsed > sub.amountTotal then
    .error ("subscription used exceeds total, used=" ++ toString newUsed ++ " total=" ++
      toString sub.amountTotal)
  else .ok { sub with amountUsed := newUsed }

theorem applyDelta_eq (h : applyDelta sub delta = .ok sub') :
    (0 < sub.amountTotal → max (wrap64 (sub.amountUsed + delta)) 0 ≤ sub.amountTotal) ∧
      sub' = { sub with amountUsed := max (wrap64 (sub.amountUsed + delta)) 0 } := by
  unfold applyDelta at h
  dsimp only at h
  split_ifs at h with hover
  injection h with h
  exact ⟨fun hpos => not_lt.mp fun hlt => hover ⟨hpos, hlt⟩, h.symm⟩

theorem applyDelta_ok
    (h : 0 < sub.amountTotal → max (wrap64 (sub.amountUsed + delta)) 0 ≤ sub.amountTotal) :
    applyDelta sub delta = .ok { sub with amountUsed := max (wrap64 (sub.amountUsed + delta)) 0 } :=
  if_neg fun hover => absurd (h hover.1) (not_le.mpr hover.2)

theorem applyDelta_error (hlimited : 0 < sub.amountTotal)
    (h : sub.amountTotal < max (wrap64 (sub.amountUsed + delta)) 0) :
    ∃ e, applyDelta sub delta = .error e := ⟨_, if_pos ⟨hlimited, h⟩⟩

theorem applyDelta_id (h : applyDelta sub delta = .ok sub') : sub'.id = sub.id := by
  rw [(applyDelta_eq h).2]

/-- `why` is the history entry of a change. -/
def postConsumeUserSubscriptionDelta (σ : Store) (userSubscriptionId delta : Int) (why : SubEvent) :
    Tx Store Unit :=
  if userSubscriptionId ≤ 0 then .rollback "invalid userSubscriptionId"
  else if delta = 0 then .commit () σ
  else
    match σ.subs.find? userSubscriptionId with
    | none => .rollback recordNotFound
    | some sub =>
      match applyDelta sub delta with
      | .error e => .rollback e
      | .ok sub' => .commit () (σ.saveSub sub' [why])

theorem postConsumeUserSubscriptionDelta_error {e : String} (hdelta : delta ≠ 0)
    (hsub : σ.subs.find? id = some sub) (happly : applyDelta sub delta = .error e) :
    postConsumeUserSubscriptionDelta σ id delta why = .rollback e := by
  have hid := Table.pos_of_find? hsub
  unfold postConsumeUserSubscriptionDelta
  rw [if_neg (by omega), if_neg hdelta, hsub]
  dsimp only
  rw [happly]

theorem postConsumeUserSubscriptionDelta_ok (hdelta : delta ≠ 0) (hsub : σ.subs.find? id = some sub)
    (happly : applyDelta sub delta = .ok sub') :
    postConsumeUserSubscriptionDelta σ id delta why = .commit () (σ.saveSub sub' [why]) := by
  have hid := Table.pos_of_find? hsub
  unfold postConsumeUserSubscriptionDelta
  rw [if_neg (by omega), if_neg hdelta, hsub]
  dsimp only
  rw [happly]

/-- A committed adjustment either had nothing to do or saved one row. -/
theorem postConsumeUserSubscriptionDelta_commit
    {u : Unit} (h : postConsumeUserSubscriptionDelta σ id delta why = .commit u σ') :
    0 < id ∧ ((delta = 0 ∧ σ' = σ) ∨ (delta ≠ 0 ∧ ∃ sub sub', σ.subs.find? id = some sub ∧
      applyDelta sub delta = .ok sub' ∧ σ' = σ.saveSub sub' [why])) := by
  unfold postConsumeUserSubscriptionDelta at h
  split_ifs at h with hid hdelta
  · injection h with _ h
    exact ⟨not_le.mp hid, .inl ⟨hdelta, h.symm⟩⟩
  · split at h
    · cases h
    · rename_i sub hsub
      split at h
      · cases h
      · rename_i sub' happly
        injection h with _ h
        exact ⟨not_le.mp hid, .inr ⟨hdelta, sub, sub', hsub, happly, h.symm⟩⟩

def markRefunded (σ : Store) (record : SubscriptionPreConsumeRecord) : Store :=
  { σ with records := σ.records.save { record with status := .refunded } }

/-- The refund of a pre-consume in which no statement fails. -/
def refundSubscriptionPreConsume (σ : Store) (requestId : String) : Tx Store Unit :=
  if trimSpace requestId = "" then .rollback "requestId is empty"
  else
    match σ.findRecord requestId with
    | none => .rollback recordNotFound
    | some record =>
      if record.status = .refunded then .commit () σ
      -- nothing was taken: the record is closed without touching the subscription
      else if record.preConsumed ≤ 0 then .commit () (markRefunded σ record)
      else
        match postConsumeUserSubscriptionDelta σ record.userSubscriptionId (-record.preConsumed)
            (.refunded record.userSubscriptionId requestId record.preConsumed) with
        | .commit _ σ' => .commit () (markRefunded σ' record)
        | .rollback e => .rollback e
        | .diverge => .diverge

/-- A committed refund found its record; an open record with a positive amount
gave the amount back to its subscription. -/
theorem refundSubscriptionPreConsume_commit {u : Unit}
    (h : refundSubscriptionPreConsume σ requestId = .commit u σ') :
    ∃ record, σ.findRecord requestId = some record ∧ ((record.status = .refunded ∧ σ' = σ) ∨
        (record.status ≠ .refunded ∧ record.preConsumed ≤ 0 ∧ σ' = markRefunded σ record) ∨
        (record.status ≠ .refunded ∧ 0 < record.preConsumed ∧ ∃ sub sub',
          σ.subs.find? record.userSubscriptionId = some sub ∧
          applyDelta sub (-record.preConsumed) = .ok sub' ∧
          σ' = markRefunded (σ.saveSub sub'
            [.refunded record.userSubscriptionId requestId record.preConsumed]) record)) := by
  unfold refundSubscriptionPreConsume at h
  split_ifs at h
  split at h
  · cases h
  · rename_i record hrecord
    refine ⟨record, hrecord, ?_⟩
    -- closed before, nothing to give back, or both rows are saved
    split_ifs at h with hdone hzero
    · injection h with _ h
      exact .inl ⟨hdone, h.symm⟩
    · injection h with _ h
      exact .inr (.inl ⟨hdone, hzero, h.symm⟩)
    · split at h
      · rename_i σ₁ hpost
        injection h with _ h
        obtain ⟨-, ⟨hdelta, -⟩ | ⟨-, sub, sub', hsub, happly, rfl⟩⟩ :=
          postConsumeUserSubscriptionDelta_commit hpost
        · omega
        · exact .inr (.inr ⟨hdone, not_le.mp hzero, sub, sub', hsub, happly, h.symm⟩)
      · cases h
      · cases h

/-! ### Resets -/

/-- The row that `resetUserSubscriptionTx` saves. -/
def resetUserSubscriptionTx (zone : Int) (sub : UserSubscription) (plan : SubscriptionPlan)
    (now : Int) (advanceResetTime : Bool) : UserSubscription :=
  if advanceResetTime then
    let nextReset := calcNextResetTime zone now plan sub.endTime
    { sub with
      amountUsed := 0
      nextResetTime := nextReset
      lastResetTime := if 0 < nextReset then now else 0 }
  else { sub with amountUsed := 0 }

theorem resetUserSubscriptionTx_id (zone : Int) (sub : UserSubscription)
    (plan : SubscriptionPlan) (now : Int) (advance : Bool) :
    (resetUserSubscriptionTx zone sub plan now advance).id = sub.id := by
  cases advance <;> rfl

structure SubscriptionResetResult where
  planId : Int
  matchedCount : Nat
  resetCount : Nat
  userCount : Nat
  advanceResetTime : Bool
  planTitle : String
  affectedUserIds : List Int

def buildSubscriptionResetResult (plan : SubscriptionPlan) (subs : List UserSubscription)
    (advanceResetTime : Bool) : SubscriptionResetResult :=
  let userIds := (subs.map UserSubscription.userId).reverse.dedup.reverse
  ⟨plan.id, subs.length, subs.length, userIds.length, advanceResetTime, plan.title, userIds⟩

/-- Reset the given rows one after the other. -/
def resetAll (zone : Int) (plan : SubscriptionPlan) (now : Int) (advance : Bool) :
    List UserSubscription → Store → Store
  | [], σ => σ
  | sub :: rest, σ =>
    resetAll zone plan now advance rest
      (σ.saveSub (resetUserSubscriptionTx zone sub plan now advance)
        [.adminReset sub.id now advance])

def adminResetUserSubscriptionsByPlan (zone : Int) (σ : Store) (userId planId now : Int)
    (advance : Bool) : Tx Store SubscriptionResetResult :=
  if userId ≤ 0 ∨ planId ≤ 0 then .rollback "invalid userId or planId"
  else
    match getSubscriptionPlanByIdTx σ planId with
    | .error e => .rollback e
    | .ok plan =>
      match subsByEnd σ fun s => s.userId = userId && s.planId = plan.id && isLive now s with
      | [] => .rollback "该用户没有有效的此套餐订阅"
      | subs =>
        .commit (buildSubscriptionResetResult plan subs advance)
          (resetAll zone plan now advance subs σ)

/-- The users' subscriptions are visited in the order of the user ids. -/
def adminResetPlanSubscriptions (zone : Int) (σ : Store) (planId now : Int)
    (advance : Bool) : Tx Store SubscriptionResetResult :=
  if planId ≤ 0 then .rollback "invalid planId"
  else
    match getSubscriptionPlanByIdTx σ planId with
    | .error e => .rollback e
    | .ok plan =>
      let subs := (subsByEnd σ fun s => s.planId = plan.id && isLive now s).insertionSort
        fun a b => a.userId ≤ b.userId
      .commit (buildSubscriptionResetResult plan subs advance)
        (resetAll zone plan now advance subs σ)

/-- The page size of the two background jobs. -/
def pageSize (limit : Int) : Nat := if limit ≤ 0 then 200 else limit.toNat

/-- One transaction for each due subscription; the count is `none` when a reset
loop does not end. -/
def resetDueFrom (zone now : Int) : List UserSubscription → Store → Nat → Store × Option Nat
  | [], σ, count => (σ, some count)
  | sub :: rest, σ, count =>
    match getSubscriptionPlanByIdTx σ sub.planId with
    -- a row without its plan is skipped, and stays due
    | .error _ => resetDueFrom zone now rest σ count
    | .ok plan =>
      match σ.subs.find? sub.id with
      | none => resetDueFrom zone now rest σ count
      | some locked =>
        -- the row may have been reset since the page was read
        if 0 < locked.nextResetTime ∧ locked.nextResetTime ≤ now then
          match applyReset σ locked now
              (maybeResetUserSubscriptionWithPlanTx zone locked plan now) with
          | none => (σ, none)
          | some (_, σ') => resetDueFrom zone now rest σ' (count + 1)
        else resetDueFrom zone now rest σ count

def resetDueSubscriptions (zone : Int) (σ : Store) (limit now : Int) : Store × Option Nat :=
  let due := (σ.subs.rows.filter fun s =>
    0 < s.nextResetTime && s.nextResetTime ≤ now && s.status = .active).insertionSort
      fun a b => a.nextResetTime ≤ b.nextResetTime
  resetDueFrom zone now (due.take (pageSize limit)) σ 0

/-! ### The end of a subscription -/

/-- Undo the group change of `sub`; the text is the group the user falls back
to, empty when the group stays. -/
def downgradeUserGroupForSubscriptionTx (σ : Store) (sub : UserSubscription) (now : Int) :
    Except String (String × Store) :=
  let downgradeGroup := trimSpace sub.downgradeGroup
  let upgradeGroup := trimSpace sub.upgradeGroup
  if downgradeGroup = "" ∧ upgradeGroup = "" then .ok ("", σ)
  else
    match getUserGroupByIdTx σ sub.userId with
    | .error e => .error e
    | .ok currentGroup =>
      -- another live upgrading subscription keeps the current group
      if σ.subs.rows.any fun s => s.userId = sub.userId && isLive now s && s.id ≠ sub.id &&
          s.upgradeGroup ≠ "" then .ok ("", σ)
      else if downgradeGroup = "" ∧ currentGroup ≠ upgradeGroup then .ok ("", σ)
      else
        let target := if downgradeGroup = "" then trimSpace sub.prevUserGroup else downgradeGroup
        if target = "" ∨ target = currentGroup then .ok ("", σ)
        else .ok (target, σ.setUserGroup sub.userId target)

/-- Undoing a group change writes the users only. -/
theorem downgradeUserGroupForSubscriptionTx_users {target : String}
    (h : downgradeUserGroupForSubscriptionTx σ sub now = .ok (target, σ')) :
    ∃ users, σ' = { σ with users } := by
  unfold downgradeUserGroupForSubscriptionTx at h
  dsimp only at h
  split at h
  · cases h
    exact ⟨σ.users, rfl⟩
  · split at h
    · cases h
    · split_ifs at h <;> cases h <;> exact ⟨_, rfl⟩

/-- What the two administrative calls report about the user's group. -/
def groupMessage (target : String) : String := if target = "" then "" else "用户分组将回退到 " ++ target

/-- The row of a subscription that is cancelled now. -/
def cancel (sub : UserSubscription) (now : Int) : UserSubscription :=
  { sub with status := .cancelled, endTime := now }

def adminInvalidateUserSubscription (σ : Store) (id now : Int) : Tx Store String :=
  if id ≤ 0 then .rollback "invalid userSubscriptionId"
  else
    match σ.subs.find? id with
    | none => .rollback recordNotFound
    | some sub =>
      match downgradeUserGroupForSubscriptionTx (σ.saveSub (cancel sub now) [])
          (cancel sub now) now with
      | .error e => .rollback e
      | .ok (target, σ') => .commit (groupMessage target) σ'

variable {r : String}

theorem adminInvalidateUserSubscription_commit
    (h : adminInvalidateUserSubscription σ id now = .commit r σ') :
    ∃ sub target, σ.subs.find? id = some sub ∧
      downgradeUserGroupForSubscriptionTx (σ.saveSub (cancel sub now) []) (cancel sub now) now
        = .ok (target, σ') := by
  unfold adminInvalidateUserSubscription at h
  split_ifs at h
  split at h
  · cases h
  · rename_i sub hsub
    split at h
    · cases h
    · rename_i target σ₁ hdown
      injection h with _ h
      exact ⟨sub, target, hsub, h ▸ hdown⟩

def adminDeleteUserSubscription (σ : Store) (id now : Int) : Tx Store String :=
  if id ≤ 0 then .rollback "invalid userSubscriptionId"
  else
    match σ.subs.find? id with
    | none => .rollback recordNotFound
    | some sub =>
      match downgradeUserGroupForSubscriptionTx σ sub now with
      | .error e => .rollback e
      | .ok (target, σ') => .commit (groupMessage target) { σ' with subs := σ'.subs.delete id }

theorem adminDeleteUserSubscription_commit
    (h : adminDeleteUserSubscription σ id now = .commit r σ') :
    ∃ sub target σ₁, σ.subs.find? id = some sub ∧ downgradeUserGroupForSubscriptionTx σ sub now =
      .ok (target, σ₁) ∧ σ' = { σ₁ with subs := σ₁.subs.delete id } := by
  unfold adminDeleteUserSubscription at h
  split_ifs at h
  split at h
  · cases h
  · rename_i sub hsub
    split at h
    · cases h
    · rename_i target σ₁ hdown
      injection h with _ h
      exact ⟨sub, target, σ₁, hsub, hdown, h.symm⟩

/-- `status = 'active' AND end_time > 0 AND end_time <= now`. -/
def isOverdue (now : Int) (sub : UserSubscription) : Bool :=
  sub.status = .active && 0 < sub.endTime && sub.endTime ≤ now

/-- The most recently ended expired subscription of a user that defines a group
transition. -/
def lastExpired (σ : Store) (userId : Int) : Option UserSubscription :=
  (subsByEnd σ fun s => s.userId = userId && s.status = .expired &&
    (s.downgradeGroup ≠ "" || s.upgradeGroup ≠ "")).getLast?

/-- The group part of the expiry transaction of one user. -/
def expireGroup (σ : Store) (userId now : Int) : Store :=
  if σ.subs.rows.any fun s => s.userId = userId && isLive now s && s.upgradeGroup ≠ "" then σ
  else
    match lastExpired σ userId with
    | none => σ
    | some last =>
      let currentGroup := σ.userGroup userId
      let downgradeGroup := trimSpace last.downgradeGroup
      let upgradeGroup := trimSpace last.upgradeGroup
      let prevGroup := trimSpace last.prevUserGroup
      if downgradeGroup = "" ∧
        (upgradeGroup = "" ∨ prevGroup = "" ∨ currentGroup ≠ upgradeGroup) then σ
      else
        let target := if downgradeGroup = "" then prevGroup else downgradeGroup
        if target = "" ∨ target = currentGroup then σ else σ.setUserGroup userId target

theorem expireGroup_users (σ : Store) (userId now : Int) :
    ∃ users, expireGroup σ userId now = { σ with users } := by
  unfold expireGroup
  split_ifs
  · exact ⟨σ.users, rfl⟩
  · split
    · exact ⟨σ.users, rfl⟩
    · dsimp only
      split_ifs
      · exact ⟨σ.users, rfl⟩
      all_goals exact ⟨_, rfl⟩

/-- The row of a subscription that has expired. -/
def expire (sub : UserSubscription) : UserSubscription := { sub with status := .expired }

/-- Mark the overdue subscriptions of a user. -/
def expireRows (σ : Store) (userId now : Int) : Store :=
  { σ with
    subs := σ.subs.update (fun s => s.userId = userId && isOverdue now s) expire fun _ _ => rfl }

theorem mem_expireRows : sub ∈ (expireRows σ userId now).subs.rows ↔ ∃ s ∈ σ.subs.rows,
      sub = if s.userId = userId && isOverdue now s then expire s else s := by
  simp only [expireRows, Table.update, List.mem_map, eq_comm]

/-- The expiry transaction of one user. -/
def expireUser (σ : Store) (userId now : Int) : Store :=
  expireGroup (expireRows σ userId now) userId now

/-- The users of one page of overdue subscriptions.  The source visits them in
the random order of a map; their transactions touch different rows. -/
def overdueUsers (σ : Store) (limit now : Int) : List Int :=
  (((subsByEnd σ (isOverdue now)).take (pageSize limit)).map UserSubscription.userId).dedup.filter
    (0 < ·)

def expireDueSubscriptions (σ : Store) (limit now : Int) : Store :=
  (overdueUsers σ limit now).foldl (fun σ userId => expireUser σ userId now) σ

/-! ### Queries -/

def hasActiveUserSubscription (σ : Store) (userId now : Int) : Except String Bool :=
  if userId ≤ 0 then .error "invalid userId"
  else .ok (σ.subs.rows.any fun s => s.userId = userId && isLive now s)

def userActiveSubscriptionsAllowWalletOverflow (σ : Store) (userId now : Int) :
    Except String Bool :=
  if userId ≤ 0 then .error "invalid userId"
  else .ok (!σ.subs.rows.any fun s => s.userId = userId && isLive now s && !s.allowWalletOverflow)
