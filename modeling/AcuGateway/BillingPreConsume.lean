/-
Opening a billing session.

* `SubCharged` — what a pre-consume does to the subscriptions: it charges one of
  them and leaves the others up to the period resets that were due;
* `openSession_error` — a session that cannot be opened leaves every balance
  as it was, once the token has its quota back;
* `Opened` — a session that is opened has charged one funding source, and the
  token, by its `preConsumedQuota`;
* `preConsumeBilling_balanced` — both for every billing preference, also when
  one source was tried after the other.
-/
import AcuGateway.BillingSession
import AcuGateway.SubscriptionRun
import Mathlib.Algebra.Group.Int.Even

open List BillingSession Option Table
open Text (trimSpace)

/-! ### Charging a subscription -/

/-- The row after a call, up to the period reset that was due. -/
def UpToReset (zone now : Int) (plans : Table SubscriptionPlan.id)
    (row row' : UserSubscription) : Prop :=
  row' = row ∨ ∃ plan, plans.find? row.planId = some plan ∧ row' = afterReset zone now plan row

/-- Add `amount` to what is used; the column holds 64-bit words. -/
def UserSubscription.charge (sub : UserSubscription) (amount : Int) : UserSubscription :=
  { sub with amountUsed := wrap64 (sub.amountUsed + amount) }

/-- Subscription `k` of the user is charged with `amount`, and no other one. -/
structure SubCharged (zone now userId amount : Int) (σ σ' : Store) (k : Int) : Prop where
  charged : ∃ row ∈ candidates σ userId now, row.id = k ∧
    ∃ plan, σ.plans.find? row.planId = some plan ∧
      ¬ (0 < row.amountTotal ∧
        wrap64 (row.amountTotal - (afterReset zone now plan row).amountUsed) < amount) ∧
      σ'.subs.find? k = some ((afterReset zone now plan row).charge amount)
  others : ∀ j, j ≠ k → Option.Rel (UpToReset zone now σ.plans) (σ.subs.find? j) (σ'.subs.find? j)

theorem afterReset_id (zone now : Int) (plan : SubscriptionPlan) (sub : UserSubscription) :
    (afterReset zone now plan sub).id = sub.id := by
  obtain ⟨_, _, _, -, h⟩ := afterReset_eq zone now plan sub
  rw [h]

variable {now zone amount : Int} {l : List UserSubscription} {σ σ' : Store}
  {res : SubscriptionPreConsumeResult}

/-- A due reset of the first row of a current list writes that row only. -/
theorem applyReset_some {plan : SubscriptionPlan} {sub sub' : UserSubscription}
    (hcur : Current σ (sub :: l))
    (h : applyReset σ sub now (maybeResetUserSubscriptionWithPlanTx zone sub plan now)
      = some (sub', σ')) :
    sub' = afterReset zone now plan sub ∧ Current σ' (sub' :: l) ∧
      (∀ j, j ≠ sub.id → σ'.subs.find? j = σ.subs.find? j) ∧
      σ'.users = σ.users ∧ σ'.tokens = σ.tokens ∧ σ'.plans = σ.plans ∧
      σ'.records = σ.records := by
  have hid := afterReset_id zone now plan sub
  unfold afterReset at hid ⊢
  rcases applyReset_eq_some h with ⟨hr, rfl, rfl⟩ | ⟨hr, rfl⟩ | ⟨hr, rfl⟩
  · rw [hr]
    exact ⟨rfl, hcur, fun _ _ => rfl, rfl, rfl, rfl, rfl⟩
  · rw [hr] at hid ⊢
    refine ⟨rfl, hcur.cons_save hid [], fun j hj => ?_, rfl, rfl, rfl, rfl⟩
    exact find?_save_ne (hid.symm ▸ hj)
  · rw [hr] at hid ⊢
    refine ⟨rfl, hcur.cons_save hid _, fun j hj => ?_, rfl, rfl, rfl, rfl⟩
    exact find?_save_ne (hid.symm ▸ hj)

/-- What the loop over the candidates does when it commits. -/
structure ChargesFrom (zone now : Int) (requestId : String) (userId amount : Int) (σ σ' : Store)
    (l : List UserSubscription) (res : SubscriptionPreConsumeResult) (row : UserSubscription) :
    Prop where
  mem : row ∈ l
  subscriptionId : res.userSubscriptionId = row.id
  preConsumed : res.preConsumed = amount
  charged : ∃ plan, σ.plans.find? row.planId = some plan ∧ ¬ (0 < row.amountTotal ∧
      wrap64 (row.amountTotal - (afterReset zone now plan row).amountUsed) < amount) ∧
    σ'.subs.find? row.id = some ((afterReset zone now plan row).charge amount)
  listed : ∀ x ∈ l, x.id ≠ row.id →
    ∃ x', σ'.subs.find? x.id = some x' ∧ UpToReset zone now σ.plans x x'
  unlisted : ∀ j, (∀ x ∈ l, x.id ≠ j) → σ'.subs.find? j = σ.subs.find? j
  users : σ'.users = σ.users
  tokens : σ'.tokens = σ.tokens
  plans : σ'.plans = σ.plans
  records : σ'.records = σ.records.insert
    (fun id => ⟨id, requestId, userId, row.id, amount, .consumed⟩) fun _ => rfl

variable {requestId : String} {userId : Int}

theorem preConsumeFrom_commit (hcur : Current σ l)
    (h : preConsumeFrom zone now requestId userId amount none l σ = .commit res σ') :
    ∃ row, ChargesFrom zone now requestId userId amount σ σ' l res row := by
  induction l generalizing σ with
  | nil => cases h
  | cons candidate rest ih =>
    have hdistinct : ∀ x ∈ rest, x.id ≠ candidate.id := by
      intro x hx heq
      have hnodup := hcur.nodup
      rw [map_cons, nodup_cons] at hnodup
      exact hnodup.1 (heq ▸ mem_map_of_mem hx)
    unfold preConsumeFrom at h
    split at h
    · cases h
    rename_i plan hplan
    have hplan := getSubscriptionPlanByIdTx_ok hplan
    split at h
    · cases h
    rename_i sub σ₁ happly
    obtain ⟨hsub, hcur₁, hframe, husers, htokens, hplans, hrecords⟩ := applyReset_some hcur happly
    have hid : sub.id = candidate.id := hsub ▸ afterReset_id ..
    have htotal : sub.amountTotal = candidate.amountTotal := hsub ▸ afterReset_amountTotal ..
    have hfound : σ₁.subs.find? candidate.id = some sub := hid ▸ hcur₁.head
    split_ifs at h with hroom
    · -- no room: the candidate keeps its reset, and the loop goes on
      obtain ⟨row, hrow⟩ := ih hcur₁.tail h
      have hne : row.id ≠ candidate.id := hdistinct row hrow.mem
      refine ⟨row, { hrow with
        mem := mem_cons_of_mem _ hrow.mem
        charged := hplans ▸ hrow.charged
        listed := ?_
        unlisted := ?_
        users := hrow.users.trans husers
        tokens := hrow.tokens.trans htokens
        plans := hrow.plans.trans hplans
        records := hrecords ▸ hrow.records }⟩
      · intro x hx hxrow
        rcases mem_cons.mp hx with rfl | hx
        · refine ⟨sub, ?_, .inr ⟨plan, hplan, hsub⟩⟩
          rw [hrow.unlisted x.id hdistinct, hfound]
        · exact hplans ▸ hrow.listed x hx hxrow
      · intro j hj
        rw [hrow.unlisted j fun x hx => hj x (mem_cons_of_mem _ hx)]
        exact hframe j fun heq => hj candidate (by simp) heq.symm
    · -- the candidate is charged
      injection h with hres h
      subst h hres
      have hother : ∀ j, j ≠ candidate.id →
          (σ₁.subs.save { sub with amountUsed := wrap64 (sub.amountUsed + amount) }).find? j =
              σ.subs.find? j := by
        intro j hj
        rw [find?_save_ne (by rw [← hid] at hj; exact hj)]
        exact hframe j hj
      refine ⟨candidate, ?_⟩
      exact {
        mem := by simp
        subscriptionId := hid
        preConsumed := rfl
        charged := by
          refine ⟨plan, hplan, by rwa [← htotal, ← hsub], ?_⟩
          rw [← hsub, ← hid]
          exact find?_save_self hcur₁.head
        listed := by
          intro x hx hne
          refine ⟨x, ?_, .inl rfl⟩
          show (σ₁.subs.save _).find? x.id = some x
          rw [hother x.id hne]
          exact hcur.found x hx
        unlisted := fun j hj => hother j fun heq => hj candidate (by simp) heq.symm
        users := husers
        tokens := htokens
        plans := hplans
        records := by rw [← hid, ← hrecords] }

/-- A request without a record that is pre-consumed charges one subscription and
has a record from then on. -/
structure NewCharge (zone now : Int) (requestId : String) (userId amount : Int) (σ σ' : Store)
    (res : SubscriptionPreConsumeResult) : Prop where
  request_ne : trimSpace requestId ≠ ""
  preConsumed : res.preConsumed = amount
  charged : SubCharged zone now userId amount σ σ' res.userSubscriptionId
  record : ∃ id, σ'.findRecord requestId =
    some ⟨id, requestId, userId, res.userSubscriptionId, amount, .consumed⟩
  users : σ'.users = σ.users
  tokens : σ'.tokens = σ.tokens

theorem preConsumeUserSubscription_commit (hnew : σ.findRecord requestId = none)
    (h : preConsumeUserSubscription zone σ requestId userId amount now = .commit res σ') :
    NewCharge zone now requestId userId amount σ σ' res := by
  unfold preConsumeUserSubscription preConsumeUserSubscriptionWith at h
  split_ifs at h with huser hrequest hamount
  rw [hnew] at h
  dsimp only at h
  split at h
  · cases h
  -- the candidates are the rows as they are stored now
  have hcur : Current σ (candidates σ userId now) := .subsByEnd σ _
  obtain ⟨row, hrow⟩ := preConsumeFrom_commit hcur h
  obtain ⟨plan, hplan, hroom, hcharged⟩ := hrow.charged
  refine ⟨hrequest, hrow.preConsumed, ⟨⟨row, hrow.mem, hrow.subscriptionId.symm, plan, hplan,
    hroom, by rwa [hrow.subscriptionId]⟩, ?_⟩, ?_, hrow.users, hrow.tokens⟩
  · intro j hj
    rw [hrow.subscriptionId] at hj
    -- the other candidates may have been reset on the way; all other rows are as before
    by_cases hlisted : ∃ x ∈ candidates σ userId now, x.id = j
    · obtain ⟨x, hx, rfl⟩ := hlisted
      obtain ⟨x', hx', hup⟩ := hrow.listed x hx hj
      rw [hx', hcur.found x hx]
      exact .some hup
    · rw [hrow.unlisted j fun x hx heq => hlisted ⟨x, hx, heq⟩]
      rcases σ.subs.find? j with _ | x
      · exact .none
      · exact .some (.inl rfl)
  · refine ⟨σ.records.seq, ?_⟩
    have hnone : σ.records.rows.find? (fun r => r.requestId = requestId) = none := hnew
    rw [Store.findRecord, hrow.records, hrow.subscriptionId]
    simp [Table.insert, find?_append, hnone]

/-! ### Charging the token -/

/-- How the quota of token `id` moves when the request is charged with `q`. -/
def tokenMove (relayInfo : RelayInfo) (q id : Int) (quota : Int × Int) : Int × Int :=
  if relayInfo.isPlayground = false ∧ id = relayInfo.tokenId then (quota.1 - q, quota.2 + q)
  else quota

variable {env : BillingEnv} {faults : Faults} {tokens : Tokens} {relayInfo : RelayInfo}

section Token

variable {tokens' : Tokens} {q : Int}

@[simp] theorem tokenMove_zero (id : Int) (quota : Int × Int) :
    tokenMove relayInfo 0 id quota = quota := by
  simp [tokenMove]

theorem tokenMove_playground (h : relayInfo.isPlayground = true) (id : Int) (quota : Int × Int) :
    tokenMove relayInfo q id quota = quota := by
  simp [tokenMove, h]

/-- Two moves are one. -/
theorem tokenMove_add (a b id : Int) (quota : Int × Int) :
    tokenMove relayInfo b id (tokenMove relayInfo a id quota) =
      tokenMove relayInfo (a + b) id quota := by
  unfold tokenMove
  split_ifs
  · exact Prod.ext (by dsimp only; omega) (by dsimp only; omega)
  · rfl

theorem map_tokenMove_self {id : Int} {quota : Option (Int × Int)}
    (h : ∀ p, tokenMove relayInfo q id p = p) : quota.map (tokenMove relayInfo q id) = quota := by
  rw [funext h]
  exact Option.map_id' ..

theorem orFault_ok {α : Type} {fault : Option String} {x : Except String α} {a : α}
    (h : orFault fault x = .ok a) : x = .ok a := by
  cases fault with
  | none => exact h
  | some e => cases h

theorem preConsumeTokenQuota_ok
    (h : preConsumeTokenQuota env faults tokens relayInfo q = .ok tokens') :
    tokens' = if relayInfo.isPlayground then tokens
      else addTokenQuota tokens relayInfo.tokenId (-q) env.now := by
  unfold preConsumeTokenQuota at h
  split_ifs at h ⊢ with _ hplayground
  · injection h with h
    exact h.symm
  · split at h
    · cases h
    · split_ifs at h
      exact decreaseTokenQuota_ok (orFault_ok h)

/-- Moving a token by `-q` is charging it with `q`. -/
theorem tokenQuota_charged (hplayground : relayInfo.isPlayground = false) (now k : Int) :
    tokenQuota (addTokenQuota tokens relayInfo.tokenId (-q) now) k =
      (tokenQuota tokens k).map (tokenMove relayInfo q k) := by
  rw [tokenQuota_addTokenQuota]
  rcases tokenQuota tokens k with _ | quota
  · rfl
  · simp only [map_some, tokenMove, hplayground, true_and]
    split_ifs
    · exact congrArg some (Prod.ext (by omega) (by omega))
    · rfl

/-- The effect of a charge that is made whatever the amount. -/
theorem tokenQuota_preConsume (h : preConsumeTokenQuota env faults tokens relayInfo q = .ok tokens')
    (k : Int) : tokenQuota tokens' k = (tokenQuota tokens k).map (tokenMove relayInfo q k) := by
  rw [preConsumeTokenQuota_ok h]
  by_cases hplayground : relayInfo.isPlayground = true
  · rw [if_pos hplayground, map_tokenMove_self (tokenMove_playground hplayground k)]
  · rw [if_neg hplayground]
    exact tokenQuota_charged (by simpa using hplayground) env.now k

/-- A charge of at most 0 does nothing. -/
theorem chargeToken_ok (h : BillingSession.chargeToken env faults tokens relayInfo q = .ok tokens')
    (k : Int) :
    tokenQuota tokens' k = (tokenQuota tokens k).map (tokenMove relayInfo (max q 0) k) := by
  unfold BillingSession.chargeToken at h
  split_ifs at h with hq
  · rw [max_eq_left hq.le]
    exact tokenQuota_preConsume h k
  · injection h with h
    rw [h, max_eq_right (not_lt.mp hq), map_tokenMove_self (tokenMove_zero k)]

/-- What was charged is given back when the compensating statement succeeds. -/
theorem tokenQuota_returnToken (hcomp : faults .increaseTokenQuota = none) (k : Int) :
    tokenQuota (BillingSession.returnToken env faults tokens relayInfo q) k =
      (tokenQuota tokens k).map (tokenMove relayInfo (-(max q 0)) k) := by
  unfold BillingSession.returnToken
  split_ifs with h
  · obtain ⟨hq, hplayground⟩ := h
    rw [hcomp, increaseTokenQuota_nonneg hq.le]
    show tokenQuota (addTokenQuota tokens relayInfo.tokenId q env.now) k = _
    have hmove := @tokenQuota_charged tokens relayInfo (-q) hplayground env.now k
    rw [neg_neg] at hmove
    rw [hmove, max_eq_left hq.le]
  · by_cases hplayground : relayInfo.isPlayground = true
    · rw [map_tokenMove_self (tokenMove_playground hplayground k)]
    · have hq : q ≤ 0 := not_lt.mp fun hq => h ⟨hq, by simpa using hplayground⟩
      rw [max_eq_right hq, neg_zero, map_tokenMove_self (tokenMove_zero k)]

end Token

/-! ### Opening one session -/

/-- The stores have the same balances: only the access time of a token may
differ. -/
structure SameBalances (σ σ' : Store) : Prop where
  store : σ' = { σ with tokens := σ'.tokens }
  tokens : ∀ id, tokenQuota σ'.tokens id = tokenQuota σ.tokens id

theorem SameBalances.refl (σ : Store) : SameBalances σ σ := ⟨rfl, fun _ => rfl⟩

theorem SameBalances.trans {σ'' : Store} (h : SameBalances σ σ') (h' : SameBalances σ' σ'') :
    SameBalances σ σ'' := by
  refine ⟨?_, fun id => (h'.tokens id).trans (h.tokens id)⟩
  rw [h'.store, h.store]

/-- What the funding source of an opened session has been charged. -/
def FundingOpened (env : BillingEnv) (relayInfo : RelayInfo) (σ σ' : Store)
    (s : BillingSession) : Prop :=
  match s.funding with
  | .wallet userId consumed =>
    userId = relayInfo.userId ∧ consumed = s.preConsumedQuota ∧ 0 < getUserQuota σ.users userId ∧
      σ'.users = addUserQuota σ.users userId (-s.preConsumedQuota) ∧ σ'.subs = σ.subs
  | .subscription f =>
    f.requestId = relayInfo.requestId ∧ trimSpace f.requestId ≠ "" ∧
      f.preConsumed = s.preConsumedQuota ∧ 0 < f.preConsumed ∧
      s.relayInfo.subscriptionId = f.subscriptionId ∧ σ'.users = σ.users ∧
      SubCharged env.zone env.now relayInfo.userId s.preConsumedQuota σ σ' f.subscriptionId ∧
      ∃ id, σ'.findRecord f.requestId = some
        ⟨id, f.requestId, relayInfo.userId, f.subscriptionId, s.preConsumedQuota, .consumed⟩

/-- A session that has been opened for a request of the given amount. -/
structure Opened (env : BillingEnv) (relayInfo : RelayInfo) (amount : Int) (σ σ' : Store)
    (s : BillingSession) : Prop where
  tokenId : s.relayInfo.tokenId = relayInfo.tokenId
  playground : s.relayInfo.isPlayground = relayInfo.isPlayground
  nonneg : 0 ≤ s.preConsumedQuota
  le : s.preConsumedQuota ≤ max amount 1
  tokenConsumed : s.tokenConsumed = s.preConsumedQuota
  extraReserved : s.extraReserved = 0
  fundingSettled : s.fundingSettled = false
  settled : s.settled = false
  refunded : s.refunded = false
  tokens : ∀ id, tokenQuota σ'.tokens id =
    (tokenQuota σ.tokens id).map (tokenMove relayInfo s.preConsumedQuota id)
  funding : FundingOpened env relayInfo σ σ' s

variable {s : BillingSession} {relayInfo' : RelayInfo} {quota : Int}
  {out : Except NewAPIError BillingSession}
  {e : NewAPIError} {funding : FundingSource}

section Session

namespace BillingSession

/-- The session after a successful pre-consume. -/
def opened (env : BillingEnv) (s : BillingSession) (quota : Int) (funding : FundingSource) :
    BillingSession :=
  syncRelayInfo
    { s with
      trusted := s.trusted || s.shouldTrust env
      funding
      tokenConsumed := if 0 < quota then quota else s.tokenConsumed
      preConsumedQuota := quota }

theorem preConsume_cases (h : preConsume env faults σ s quota = some (out, σ')) :
    ((∃ e, out = .error e) ∧ σ' = σ) ∨
      ∃ tokens, chargeToken env faults σ.tokens s.relayInfo (s.effectiveQuota env quota) =
        .ok tokens ∧ ((∃ e, out = .error e) ∧ σ' = { σ with
            tokens := returnToken env faults tokens s.relayInfo
              (if 0 < s.effectiveQuota env quota then s.effectiveQuota env quota
                else s.tokenConsumed) } ∨
          ∃ funding, s.funding.preConsume env faults { σ with tokens }
              (s.effectiveQuota env quota) = .commit funding σ' ∧
            out = .ok (opened env s (s.effectiveQuota env quota) funding)) := by
  unfold preConsume at h
  dsimp only at h
  split at h
  · obtain ⟨rfl, rfl⟩ : _ = out ∧ σ = σ' := by simpa using h
    exact .inl ⟨⟨_, rfl⟩, rfl⟩
  rename_i tokens htokens
  refine .inr ⟨tokens, htokens, ?_⟩
  split at h
  · cases h
  · obtain ⟨rfl, rfl⟩ : _ = out ∧ _ = σ' := by simpa using h
    exact .inl ⟨⟨_, rfl⟩, rfl⟩
  · rename_i funding σ₁ hfunding
    obtain ⟨rfl, rfl⟩ : _ = out ∧ σ₁ = σ' := by simpa using h
    exact .inr ⟨funding, hfunding, rfl⟩

/-- A trusted session charges 0. -/
theorem effectiveQuota_bounds (hquota : 0 ≤ quota) :
    0 ≤ s.effectiveQuota env quota ∧ s.effectiveQuota env quota ≤ max quota 1 := by
  unfold effectiveQuota
  split_ifs <;> omega

/-- A failed pre-consume of a new session leaves every balance as it was. -/
theorem preConsume_error (hcomp : faults .increaseTokenQuota = none) (hs : s.tokenConsumed = 0)
    (h : preConsume env faults σ s quota = some (.error e, σ')) : SameBalances σ σ' := by
  rcases preConsume_cases h with ⟨-, rfl⟩ | ⟨tokens, htokens, ⟨-, rfl⟩ | ⟨_, -, hout⟩⟩
  · exact .refl _
  · refine ⟨rfl, fun id => ?_⟩
    -- the amount that is given back is the amount that was charged
    have hamount : ∀ q : Int, max (if 0 < q then q else s.tokenConsumed) 0 = max q 0 := by
      intro q
      split_ifs <;> omega
    rw [tokenQuota_returnToken hcomp, hamount, chargeToken_ok htokens, Option.map_map]
    rcases tokenQuota σ.tokens id with _ | q
    · rfl
    · refine congrArg some ((tokenMove_add _ _ id q).trans ?_)
      rw [add_neg_cancel, tokenMove_zero]
  · cases hout

end BillingSession

variable {q : Int} {f : FundingSource}

/-- The parts of `Opened` that do not depend on the kind of the source. -/
theorem opened_of_charged (hq : 0 ≤ q) (hle : q ≤ max amount 1)
    (hrelay : s.relayInfo.tokenId = relayInfo.tokenId ∧
      s.relayInfo.isPlayground = relayInfo.isPlayground)
    (hnew : s.tokenConsumed = 0 ∧ s.extraReserved = 0 ∧ s.fundingSettled = false ∧
      s.settled = false ∧ s.refunded = false)
    (htokens : chargeToken env faults σ.tokens s.relayInfo q = .ok tokens)
    (hstore : σ'.tokens = tokens)
    (hfunding : FundingOpened env relayInfo σ σ' (s.opened env q funding)) :
    Opened env relayInfo amount σ σ' (s.opened env q funding) := by
  obtain ⟨hconsumed, hextra, hfs, hsettled, hrefunded⟩ := hnew
  refine ⟨(syncedInfo_tokenId _).trans hrelay.1, (syncedInfo_isPlayground _).trans hrelay.2, hq,
    hle, ?_, hextra, hfs, hsettled, hrefunded, fun id => ?_, hfunding⟩
  · show (if 0 < q then q else s.tokenConsumed) = q
    rw [hconsumed]
    split_ifs <;> omega
  · have hmove : tokenMove s.relayInfo q id = tokenMove relayInfo q id := by
      funext quota
      rw [tokenMove, tokenMove, hrelay.1, hrelay.2]
    rw [hstore, chargeToken_ok htokens, max_eq_left hq, hmove]
    rfl

theorem wallet_preConsume_commit (hq : 0 ≤ q)
    (h : FundingSource.preConsume env faults σ q (.wallet userId 0) = .commit f σ') :
    f = .wallet userId q ∧ σ' = { σ with users := addUserQuota σ.users userId (-q) } := by
  unfold FundingSource.preConsume at h
  dsimp only at h
  split_ifs at h with hzero
  · obtain rfl : q = 0 := by omega
    injection h with hf hσ
    rw [neg_zero, addUserQuota_zero]
    exact ⟨hf.symm, hσ.symm⟩
  · split at h
    · cases h
    · rename_i users husers
      injection h with hf hσ
      rw [← decreaseUserQuota_ok (orFault_ok husers)]
      exact ⟨hf.symm, hσ.symm⟩

theorem subscription_preConsume_commit {g : SubscriptionFunding}
    (hnew : σ.findRecord g.requestId = none)
    (h : FundingSource.preConsume env faults σ q (.subscription g) = .commit f σ') :
    ∃ res, NewCharge env.zone env.now g.requestId g.userId g.amount σ σ' res ∧
      f = .subscription { g with
        subscriptionId := res.userSubscriptionId
        preConsumed := res.preConsumed
        amountTotal := res.amountTotal
        amountUsedAfter := res.amountUsedAfter } := by
  unfold FundingSource.preConsume at h
  dsimp only at h
  rcases hfault : faults .preConsumeUserSubscription with _ | e
  · rw [hfault] at h
    split at h
    · rename_i res σ₁ hres
      injection h with hf hσ
      subst hσ
      exact ⟨res, preConsumeUserSubscription_commit hnew hres, hf.symm⟩
    · cases h
    · cases h
  · rw [hfault] at h
    cases h

end Session

/-! ### The factory -/

/-- An attempt that keeps the balances when it fails and charges one source when
it succeeds. -/
structure Sound (env : BillingEnv) (preConsumedQuota : Int) (relayInfo : RelayInfo) (σ : Store)
    (a : Attempt) : Prop where
  error : ∀ e relayInfo' σ', a = some (.error e, relayInfo', σ') →
    SameBalances σ σ' ∧ ∃ userQuota, relayInfo' = { relayInfo with userQuota }
  opened : 0 ≤ preConsumedQuota → σ.findRecord relayInfo.requestId = none →
    ∀ s relayInfo' σ', a = some (.ok s, relayInfo', σ') →
      Opened env relayInfo preConsumedQuota σ σ' s

section Attempts

variable {σ₁ : Store} {relayInfo₁ : RelayInfo} {preConsumedQuota : Int} {a : Attempt}

theorem sound_refuse : Sound env preConsumedQuota relayInfo σ (Attempt.refuse e relayInfo σ) := by
  refine ⟨fun e' relayInfo' σ' h => ?_, fun _ _ s relayInfo' σ' h => ?_⟩
  · obtain ⟨-, rfl, rfl⟩ : e = e' ∧ relayInfo = relayInfo' ∧ σ = σ' := by
      simpa [Attempt.refuse] using h
    exact ⟨.refl σ, relayInfo.userQuota, rfl⟩
  · cases h

theorem openSession_some
    (h : openSession env faults σ relayInfo funding quota = some (out, relayInfo', σ')) :
    preConsume env faults σ { relayInfo, funding } quota = some (out, σ') ∧
      ∀ e, out = .error e → relayInfo' = relayInfo := by
  obtain ⟨r, hr, heq⟩ := map_eq_some_iff.mp h
  obtain ⟨out', σ''⟩ := r
  obtain ⟨rfl, hinfo, rfl⟩ : out' = out ∧ _ = relayInfo' ∧ σ'' = σ' := by simpa using heq
  refine ⟨hr, fun e he => ?_⟩
  subst he
  exact hinfo.symm

section

variable (hcomp : faults .increaseTokenQuota = none)

include hcomp

/-- A session that cannot be opened leaves every balance as it was. -/
theorem openSession_error
    (h : openSession env faults σ relayInfo funding quota = some (.error e, relayInfo', σ')) :
    SameBalances σ σ' ∧ relayInfo' = relayInfo := by
  obtain ⟨hpre, hinfo⟩ := openSession_some h
  exact ⟨preConsume_error hcomp rfl hpre, hinfo e rfl⟩

theorem sound_tryWallet : Sound env preConsumedQuota relayInfo σ
      (tryWallet env faults σ relayInfo preConsumedQuota) := by
  unfold tryWallet
  split
  · exact sound_refuse
  rename_i userQuota hquota
  -- a quota that could be read is the stored one
  have hquota : userQuota = getUserQuota σ.users relayInfo.userId := by
    have := orFault_ok hquota
    injection this with this
    exact this.symm
  split_ifs with hzero hshort
  · exact sound_refuse
  · exact sound_refuse
  refine ⟨fun e relayInfo' σ' h => ?_, fun hpre _ s relayInfo' σ' h => ?_⟩
  · obtain ⟨hsame, rfl⟩ := openSession_error hcomp h
    exact ⟨hsame, userQuota, rfl⟩
  · obtain ⟨h, -⟩ := openSession_some h
    rcases preConsume_cases h with
      ⟨⟨e, he⟩, -⟩ | ⟨tokens, htokens, ⟨⟨e, he⟩, -⟩ | ⟨funding, hfunding, hout⟩⟩
    · cases he
    · cases he
    injection hout with hs
    obtain ⟨rfl, rfl⟩ := wallet_preConsume_commit (effectiveQuota_bounds hpre).1 hfunding
    rw [hs]
    refine opened_of_charged (effectiveQuota_bounds hpre).1 (effectiveQuota_bounds hpre).2
      ⟨rfl, rfl⟩ ⟨rfl, rfl, rfl, rfl, rfl⟩ htokens rfl ?_
    exact ⟨rfl, rfl, by omega, rfl, rfl⟩

theorem sound_trySubscription : Sound env preConsumedQuota relayInfo σ
      (trySubscription env faults σ relayInfo preConsumedQuota) := by
  refine ⟨fun e relayInfo' σ' h => ?_, fun hpre hnew s relayInfo' σ' h => ?_⟩
  · obtain ⟨hsame, rfl⟩ := openSession_error hcomp h
    exact ⟨hsame, relayInfo'.userQuota, rfl⟩
  · unfold trySubscription at h
    dsimp only at h
    generalize hsub : (if preConsumedQuota ≤ 0 then 1 else preConsumedQuota) = subConsume at h
    obtain ⟨hpos, hle⟩ : 0 < subConsume ∧ subConsume ≤ max preConsumedQuota 1 := by
      rw [← hsub]
      split_ifs <;> omega
    obtain ⟨h, -⟩ := openSession_some h
    rcases preConsume_cases h with
      ⟨⟨e, he⟩, -⟩ | ⟨tokens, htokens, ⟨⟨e, he⟩, -⟩ | ⟨funding, hfunding, hout⟩⟩
    · cases he
    · cases he
    injection hout with hs
    -- a subscription is never trusted
    have hq : effectiveQuota env
        { relayInfo := relayInfo
          funding := .subscription ⟨relayInfo.requestId, relayInfo.userId, subConsume, 0, 0, 0, 0⟩ }
        subConsume = subConsume := by
      simp [effectiveQuota, shouldTrust, FundingSource.source]
    rw [hq] at htokens hfunding hs
    obtain ⟨res, hcharge, rfl⟩ := subscription_preConsume_commit hnew hfunding
    rw [hs]
    refine opened_of_charged hpos.le hle ⟨rfl, rfl⟩ ⟨rfl, rfl, rfl, rfl, rfl⟩ htokens
      hcharge.tokens ?_
    have hcharged := hcharge.charged
    have hpreConsumed : 0 < res.preConsumed := by rwa [hcharge.preConsumed]
    exact ⟨rfl, hcharge.request_ne, hcharge.preConsumed, hpreConsumed, rfl,
      hcharge.users, ⟨hcharged.charged, hcharged.others⟩, hcharge.record⟩

end

/-- An attempt that begins with the balances of an earlier store. -/
theorem Sound.after (hsame : SameBalances σ σ₁)
    (hinfo : ∃ userQuota, relayInfo₁ = { relayInfo with userQuota })
    (h : Sound env preConsumedQuota relayInfo₁ σ₁ a) :
    Sound env preConsumedQuota relayInfo σ a := by
  obtain ⟨userQuota, rfl⟩ := hinfo
  obtain ⟨tokens, rfl⟩ : ∃ tokens, σ₁ = { σ with tokens } := ⟨_, hsame.store⟩
  refine ⟨fun e relayInfo' σ' ha => ?_, fun hpre hnew s relayInfo' σ' ha => ?_⟩
  · obtain ⟨hsame', q, rfl⟩ := h.error e relayInfo' σ' ha
    exact ⟨hsame.trans hsame', q, rfl⟩
  · have hopened := h.opened hpre hnew s relayInfo' σ' ha
    refine { hopened with tokens := fun id => ?_, funding := ?_ }
    · rw [hopened.tokens id, hsame.tokens id]
      rfl
    · -- only the tokens differ between the two stores
      have hfunding := hopened.funding
      unfold FundingOpened at hfunding ⊢
      cases hs : s.funding with
      | wallet userId consumed =>
        rw [hs] at hfunding
        exact hfunding
      | subscription f =>
        rw [hs] at hfunding
        obtain ⟨hrequest, hne, hpre, hpos, hid, husers, hcharged, hrecord⟩ := hfunding
        exact ⟨hrequest, hne, hpre, hpos, hid, husers, ⟨hcharged.charged, hcharged.others⟩, hrecord⟩

/-- The second attempt begins with the balances of the first. -/
theorem Sound.orElse {next : NewAPIError → RelayInfo → Store → Attempt}
    (h : Sound env preConsumedQuota relayInfo σ a)
    (hnext : ∀ e relayInfo₁ σ₁, a = some (.error e, relayInfo₁, σ₁) →
      Sound env preConsumedQuota relayInfo₁ σ₁ (next e relayInfo₁ σ₁)) :
    Sound env preConsumedQuota relayInfo σ (orElseIfInsufficient a next) := by
  unfold orElseIfInsufficient
  split
  · rename_i e relayInfo₁ σ₁
    split_ifs
    · obtain ⟨hsame, hinfo⟩ := h.error e relayInfo₁ σ₁ rfl
      exact (hnext e relayInfo₁ σ₁ rfl).after hsame hinfo
    · exact h
  · exact h

end Attempts

/-- Every billing preference opens sessions by sound attempts. -/
theorem sound_newBillingSession (env : BillingEnv) {faults : BillingSource → Faults}
    (hcomp : ∀ source, faults source .increaseTokenQuota = none) (σ : Store)
    (relayInfo : RelayInfo) (preConsumedQuota : Int) :
    Sound env preConsumedQuota relayInfo σ
      (newBillingSession env faults σ relayInfo preConsumedQuota) := by
  -- the four preferences combine the two sources
  have hwallet : ∀ relayInfo σ, Sound env preConsumedQuota relayInfo σ
      (tryWallet env (faults .wallet) σ relayInfo preConsumedQuota) :=
    fun _ _ => sound_tryWallet (hcomp .wallet)
  have hsub : ∀ relayInfo σ, Sound env preConsumedQuota relayInfo σ
      (trySubscription env (faults .subscription) σ relayInfo preConsumedQuota) :=
    fun _ _ => sound_trySubscription (hcomp .subscription)
  unfold newBillingSession
  dsimp only
  split
  · exact hsub relayInfo σ
  · exact hwallet relayInfo σ
  · exact (hwallet relayInfo σ).orElse fun _ relayInfo₁ σ₁ _ => hsub relayInfo₁ σ₁
  · split
    · exact sound_refuse
    · exact hwallet relayInfo σ
    · refine (hsub relayInfo σ).orElse fun e relayInfo₁ σ₁ _ => ?_
      split
      · exact sound_refuse
      · exact hwallet relayInfo₁ σ₁
      · exact sound_refuse

/-- The relay asks for amounts that are not negative, and its refusals touch nothing. -/
theorem preConsumeBilling_cases (env : BillingEnv) (faults : BillingSource → Faults) (σ : Store)
    (relayInfo : RelayInfo) (quota : Int) :
    (∃ e, preConsumeBilling env faults σ relayInfo quota = Attempt.refuse e relayInfo σ) ∨
      0 ≤ quota ∧ preConsumeBilling env faults σ relayInfo quota =
        newBillingSession env faults σ relayInfo quota := by
  unfold preConsumeBilling
  split
  · exact .inl ⟨_, rfl⟩
  · split_ifs with hneg
    · exact .inl ⟨_, rfl⟩
    · exact .inr ⟨not_lt.mp hneg, rfl⟩

/-- One funding source has been charged, by the `preConsumedQuota` of the
session; the subscriptions are compared up to period resets. -/
def ChargedOnce (env : BillingEnv) (relayInfo : RelayInfo) (σ σ' : Store)
    (s : BillingSession) : Prop :=
  match s.funding with
  | .wallet userId _ =>
    userId = relayInfo.userId ∧ σ'.subs = σ.subs ∧ ∀ id, getUserQuota σ'.users id =
        getUserQuota σ.users id - if id = userId then s.preConsumedQuota else 0
  | .subscription f =>
    (∀ id, getUserQuota σ'.users id = getUserQuota σ.users id) ∧
      SubCharged env.zone env.now relayInfo.userId s.preConsumedQuota σ σ' f.subscriptionId

theorem find?_of_getUserQuota {users : Users} {id : Int} (h : 0 < getUserQuota users id) :
    ∃ u, users.find? id = some u := by
  rcases hu : users.find? id with _ | u
  · rw [getUserQuota, hu] at h
    exact absurd h (by decide)
  · exact ⟨u, rfl⟩

theorem Opened.chargedOnce (h : Opened env relayInfo amount σ σ' s) :
    ChargedOnce env relayInfo σ σ' s := by
  have hfunding := h.funding
  unfold FundingOpened at hfunding
  unfold ChargedOnce
  cases hs : s.funding with
  | wallet userId consumed =>
    rw [hs] at hfunding
    obtain ⟨huser, -, hpos, husers, hsubs⟩ := hfunding
    -- the user exists, because its quota was positive
    obtain ⟨u, hu⟩ := find?_of_getUserQuota hpos
    refine ⟨huser, hsubs, fun id => ?_⟩
    rw [husers, getUserQuota_addUserQuota hu]
    split_ifs <;> omega
  | subscription f =>
    rw [hs] at hfunding
    obtain ⟨-, -, -, -, -, husers, hcharged, -⟩ := hfunding
    exact ⟨fun id => by rw [husers], hcharged⟩

/-- **Opening a session is all or nothing.**  When the compensating statements
succeed, an error leaves every balance as it was, whatever the amount.  A session
has charged exactly one funding source by exactly its `preConsumedQuota`, if the
request is new: the record of an earlier one is honoured without a second charge. -/
theorem preConsumeBilling_balanced (env : BillingEnv) (faults : BillingSource → Faults)
    (hcomp : ∀ source, faults source .increaseTokenQuota = none) (σ : Store)
    (relayInfo : RelayInfo) (preConsumedQuota : Int) :
    (∀ e relayInfo' σ',
        newBillingSession env faults σ relayInfo preConsumedQuota =
          some (.error e, relayInfo', σ') ∨
          preConsumeBilling env faults σ relayInfo preConsumedQuota =
            some (.error e, relayInfo', σ') →
        SameBalances σ σ') ∧
      (σ.findRecord relayInfo.requestId = none →
        ∀ s relayInfo' σ', preConsumeBilling env faults σ relayInfo preConsumedQuota =
          some (.ok s, relayInfo', σ') → ChargedOnce env relayInfo σ σ' s) := by
  have hsound := sound_newBillingSession env hcomp σ relayInfo preConsumedQuota
  have herror : ∀ e relayInfo' σ', newBillingSession env faults σ relayInfo preConsumedQuota =
      some (.error e, relayInfo', σ') → SameBalances σ σ' :=
    fun e relayInfo' σ' h => (hsound.error e relayInfo' σ' h).1
  rcases preConsumeBilling_cases env faults σ relayInfo preConsumedQuota with
    ⟨e₀, hrefuse⟩ | ⟨hpre, heq⟩
  · -- refused before any statement: the store is the one the request found
    have hrefused : Sound env preConsumedQuota relayInfo σ (Attempt.refuse e₀ relayInfo σ) :=
      sound_refuse
    rw [hrefuse]
    refine ⟨fun e relayInfo' σ' h => ?_, fun _ s relayInfo' σ' h => nomatch h⟩
    rcases h with h | h
    · exact herror e relayInfo' σ' h
    · exact (hrefused.error e relayInfo' σ' h).1
  · rw [heq]
    refine ⟨fun e relayInfo' σ' h => herror e relayInfo' σ' (h.elim id id), ?_⟩
    intro hnew s relayInfo' σ' h
    exact (hsound.opened hpre hnew s relayInfo' σ' h).chargedOnce

/-- A user with a thousand units in the wallet, five hundred on the token, and a
subscription of twenty units. -/
def twentyOnPlan : Store :=
  let plan : SubscriptionPlan :=
    { id := 1, durationUnit := .day, durationValue := 30, totalAmount := 20 }
  { users := empty.insert (fun id => ⟨id, 1, 1000, 0, 0, "default"⟩) fun _ => rfl
    tokens := empty.insert (fun id => ⟨id, 1, "sk", 1, 500, 0, false, 0⟩) fun _ => rfl
    plans := empty.insert (fun id => { plan with id }) fun _ => rfl
    subs := empty.insert (newSubscription 0 1 plan "order" "default" 1000 2593000) fun _ => rfl
    records := empty
    log := [] }

/-- No amount is trusted. -/
def strictEnv : BillingEnv :=
  { zone := 0, now := 2000, trustQuota := 0, tokenQuota := 500, formatQuota := toString }

/-- The plan is too small for the request, and the wallet pays. -/
theorem preConsumeBilling_balanced_overflow :
    ∃ s relayInfo' σ', preConsumeBilling strictEnv (fun _ => noFaults) twentyOnPlan
        { userId := 1, tokenId := 1, tokenKey := "sk", requestId := "r" } 100 =
          some (.ok s, relayInfo', σ') ∧
      s.funding.source = .wallet ∧ s.preConsumedQuota = 100 ∧
      ChargedOnce strictEnv { userId := 1, tokenId := 1, tokenKey := "sk", requestId := "r" }
        twentyOnPlan σ' s := by
  have hrun : ∃ r, preConsumeBilling strictEnv (fun _ => noFaults) twentyOnPlan
      { userId := 1, tokenId := 1, tokenKey := "sk", requestId := "r" } 100 = some r ∧
        r.1.toOption.map (fun s => (s.funding.source, s.preConsumedQuota)) =
            some (.wallet, 100) := by
    refine map_eq_some_iff.mp ?_
    decide +kernel
  obtain ⟨⟨out, relayInfo', σ'⟩, hr, hvals⟩ := hrun
  obtain ⟨s, hs, heq⟩ := map_eq_some_iff.mp hvals
  obtain ⟨hsource, hquota⟩ := Prod.mk.inj heq
  have hout : out = .ok s := by
    cases out with
    | error e => cases hs
    | ok s' => rw [some.inj hs]
  subst hout
  exact ⟨s, relayInfo', σ', hr, hsource, hquota,
    (preConsumeBilling_balanced strictEnv _ (fun _ => rfl) twentyOnPlan _ 100).2 (by decide)
      s relayInfo' σ' hr⟩
