/-
Conservation over the life of a billing session.

A session is opened, its advance charge is raised any number of times, and it is
settled or refunded; calls may come in any order and repeatedly.  The phase of a
session is decided by the first terminal call that succeeds, and `due` is what
the session should have taken in each phase.

* `FundingHolds`, `TokenHolds` — the net amount that has been taken from the
  funding source and from the token;
* `conserves_step` — each call keeps what has been taken equal to what is due,
  as long as it does not act on a session that has been refunded (`Orderly`);
* `session_conserved` — hence for all sequences of calls;
* `settle_after_refund` — `Settle` does not look at `refunded`, and takes the
  difference to a charge that has been given back already.
-/
import AcuGateway.BillingPreConsume
import AcuGateway.SubscriptionLedger

open BillingSession
open Text (trimSpace)

/-! ### What has been taken -/

/-- The used amount of subscription `k` once its due reset has been made. -/
def usedDue (zone now : Int) (σ : Store) (k : Int) : Int :=
  match σ.subs.find? k with
  | none => 0
  | some row =>
    match σ.plans.find? row.planId with
    | none => row.amountUsed
    | some plan => (afterReset zone now plan row).amountUsed

/-- `net` has been added to the `base` of subscription `k`. -/
structure SubHolds (base k net : Int) (σ : Store) : Prop where
  row : ∃ row, σ.subs.find? k = some row ∧ row.amountUsed = base + net ∧
    (0 < row.amountTotal → base + net ≤ row.amountTotal)
  base_nonneg : 0 ≤ base
  nonneg : 0 ≤ base + net
  lt : base + net < 9223372036854775808

variable (env : BillingEnv)

/-- `net` has been taken from the funding source since `σ₀`. -/
def FundingHolds (σ₀ σ : Store) (net : Int) : FundingSource → Prop
  | .wallet userId _ =>
    (∃ u, σ₀.users.find? userId = some u) ∧ σ.users = addUserQuota σ₀.users userId (-net)
  | .subscription f =>
    SubHolds (usedDue env.zone env.now σ₀ f.subscriptionId) f.subscriptionId net σ

/-- `net` has been taken from the token of the request since `σ₀`. -/
def TokenHolds (relayInfo : RelayInfo) (σ₀ : Store) (tokens : Tokens) (net : Int) : Prop :=
  ∀ id, tokenQuota tokens id = (tokenQuota σ₀.tokens id).map (tokenMove relayInfo net id)

/-- The call adjusts the funding source by `delta`: the difference fits a word,
and what is used of a subscription stays between 0 and a word. -/
def AdjustFits (σ : Store) (delta : Int) (funding : FundingSource) : Prop :=
  -9223372036854775808 < delta ∧ delta < 9223372036854775808 ∧
    match funding with
    | .wallet .. => True
    | .subscription f =>
      0 ≤ usedOf σ f.subscriptionId + delta ∧
        usedOf σ f.subscriptionId + delta < 9223372036854775808

instance (σ : Store) (delta : Int) : DecidablePred (AdjustFits σ delta) := fun _ => by
  unfold AdjustFits; split <;> infer_instance

variable {σ₀ : Store} {net : Int}

section Token

variable {env : BillingEnv} {relayInfo relayInfo' : RelayInfo} {tokens tokens' : Tokens} {q : Int}

/-- A further move of the token. -/
theorem TokenHolds.move (h : TokenHolds relayInfo σ₀ tokens net)
    (hmove : ∀ id, tokenQuota tokens' id =
      (tokenQuota tokens id).map (tokenMove relayInfo q id)) :
    TokenHolds relayInfo σ₀ tokens' (net + q) := by
  intro id
  rw [hmove id, h id, Option.map_map]
  rcases tokenQuota σ₀.tokens id with _ | quota
  · rfl
  · exact congrArg some (tokenMove_add net q id quota)

/-- Which token moves depends on two fields of the request. -/
theorem TokenHolds.congr (h : TokenHolds relayInfo σ₀ tokens net)
    (hid : relayInfo'.tokenId = relayInfo.tokenId)
    (hplayground : relayInfo'.isPlayground = relayInfo.isPlayground) :
    TokenHolds relayInfo' σ₀ tokens net := by
  intro id
  have hmove : tokenMove relayInfo' net id = tokenMove relayInfo net id := by
    funext quota
    rw [tokenMove, tokenMove, hid, hplayground]
  rw [h id, hmove]

/-- Without faults the token follows a settlement of either sign. -/
theorem adjustToken_noFaults (hlow : -9223372036854775808 < q) (hhigh : q < 9223372036854775808) :
    ∃ tokens', adjustToken env noFaults tokens relayInfo q = .ok tokens' ∧
      ∀ id, tokenQuota tokens' id = (tokenQuota tokens id).map (tokenMove relayInfo q id) := by
  unfold adjustToken
  by_cases hplayground : relayInfo.isPlayground = true
  · refine ⟨tokens, if_pos hplayground, fun id => ?_⟩
    rw [map_tokenMove_self (tokenMove_playground hplayground id)]
  · have hmoved := fun id => @tokenQuota_charged tokens relayInfo q (by simpa using hplayground)
      env.now id
    refine ⟨_, ?_, hmoved⟩
    rw [if_neg hplayground]
    split_ifs with hq
    · exact decreaseTokenQuota_nonneg hq.le
    · rw [wrap64_eq_self ⟨by omega, by omega⟩]
      exact increaseTokenQuota_nonneg (by omega)

theorem reserveToken_ok {faults : Faults} (hq : 0 < q)
    (h : reserveToken env faults tokens relayInfo q = .ok tokens') (id : Int) :
    tokenQuota tokens' id = (tokenQuota tokens id).map (tokenMove relayInfo q id) := by
  unfold reserveToken at h
  split_ifs at h with hskip
  · have hplayground : relayInfo.isPlayground = true := hskip.resolve_left (by omega)
    injection h with h
    rw [h, map_tokenMove_self (tokenMove_playground hplayground id)]
  · split at h
    · cases h
    · rename_i tokens₁ htokens
      injection h with h
      exact h ▸ tokenQuota_preConsume htokens id

end Token

variable {σ : Store} {delta userId consumed amount : Int}

section Funding

variable {env : BillingEnv} {base k : Int} {why : SubEvent} {funding : FundingSource}

/-- The funding source does not depend on the tokens. -/
theorem FundingHolds.of_tokens (h : FundingHolds env σ₀ σ net funding)
    (tokens : Tokens) : FundingHolds env σ₀ { σ with tokens } net funding := by
  cases funding with
  | wallet userId consumed => exact h
  | subscription f => exact ⟨h.row, h.base_nonneg, h.nonneg, h.lt⟩

/-- The wallet gets `quota` back. -/
theorem FundingHolds.wallet_add (h : FundingHolds env σ₀ σ net (.wallet userId consumed))
    (quota consumed' : Int) :
    FundingHolds env σ₀ { σ with users := addUserQuota σ.users userId quota } (net - quota)
      (.wallet userId consumed') := by
  obtain ⟨huser, husers⟩ := h
  refine ⟨huser, ?_⟩
  show addUserQuota σ.users userId quota = _
  rw [husers, addUserQuota_addUserQuota, neg_sub', sub_neg_eq_add]

section

variable (h : SubHolds base k net σ)

include h

theorem SubHolds.usedOf_eq : usedOf σ k = base + net := by
  obtain ⟨row, hrow, hused, -⟩ := h.row
  rw [usedOf, hrow]
  exact hused

/-- An adjustment that stays within a word either moves the used amount or is
refused, and it is refused only when it takes more. -/
theorem postConsume_holds (hdelta : delta ≠ 0)
    (hnonneg : 0 ≤ base + net + delta) (hlt : base + net + delta < 9223372036854775808) :
    (0 < delta ∧ ∃ e, postConsumeUserSubscriptionDelta σ k delta why = .rollback e) ∨
      ∃ σ', postConsumeUserSubscriptionDelta σ k delta why = .commit () σ' ∧
        SubHolds base k (net + delta) σ' ∧ σ'.tokens = σ.tokens ∧ σ'.records = σ.records := by
  obtain ⟨row, hrow, hused, htotal⟩ := h.row
  -- within the words neither the wrap-around nor the clamp at 0 is felt
  have hword : max (wrap64 (row.amountUsed + delta)) 0 = base + (net + delta) := by
    rw [wrap64_eq_self ⟨by omega, by omega⟩]
    omega
  by_cases hover : 0 < row.amountTotal ∧ row.amountTotal < base + (net + delta)
  · obtain ⟨e, he⟩ := applyDelta_error hover.1 (hword ▸ hover.2)
    have := htotal hover.1
    exact .inl ⟨by omega, e, postConsumeUserSubscriptionDelta_error hdelta hrow he⟩
  · have hroom : 0 < row.amountTotal → base + (net + delta) ≤ row.amountTotal :=
      fun hpos => not_lt.mp fun hlt => hover ⟨hpos, hlt⟩
    have happly : applyDelta row delta = .ok { row with amountUsed := base + (net + delta) } := by
      rw [applyDelta_ok (hword ▸ hroom), hword]
    refine .inr ⟨_, postConsumeUserSubscriptionDelta_ok hdelta hrow happly, ?_, rfl, rfl⟩
    obtain rfl : row.id = k := Table.key_of_find? hrow
    have hsaved : (σ.subs.save { row with amountUsed := base + (net + delta) }).find? row.id =
        some { row with amountUsed := base + (net + delta) } := Table.find?_save_self hrow
    exact ⟨⟨_, hsaved, rfl, hroom⟩, h.base_nonneg, by omega, by omega⟩

/-- Giving back a part of what has been taken is never refused. -/
theorem giveBack_holds (hpos : 0 < amount) (hle : amount ≤ net) (why : SubEvent) :
    ∃ σ', postConsumeUserSubscriptionDelta σ k (-amount) why = .commit () σ' ∧
      SubHolds base k (net - amount) σ' ∧ σ'.tokens = σ.tokens ∧ σ'.records = σ.records := by
  have hbase := h.base_nonneg
  have hlt := h.lt
  have hne : -amount ≠ 0 := by omega
  rcases @postConsume_holds _ _ _ _ _ why h hne (by omega) (by omega) with ⟨hneg, -⟩ | hdone
  · omega
  · rwa [← sub_eq_add_neg] at hdone

end

/-- A settlement moves what has been taken by `delta`, or fails without effect. -/
theorem settle_holds (h : FundingHolds env σ₀ σ net funding) (hdelta : delta ≠ 0)
    (hfits : AdjustFits σ delta funding) :
    (∃ e, funding.settle noFaults σ delta = .rollback e) ∨
      ∃ σ', funding.settle noFaults σ delta = .commit () σ' ∧
        FundingHolds env σ₀ σ' (net + delta) funding ∧ σ'.tokens = σ.tokens := by
  obtain ⟨hlow, hhigh, hfits⟩ := hfits
  cases funding with
  | wallet userId consumed =>
    -- both signs come to one change of the quota
    have hsettle : FundingSource.settle noFaults σ delta (.wallet userId consumed) =
        .commit () { σ with users := addUserQuota σ.users userId (-delta) } := by
      unfold FundingSource.settle FundingSource.walletDelta
      dsimp only
      rw [if_neg hdelta]
      split_ifs with hpos
      · rw [decreaseUserQuota_nonneg hpos.le]
        rfl
      · rw [wrap64_eq_self ⟨by omega, by omega⟩, increaseUserQuota_nonneg (by omega)]
        rfl
    exact .inr ⟨_, hsettle, sub_neg_eq_add net delta ▸ h.wallet_add (-delta) consumed, rfl⟩
  | subscription f =>
    have hsettle : FundingSource.settle noFaults σ delta (.subscription f) =
        postConsumeUserSubscriptionDelta σ f.subscriptionId delta
          (.adjusted f.subscriptionId f.requestId delta) := if_neg hdelta
    have hused := SubHolds.usedOf_eq h
    rw [hsettle]
    rcases postConsume_holds h hdelta (by omega) (by omega) with ⟨-, he⟩ | ⟨σ', hσ', hholds, ht, -⟩
    · exact .inl he
    · exact .inr ⟨σ', hσ', hholds, ht⟩

/-- The funding source after a reservation. -/
def FundingSource.reserved (delta : Int) : FundingSource → FundingSource
  | .wallet userId consumed => .wallet userId (wrap64 (consumed + delta))
  | .subscription f => .subscription f

/-- A reservation takes `delta` more, or fails without effect. -/
theorem reserveFunding_holds (h : FundingHolds env σ₀ σ net funding)
    (hdelta : 0 < delta) (hfits : AdjustFits σ delta funding) :
    (∃ e, reserveFunding noFaults σ delta funding = .error e) ∨
      ∃ σ', reserveFunding noFaults σ delta funding =
          .ok (funding.reserved delta, σ') ∧
        FundingHolds env σ₀ σ' (net + delta) (funding.reserved delta) ∧
        σ'.tokens = σ.tokens ∧ σ'.records = σ.records := by
  obtain ⟨hlow, hhigh, hfits⟩ := hfits
  cases funding with
  | wallet userId consumed =>
    -- the wallet may go below zero, so a reservation from it never fails
    have hreserve : reserveFunding noFaults σ delta (.wallet userId consumed) =
        .ok (.wallet userId (wrap64 (consumed + delta)),
            { σ with users := addUserQuota σ.users userId (-delta) }) := by
      unfold reserveFunding
      dsimp only
      rw [decreaseUserQuota_nonneg hdelta.le]
      rfl
    exact .inr ⟨_, hreserve, sub_neg_eq_add net delta ▸ h.wallet_add (-delta) _, rfl, rfl⟩
  | subscription f =>
    have hused := SubHolds.usedOf_eq h
    have hne : delta ≠ 0 := by omega
    unfold reserveFunding FundingSource.subscriptionDelta
    dsimp only
    -- a subscription refuses what it has no room for
    rcases @postConsume_holds _ _ _ _ _ (.adjusted f.subscriptionId f.requestId delta) h hne
      (by omega) (by omega) with ⟨-, e, he⟩ | ⟨σ', hσ', hholds, ht, hr⟩
    · refine .inl ⟨forbidden ("订阅额度不足或未配置订阅: " ++ e) .insufficientUserQuota, ?_⟩
      rw [he]
      rfl
    · refine .inr ⟨σ', ?_, hholds, ht, hr⟩
      rw [hσ']
      rfl

/-- The rollback of a reservation gives `delta` back. -/
theorem rollbackFundingReserve_holds
    (h : FundingHolds env σ₀ σ (net + delta) (funding.reserved delta)) (hdelta : 0 < delta)
    (hnet : 0 ≤ net) (hconsumed : ∀ userId consumed, funding = .wallet userId consumed →
      IsInt64 consumed ∧ IsInt64 (consumed + delta)) :
    ∃ σ', rollbackFundingReserve noFaults σ delta (funding.reserved delta) = (funding, σ') ∧
      FundingHolds env σ₀ σ' net funding ∧ σ'.tokens = σ.tokens ∧ σ'.records = σ.records := by
  cases funding with
  | wallet userId consumed =>
    -- the sum was taken modulo 2 ^ 64 and is taken back the same way
    obtain ⟨hword, hword'⟩ := hconsumed userId consumed rfl
    have hback : rollbackFundingReserve noFaults σ delta
        (.wallet userId (wrap64 (consumed + delta))) =
          (.wallet userId consumed, { σ with users := addUserQuota σ.users userId delta }) := by
      unfold rollbackFundingReserve
      dsimp only
      rw [increaseUserQuota_nonneg hdelta.le, wrap64_eq_self hword', add_sub_cancel_right,
        wrap64_eq_self hword]
      rfl
    exact ⟨_, hback, add_sub_cancel_right net delta ▸ h.wallet_add delta consumed, rfl, rfl⟩
  | subscription f =>
    obtain ⟨σ', hσ', hholds, ht, hr⟩ := giveBack_holds h hdelta (by omega)
      (.adjusted f.subscriptionId f.requestId (-delta))
    rw [add_sub_cancel_right] at hholds
    refine ⟨σ', ?_, hholds, ht, hr⟩
    show (FundingSource.subscription f, Tx.after σ (postConsumeUserSubscriptionDelta σ
      f.subscriptionId (-delta) (.adjusted f.subscriptionId f.requestId (-delta)))) = _
    rw [hσ']
    rfl

/-- The refund of an open record gives its amount back. -/
theorem refundSubscriptionPreConsume_holds {requestId : String}
    {record : SubscriptionPreConsumeRecord} (h : SubHolds base k net σ)
    (hrequest : trimSpace requestId ≠ "") (hrecord : σ.findRecord requestId = some record)
    (hk : record.userSubscriptionId = k) (hopen : record.status = .consumed)
    (hpos : 0 < record.preConsumed) (hle : record.preConsumed ≤ net) :
    ∃ σ', refundSubscriptionPreConsume σ requestId = .commit () σ' ∧
      SubHolds base k (net - record.preConsumed) σ' ∧ σ'.tokens = σ.tokens := by
  obtain ⟨σ', hσ', hholds, ht, -⟩ :=
    giveBack_holds h hpos hle (.refunded k requestId record.preConsumed)
  refine ⟨markRefunded σ' record, ?_, ?_, ht⟩
  · unfold refundSubscriptionPreConsume
    rw [if_neg hrequest, hrecord]
    dsimp only
    rw [if_neg (by rw [hopen]; decide), if_neg (not_le.mpr hpos), hk, hσ']
  · exact ⟨hholds.row, hholds.base_nonneg, hholds.nonneg, hholds.lt⟩

end Funding

/-! ### Sessions that are still open -/

/-- The counters of the funding source of an open session. -/
def FundingPending (s : BillingSession) (σ : Store) : Prop :=
  match s.funding with
  | .wallet _ consumed => consumed = s.preConsumedQuota
  | .subscription f =>
    trimSpace f.requestId ≠ "" ∧ 0 < f.preConsumed ∧
      f.preConsumed + s.extraReserved = s.preConsumedQuota ∧
      s.relayInfo.subscriptionId = f.subscriptionId ∧
      ∃ record, σ.findRecord f.requestId = some record ∧
        record.userSubscriptionId = f.subscriptionId ∧ record.status = .consumed ∧
        record.preConsumed = f.preConsumed

/-- The counters of an open session are in step with its advance charge. -/
structure Pending (s : BillingSession) (σ : Store) : Prop where
  nonneg : 0 ≤ s.preConsumedQuota
  lt : s.preConsumedQuota < 9223372036854775808
  tokenConsumed : s.tokenConsumed = s.preConsumedQuota
  extra_nonneg : 0 ≤ s.extraReserved
  extra_le : s.extraReserved ≤ s.preConsumedQuota
  fundingSettled : s.fundingSettled = false
  settled : s.settled = false
  refunded : s.refunded = false
  funding : FundingPending s σ

variable {σ' σ₁ : Store} {s : BillingSession}

section Pending

variable {env : BillingEnv}

theorem FundingPending.of_records (h : FundingPending s σ) (hrecords : σ'.records = σ.records) :
    FundingPending s σ' := by
  unfold FundingPending at h ⊢
  cases hf : s.funding with
  | wallet userId consumed =>
    rw [hf] at h
    exact h
  | subscription f =>
    rw [hf] at h
    unfold Store.findRecord at h ⊢
    rw [hrecords]
    exact h

/-- Nothing to give back means nothing has been charged. -/
theorem Pending.needsRefund_eq_false (h : Pending s σ) (hneeds : s.needsRefund = false) :
    s.preConsumedQuota = 0 := by
  have hnonneg := h.nonneg
  unfold needsRefund at hneeds
  rw [h.settled, h.refunded, h.fundingSettled, h.tokenConsumed] at hneeds
  by_contra hne
  have hpos : 0 < s.preConsumedQuota := by omega
  simp [hpos] at hneeds

variable (hholds : FundingHolds env σ₀ σ s.preConsumedQuota s.funding)

include hholds

/-- The wallet of an open session gets its pre-consume back. -/
theorem Pending.walletRefund_holds (h : Pending s σ) (hf : s.funding = .wallet userId consumed) :
    FundingHolds env σ₀ ((s.funding.refund noFaults σ).after σ) 0 s.funding ∧
      ((s.funding.refund noFaults σ).after σ).tokens = σ.tokens := by
  have hnonneg := h.nonneg
  have hconsumed := h.funding
  unfold FundingPending at hconsumed
  unfold FundingSource.refund
  rw [hf] at hconsumed hholds ⊢
  dsimp only at hconsumed ⊢
  split_ifs with hzero
  · have hnone : s.preConsumedQuota = 0 := by omega
    exact ⟨hnone ▸ hholds, rfl⟩
  · rw [increaseUserQuota_nonneg (by omega)]
    have hback := hholds.wallet_add consumed consumed
    rw [← hconsumed, sub_self] at hback
    exact ⟨hback, rfl⟩

variable {f : SubscriptionFunding}

/-- The subscription of an open session gets its pre-consume back; what was reserved
later is still taken. -/
theorem Pending.subscriptionRefund_holds (h : Pending s σ) (hf : s.funding = .subscription f) :
    FundingHolds env σ₀ ((s.funding.refund noFaults σ).after σ) s.extraReserved s.funding ∧
      ((s.funding.refund noFaults σ).after σ).tokens = σ.tokens := by
  have hfunding := h.funding
  unfold FundingPending at hfunding
  rw [hf] at hfunding hholds ⊢
  -- the record has what was charged at first; the rest was reserved later
  obtain ⟨hrequest, hpos, hsum, -, record, hrecord, hk, hopen, hamount⟩ := hfunding
  have hextra := h.extra_nonneg
  obtain ⟨σ₁, hσ₁, hholds₁, ht₁⟩ := refundSubscriptionPreConsume_holds hholds hrequest hrecord
    hk hopen (by omega) (by omega)
  have hrefund : (FundingSource.refund noFaults σ (.subscription f)).after σ = σ₁ := by
    unfold FundingSource.refund
    dsimp only
    rw [if_neg (by omega)]
    show Tx.after σ (refundSubscriptionPreConsume σ f.requestId) = σ₁
    rw [hσ₁]
    rfl
  have hleft : s.preConsumedQuota - record.preConsumed = s.extraReserved := by omega
  rw [hrefund]
  exact ⟨hleft ▸ hholds₁, ht₁⟩

omit hholds in
/-- What was reserved later on a subscription is given back by an adjustment. -/
theorem Pending.returnExtra_holds (h : Pending s σ) (hf : s.funding = .subscription f)
    (hholds : FundingHolds env σ₀ σ₁ s.extraReserved s.funding) :
    FundingHolds env σ₀ (s.returnExtra noFaults σ₁) 0 s.funding ∧
      (s.returnExtra noFaults σ₁).tokens = σ₁.tokens := by
  have hfunding := h.funding
  have hextra := h.extra_nonneg
  unfold FundingPending at hfunding
  unfold returnExtra
  rw [hf] at hfunding hholds ⊢
  obtain ⟨-, -, -, hid, -⟩ := hfunding
  dsimp only
  -- only a subscription that is stored has reserved anything
  have hk : 0 < f.subscriptionId := by
    obtain ⟨row, hrow, -⟩ := hholds.row
    exact Table.pos_of_find? hrow
  by_cases hreserved : 0 < s.extraReserved
  · obtain ⟨σ₂, hσ₂, hholds₂, ht₂, -⟩ := giveBack_holds hholds hreserved le_rfl
      (.adjusted f.subscriptionId f.requestId (-s.extraReserved))
    have hafter : (FundingSource.subscriptionDelta noFaults σ₁ f.requestId f.subscriptionId
        (-s.extraReserved)).after σ₁ = σ₂ := by
      show Tx.after σ₁ (postConsumeUserSubscriptionDelta ..) = σ₂
      rw [hσ₂]
      rfl
    rw [sub_self] at hholds₂
    rw [if_pos ⟨hreserved, hid.symm ▸ hk⟩, hid, hafter]
    exact ⟨hholds₂, ht₂⟩
  · have hnone : s.extraReserved = 0 := by omega
    rw [if_neg fun hc => hreserved hc.1]
    exact ⟨hnone ▸ hholds, rfl⟩

/-- A refund gives the whole advance charge back: the pre-consume through its
record, and what was reserved later by an adjustment. -/
theorem Pending.refund_holds (h : Pending s σ) :
    FundingHolds env σ₀ (s.returnExtra noFaults ((s.funding.refund noFaults σ).after σ)) 0
      s.funding ∧
      (s.returnExtra noFaults ((s.funding.refund noFaults σ).after σ)).tokens = σ.tokens := by
  cases hf : s.funding with
  | wallet userId consumed =>
    have hback := h.walletRefund_holds hholds hf
    unfold returnExtra
    rw [hf] at hback ⊢
    exact hback
  | subscription f =>
    obtain ⟨hrefund, ht⟩ := h.subscriptionRefund_holds hholds hf
    obtain ⟨hextra, ht'⟩ := h.returnExtra_holds hf hrefund
    rw [hf] at hextra ht ht'
    exact ⟨hextra, ht'.trans ht⟩

end Pending

/-! ### Runs of calls -/

inductive SessionCall
  | reserve (targetQuota : Int)
  | settle (actualQuota : Int)
  | refund

/-- Decided by the first terminal call that succeeds. -/
inductive Phase
  | pending
  | settled (actualQuota : Int)
  | refunded
deriving DecidableEq

/-- A session in the course of its calls. -/
structure SessionRun where
  state : SessionState
  phase : Phase

namespace SessionRun

def step (r : SessionRun) : SessionCall → SessionRun
  | .reserve targetQuota =>
    { r with state := (reserve env noFaults r.state targetQuota).1 }
  | .settle actualQuota =>
    let out := settle env noFaults r.state actualQuota
    { state := out.1
      phase := if r.phase = .pending ∧ out.2 = none then .settled actualQuota else r.phase }
  | .refund =>
    { state := refund env noFaults r.state
      phase := if r.phase = .pending then .refunded else r.phase }

/-- What the session should have taken. -/
def due (r : SessionRun) : Int :=
  match r.phase with
  | .pending => r.state.session.preConsumedQuota
  | .settled actualQuota => actualQuota
  | .refunded => 0

/-- What has been taken from the funding source since `σ₀`; a subscription is
compared with its amount after the reset that was due. -/
def takenFunding (σ₀ : Store) (r : SessionRun) : Int :=
  match r.state.session.funding with
  | .wallet userId _ => getUserQuota σ₀.users userId - getUserQuota r.state.store.users userId
  | .subscription f =>
    usedOf r.state.store f.subscriptionId - usedDue env.zone env.now σ₀ f.subscriptionId

/-- What has been taken from the token since `σ₀`. -/
def takenToken (σ₀ : Store) (r : SessionRun) : Int :=
  let id := r.state.session.relayInfo.tokenId
  ((tokenQuota σ₀.tokens id).map Prod.fst).getD 0 -
    ((tokenQuota r.state.store.tokens id).map Prod.fst).getD 0

end SessionRun

open SessionRun

/-- What has been taken is what is due. -/
def Conserved (σ₀ : Store) (r : SessionRun) : Prop :=
  r.takenFunding env σ₀ = r.due ∧
    (r.state.session.relayInfo.isPlayground = false → r.takenToken σ₀ = r.due)
deriving Decidable

/-- A session that has been refunded is not settled with another amount than its
advance charge, nor raised when the refund had nothing to give back; an open one
stays within the words. -/
def Orderly (r : SessionRun) : SessionCall → Prop
  | .reserve targetQuota =>
    match r.phase with
    | .pending =>
      r.state.session.preConsumedQuota < targetQuota → targetQuota < 9223372036854775808 ∧
        AdjustFits r.state.store (targetQuota - r.state.session.preConsumedQuota)
          r.state.session.funding
    | .settled _ => True
    | .refunded =>
      r.state.session.settled = true ∨ r.state.session.refunded = true ∨
        r.state.session.trusted = true ∨ targetQuota ≤ r.state.session.preConsumedQuota
  | .settle actualQuota =>
    match r.phase with
    | .pending => AdjustFits r.state.store (actualQuota - r.state.session.preConsumedQuota)
        r.state.session.funding
    | .settled _ => True
    | .refunded =>
      r.state.session.settled = true ∨ actualQuota = r.state.session.preConsumedQuota
  | .refund => True

instance Orderly.decidable (r : SessionRun) : DecidablePred (Orderly r) := fun _ => by
  unfold Orderly; (repeat' split) <;> infer_instance

/-- The invariant of a run. -/
structure Conserves (env : BillingEnv) (σ₀ : Store) (r : SessionRun) : Prop where
  funding : FundingHolds env σ₀ r.state.store r.due r.state.session.funding
  token : TokenHolds r.state.session.relayInfo σ₀ r.state.store.tokens r.due
  pending : r.phase = .pending → Pending r.state.session r.state.store
  settled : ∀ a, r.phase = .settled a → r.state.session.settled = true
  refunded : r.phase = .refunded →
    r.state.session.settled = true ∨ r.state.session.refunded = true ∨
      r.state.session.needsRefund = false

section Steps

variable {env : BillingEnv}

theorem conserves_pending (hpending : Pending s σ)
    (hfunding : FundingHolds env σ₀ σ s.preConsumedQuota s.funding)
    (htoken : TokenHolds s.relayInfo σ₀ σ.tokens s.preConsumedQuota) :
    Conserves env σ₀ ⟨⟨s, σ⟩, .pending⟩ :=
  ⟨hfunding, htoken, fun _ => hpending, nofun, nofun⟩

theorem Conserves.taken (h : Conserves env σ₀ ⟨⟨s, σ⟩, .pending⟩) :
    Pending s σ ∧ FundingHolds env σ₀ σ s.preConsumedQuota s.funding ∧
      TokenHolds s.relayInfo σ₀ σ.tokens s.preConsumedQuota :=
  ⟨h.pending rfl, h.funding, h.token⟩

variable {targetQuota : Int}

/-- The guard of `Reserve`. -/
theorem reserve_guarded (hguard : s.settled = true ∨ s.refunded = true ∨ s.trusted = true ∨
      targetQuota ≤ s.preConsumedQuota) :
    (reserve env noFaults ⟨s, σ⟩ targetQuota).1 = ⟨s, σ⟩ := by
  unfold reserve
  rw [if_pos]
  rcases hguard with h | h | h | h <;> simp [h]

/-- The counters after a reservation. -/
theorem Pending.reserve (h : Pending s σ) (hpos : 0 < delta)
    (hlt : s.preConsumedQuota + delta < 9223372036854775808) (hrecords : σ'.records = σ.records) :
    Pending (syncRelayInfo { s with
      funding := s.funding.reserved delta
      preConsumedQuota := wrap64 (s.preConsumedQuota + delta)
      tokenConsumed := wrap64 (s.tokenConsumed + delta)
      extraReserved := wrap64 (s.extraReserved + delta) }) σ' := by
  have hnonneg := h.nonneg
  have hextra := h.extra_nonneg
  have hle := h.extra_le
  -- no sum leaves the range of its type
  rw [h.tokenConsumed, wrap64_eq_self ⟨by omega, by omega⟩,
    wrap64_eq_self (x := s.extraReserved + delta) ⟨by omega, by omega⟩]
  refine ⟨?_, hlt, rfl, ?_, ?_, h.fundingSettled, h.settled, h.refunded, ?_⟩
  · show 0 ≤ s.preConsumedQuota + delta
    omega
  · show 0 ≤ s.extraReserved + delta
    omega
  · show s.extraReserved + delta ≤ s.preConsumedQuota + delta
    omega
  · have hfunding := h.funding.of_records hrecords
    unfold FundingPending at hfunding ⊢
    dsimp only [syncRelayInfo, syncedInfo]
    cases hf : s.funding with
    | wallet userId consumed =>
      rw [hf] at hfunding
      dsimp only at hfunding
      dsimp only [FundingSource.reserved]
      rw [hfunding, wrap64_eq_self ⟨by omega, by omega⟩]
    | subscription f =>
      rw [hf] at hfunding
      obtain ⟨hrequest, hpre, hsum, -, hrecord⟩ := hfunding
      exact ⟨hrequest, hpre, by omega, rfl, hrecord⟩

/-- A reservation on an open session raises the advance charge, or leaves
everything as it was. -/
theorem conserves_reserve_pending (hc : Conserves env σ₀ ⟨⟨s, σ⟩, .pending⟩)
    (horderly : Orderly ⟨⟨s, σ⟩, .pending⟩ (.reserve targetQuota)) :
    Conserves env σ₀ ⟨(reserve env noFaults ⟨s, σ⟩ targetQuota).1, .pending⟩ := by
  obtain ⟨h, hfunding, htoken⟩ := hc.taken
  by_cases hguard : (s.settled || s.refunded || s.trusted ||
      decide (targetQuota ≤ s.preConsumedQuota)) = true
  · rw [reserve_guarded (by simpa [or_assoc] using hguard)]
    exact hc
  have hlt : s.preConsumedQuota < targetQuota := by
    by_contra hle
    exact hguard (by simp [not_lt.mp hle])
  obtain ⟨hword, hfits⟩ := horderly hlt
  have hnonneg := h.nonneg
  have hextra := h.extra_nonneg
  have hextra' := h.extra_le
  dsimp only at hword hfits
  -- written with the difference, the target needs no subtraction further on
  obtain ⟨delta, hdelta⟩ : ∃ delta, targetQuota = s.preConsumedQuota + delta :=
    ⟨targetQuota - s.preConsumedQuota, by omega⟩
  subst hdelta
  rw [add_sub_cancel_left] at hfits
  have hpos : 0 < delta := by omega
  unfold reserve
  dsimp only
  rw [if_neg hguard, add_sub_cancel_left, wrap64_eq_self ⟨by omega, by omega⟩,
    if_neg (not_le.mpr hpos)]
  rcases reserveFunding_holds hfunding hpos hfits with ⟨e, he⟩ | ⟨σ₁, hσ₁, hholds, ht, hrec⟩
  · rw [he]
    exact hc
  rw [hσ₁]
  dsimp only
  cases hreserve : reserveToken env noFaults σ₁.tokens s.relayInfo delta with
  | error e =>
    -- the token refuses, and the funding source gets the reservation back
    have hconsumed : ∀ userId consumed, s.funding = .wallet userId consumed →
        IsInt64 consumed ∧ IsInt64 (consumed + delta) := by
      intro userId consumed hf
      have hpending := h.funding
      unfold FundingPending at hpending
      rw [hf] at hpending
      dsimp only at hpending
      exact ⟨⟨by omega, by omega⟩, by omega, by omega⟩
    obtain ⟨σ₂, hσ₂, hholds₂, ht₂, hrec₂⟩ :=
      rollbackFundingReserve_holds hholds hpos hnonneg hconsumed
    dsimp only
    rw [hσ₂]
    refine conserves_pending ⟨hnonneg, h.lt, h.tokenConsumed, hextra, hextra', h.fundingSettled,
      h.settled, h.refunded, h.funding.of_records (hrec₂.trans hrec)⟩ hholds₂ ?_
    rw [ht₂, ht]
    exact htoken
  | ok tokens =>
    have hmoved := reserveToken_ok hpos hreserve
    rw [ht] at hmoved
    have hsum : wrap64 (s.preConsumedQuota + delta) = s.preConsumedQuota + delta :=
      wrap64_eq_self ⟨by omega, by omega⟩
    refine conserves_pending (h.reserve hpos hword hrec) ?_ ?_
    · show FundingHolds env σ₀ { σ₁ with tokens } (wrap64 (s.preConsumedQuota + delta)) _
      rw [hsum]
      exact hholds.of_tokens tokens
    · show TokenHolds _ σ₀ tokens (wrap64 (s.preConsumedQuota + delta))
      rw [hsum]
      exact (htoken.move hmoved).congr (syncedInfo_tokenId _) (syncedInfo_isPlayground _)

section

variable (hc : Conserves env σ₀ ⟨⟨s, σ⟩, .pending⟩)

include hc

/-- A settlement of an open session fails without effect, has nothing to adjust,
or moves the funding source and the token to the real cost. -/
theorem settle_pending (hfits : AdjustFits σ delta s.funding) :
    (∃ e, settle env noFaults ⟨s, σ⟩ (s.preConsumedQuota + delta) = (⟨s, σ⟩, some e)) ∨
      (delta = 0 ∧ settle env noFaults ⟨s, σ⟩ (s.preConsumedQuota + delta) =
        (⟨{ s with settled := true }, σ⟩, none)) ∨
      ∃ σ', settle env noFaults ⟨s, σ⟩ (s.preConsumedQuota + delta) = (⟨s.close delta, σ'⟩, none) ∧
        FundingHolds env σ₀ σ' (s.preConsumedQuota + delta) s.funding ∧
        TokenHolds s.relayInfo σ₀ σ'.tokens (s.preConsumedQuota + delta) := by
  obtain ⟨h, hfunding, htoken⟩ := hc.taken
  have hsettled : ¬ s.settled = true := by rw [h.settled]; exact Bool.false_ne_true
  have hopen : ¬ s.fundingSettled = true := by rw [h.fundingSettled]; exact Bool.false_ne_true
  unfold settle
  dsimp only
  rw [if_neg hsettled, add_sub_cancel_left, wrap64_eq_self ⟨hfits.1.le, hfits.2.1⟩]
  -- nothing to settle: the session is closed without a transaction
  by_cases hzero : delta = 0
  · exact .inr (.inl ⟨hzero, if_pos hzero⟩)
  rw [if_neg hzero, if_neg hopen]
  rcases settle_holds hfunding hzero hfits with ⟨e, he⟩ | ⟨σ₁, hσ₁, hholds, ht⟩
  · rw [he]
    exact .inl ⟨e, rfl⟩
  obtain ⟨tokens, htokens, hmoved⟩ := @adjustToken_noFaults env s.relayInfo σ.tokens delta
    hfits.1 hfits.2.1
  rw [hσ₁]
  dsimp only
  rw [ht, htokens]
  exact .inr (.inr ⟨_, rfl, hholds.of_tokens tokens, htoken.move hmoved⟩)

theorem conserves_settle_pending {actualQuota : Int}
    (hfits : AdjustFits σ (actualQuota - s.preConsumedQuota) s.funding) :
    Conserves env σ₀ (step env ⟨⟨s, σ⟩, .pending⟩ (.settle actualQuota)) := by
  -- the amount to settle is what was taken and a difference
  obtain ⟨delta, rfl⟩ : ∃ delta, actualQuota = s.preConsumedQuota + delta :=
    ⟨actualQuota - s.preConsumedQuota, by omega⟩
  rw [add_sub_cancel_left] at hfits
  unfold step
  dsimp only
  rcases settle_pending hc hfits with ⟨e, he⟩ | ⟨rfl, he⟩ | ⟨σ', he, hholds, htoken'⟩
  · rw [he]
    exact hc
  · obtain ⟨-, hfunding, htoken⟩ := hc.taken
    rw [he]
    rw [← add_zero s.preConsumedQuota] at hfunding htoken
    exact ⟨hfunding, htoken, nofun, fun _ _ => rfl, nofun⟩
  · rw [he]
    exact ⟨hholds, htoken'.congr (s.close_tokenId delta) (s.close_isPlayground delta), nofun,
      fun _ _ => rfl, nofun⟩

/-- A refund of an open session gives everything back. -/
theorem conserves_refund_pending : Conserves env σ₀ (step env ⟨⟨s, σ⟩, .pending⟩ .refund) := by
  obtain ⟨h, hfunding, htoken⟩ := hc.taken
  unfold step refund
  dsimp only
  rw [h.settled, h.refunded, if_pos rfl]
  by_cases hneeds : s.needsRefund = true
  · rw [hneeds]
    -- the funding and the token get back what each of them gave
    obtain ⟨hholds, ht⟩ := h.refund_holds hfunding
    refine ⟨hholds.of_tokens _, ?_, nofun, nofun, fun _ => .inr (.inl rfl)⟩
    have hmoved := fun id => @tokenQuota_returnToken env noFaults σ.tokens s.relayInfo
      s.tokenConsumed rfl id
    rw [h.tokenConsumed, max_eq_left h.nonneg] at hmoved
    have hback := htoken.move hmoved
    rw [add_neg_cancel] at hback
    show TokenHolds s.relayInfo σ₀ (returnToken env noFaults
      (s.returnExtra noFaults ((s.funding.refund noFaults σ).after σ)).tokens s.relayInfo
      s.tokenConsumed) 0
    rw [ht, h.tokenConsumed]
    exact hback
  · -- nothing was taken, and nothing is given back
    have hneeds : s.needsRefund = false := by simpa using hneeds
    have hnone := h.needsRefund_eq_false hneeds
    rw [hnone] at hfunding htoken
    rw [hneeds]
    exact ⟨hfunding, htoken, nofun, nofun, fun _ => .inr (.inr hneeds)⟩

end

/-- The guard of `Refund`. -/
theorem refund_guarded (hguard : s.settled = true ∨ s.refunded = true ∨ s.needsRefund = false) :
    refund env noFaults ⟨s, σ⟩ = ⟨s, σ⟩ := by
  unfold refund
  rw [if_pos]
  rcases hguard with h | h | h <;> simp [h]

variable {call : SessionCall}

/-- A settled session does not change any more. -/
theorem step_settled (hsettled : s.settled = true) (actualQuota : Int) :
    step env ⟨⟨s, σ⟩, .settled actualQuota⟩ call = ⟨⟨s, σ⟩, .settled actualQuota⟩ := by
  cases call with
  | reserve targetQuota =>
    show SessionRun.mk (reserve env noFaults ⟨s, σ⟩ targetQuota).1 _ = _
    rw [reserve_guarded (.inl hsettled)]
  | settle a =>
    have hsame : settle env noFaults ⟨s, σ⟩ a = (⟨s, σ⟩, none) := if_pos hsettled
    unfold step
    dsimp only
    rw [hsame]
    rfl
  | refund =>
    show SessionRun.mk (refund env noFaults ⟨s, σ⟩) _ = _
    rw [refund_guarded (.inl hsettled)]
    rfl

/-- A refunded session only notes that it is settled. -/
theorem conserves_step_refunded (h : Conserves env σ₀ ⟨⟨s, σ⟩, .refunded⟩)
    (horderly : Orderly ⟨⟨s, σ⟩, .refunded⟩ call) :
    Conserves env σ₀ (step env ⟨⟨s, σ⟩, .refunded⟩ call) := by
  cases call with
  | reserve targetQuota =>
    unfold step
    dsimp only
    rw [reserve_guarded horderly]
    exact h
  | settle actualQuota =>
    -- settling after a refund only moves money if the amounts differ
    by_cases hsettled : s.settled = true
    · have hsame : settle env noFaults ⟨s, σ⟩ actualQuota = (⟨s, σ⟩, none) := if_pos hsettled
      unfold step
      dsimp only
      rw [hsame]
      exact h
    · have hquota : actualQuota = s.preConsumedQuota := horderly.resolve_left hsettled
      have hnote : settle env noFaults ⟨s, σ⟩ actualQuota =
          (⟨{ s with settled := true }, σ⟩, none) := by
        unfold settle
        dsimp only
        rw [if_neg hsettled, hquota, sub_self, if_pos (by decide)]
      unfold step
      dsimp only
      rw [hnote]
      exact ⟨h.funding, h.token, nofun, nofun, fun _ => .inl rfl⟩
  | refund =>
    unfold step
    dsimp only
    rw [refund_guarded (h.refunded rfl)]
    exact h

/-- Every call keeps what has been taken equal to what is due. -/
theorem conserves_step (r : SessionRun) (call : SessionCall) (h : Conserves env σ₀ r)
    (horderly : Orderly r call) : Conserves env σ₀ (r.step env call) := by
  obtain ⟨⟨s, σ⟩, phase⟩ := r
  cases phase with
  | pending =>
    cases call with
    | reserve targetQuota => exact conserves_reserve_pending h horderly
    | settle actualQuota => exact conserves_settle_pending h horderly
    | refund => exact conserves_refund_pending h
  | settled actualQuota =>
    rw [step_settled (h.settled actualQuota rfl)]
    exact h
  | refunded => exact conserves_step_refunded h horderly

/-- The token a session charges, unless it is a playground session. -/
def BillingSession.tokenOf (s : BillingSession) : Int × Bool :=
  (s.relayInfo.tokenId, s.relayInfo.isPlayground)

/-- No call changes which token a session charges. -/
theorem step_tokenOf (r : SessionRun) :
    (r.step env call).state.session.tokenOf = r.state.session.tokenOf := by
  cases call with
  | reserve targetQuota =>
    show (reserve env noFaults r.state targetQuota).1.session.tokenOf = _
    unfold reserve
    dsimp only
    -- only a reservation that succeeds synchronises the info
    split_ifs
    · rfl
    · rfl
    · split
      · rfl
      · split
        · rfl
        · exact Prod.ext (syncedInfo_tokenId _) (syncedInfo_isPlayground _)
  | settle actualQuota =>
    show (settle env noFaults r.state actualQuota).1.session.tokenOf = _
    have hclose : ∀ (s : BillingSession) delta, (s.close delta).tokenOf = s.tokenOf :=
      fun s delta => Prod.ext (s.close_tokenId delta) (s.close_isPlayground delta)
    unfold settle
    dsimp only
    split_ifs
    · rfl
    · rfl
    all_goals
      split
      · split
        · exact hclose ..
        · exact hclose ..
      · rfl
      · rfl
  | refund =>
    show (refund env noFaults r.state).session.tokenOf = _
    unfold refund
    dsimp only
    split_ifs <;> rfl

/-- The invariant says what has been taken. -/
theorem Conserves.conserved {r : SessionRun} (h : Conserves env σ₀ r)
    (htoken : r.state.session.relayInfo.isPlayground = false →
      ∃ t, σ₀.tokens.find? r.state.session.relayInfo.tokenId = some t) :
    Conserved env σ₀ r := by
  refine ⟨?_, fun hplayground => ?_⟩
  · have hfunding := h.funding
    unfold takenFunding
    -- what is held is the difference of the balances
    cases hf : r.state.session.funding with
    | wallet userId consumed =>
      rw [hf] at hfunding
      obtain ⟨⟨u, hu⟩, husers⟩ := hfunding
      dsimp only
      rw [husers, getUserQuota_addUserQuota hu, if_pos rfl]
      omega
    | subscription f =>
      rw [hf] at hfunding
      have hused := SubHolds.usedOf_eq hfunding
      dsimp only
      omega
  · obtain ⟨t, ht⟩ := htoken hplayground
    unfold takenToken
    dsimp only
    rw [h.token, tokenQuota, ht]
    simp [tokenMove, hplayground]

end Steps

/-! ### Sessions from the factory -/

/-- The subscriptions are within their totals, and an unlimited one can take the
amount without leaving a word. -/
def SubsFit (amount : Int) (σ : Store) : Prop :=
  ∀ sub ∈ σ.subs.rows, RowBound sub ∧ 0 ≤ sub.amountUsed ∧
    (sub.amountTotal ≤ 0 → sub.amountUsed + max amount 1 < 9223372036854775808)

instance (amount : Int) (σ : Store) : Decidable (SubsFit amount σ) :=
  have (sub : UserSubscription) : Decidable (RowBound sub) :=
    inferInstanceAs (Decidable (_ ∧ (_ → _)))
  inferInstanceAs (Decidable (∀ sub ∈ σ.subs.rows, _))

section Factory

variable {env : BillingEnv} {relayInfo : RelayInfo}

/-- A charged subscription holds the amount on top of what was used before. -/
theorem SubCharged.holds {k q : Int}
    (h : SubCharged env.zone env.now relayInfo.userId q σ σ₁ k) (hfit : SubsFit amount σ)
    (hq : 0 ≤ q) (hle : q ≤ max amount 1) :
    SubHolds (usedDue env.zone env.now σ k) k q σ₁ := by
  obtain ⟨row, hrow, rfl, plan, hplan, hroom, hcharged⟩ := h.charged
  obtain ⟨hmem, -, -⟩ := mem_candidates.mp hrow
  obtain ⟨⟨⟨-, htotal⟩, hbound⟩, hnonneg, hunlimited⟩ := hfit row hmem
  have hfind : σ.subs.find? row.id = some row := Table.find?_eq_some.mpr ⟨hmem, rfl⟩
  have hdue : usedDue env.zone env.now σ row.id =
      (afterReset env.zone env.now plan row).amountUsed := by
    unfold usedDue
    rw [hfind]
    dsimp only
    rw [hplan]
  obtain ⟨base, _, _, hreset, hafter⟩ := afterReset_eq env.zone env.now plan row
  rw [hafter] at hdue hroom hcharged
  dsimp only at hdue hroom
  rw [hdue]
  -- a limited subscription had room for the amount
  have hlimited : 0 < row.amountTotal → base + q ≤ row.amountTotal := by
    intro hpos
    obtain ⟨-, hused⟩ := hbound hpos
    have hword : wrap64 (row.amountTotal - base) = row.amountTotal - base :=
      wrap64_eq_self ⟨by omega, by omega⟩
    by_contra hover
    exact hroom ⟨hpos, by omega⟩
  have hlt : base + q < 9223372036854775808 := by
    by_cases hpos : 0 < row.amountTotal
    · have := hlimited hpos
      omega
    · have := hunlimited (not_lt.mp hpos)
      omega
  refine ⟨⟨_, hcharged, ?_, hlimited⟩, by omega, by omega, hlt⟩
  show wrap64 (base + q) = base + q
  exact wrap64_eq_self ⟨by omega, by omega⟩

/-- A session from the factory is open, and has taken its advance charge. -/
theorem Opened.conserves (h : Opened env relayInfo amount σ σ₁ s) (hamount : IsInt64 amount)
    (hfit : SubsFit amount σ) : Conserves env σ ⟨⟨s, σ₁⟩, .pending⟩ := by
  have hnonneg := h.nonneg
  have hle := h.le
  have hword := hamount.2
  have htoken : TokenHolds relayInfo σ σ₁.tokens s.preConsumedQuota := h.tokens
  refine conserves_pending ⟨hnonneg, by omega, h.tokenConsumed, ?_, ?_, h.fundingSettled,
    h.settled, h.refunded, ?_⟩ ?_ (htoken.congr h.tokenId h.playground)
  · rw [h.extraReserved]
  · rw [h.extraReserved]
    exact hnonneg
  · -- the record of the subscription is open and has the whole amount
    have hfunding := h.funding
    unfold FundingOpened at hfunding
    unfold FundingPending
    cases hf : s.funding with
    | wallet userId consumed =>
      rw [hf] at hfunding
      exact hfunding.2.1
    | subscription f =>
      rw [hf] at hfunding
      obtain ⟨-, hrequest, hpre, hpos, hid, -, -, id, hrecord⟩ := hfunding
      refine ⟨hrequest, hpos, ?_, hid, _, hrecord, rfl, rfl, hpre.symm⟩
      rw [h.extraReserved, add_zero, hpre]
  · have hfunding := h.funding
    unfold FundingOpened at hfunding
    cases hf : s.funding with
    | wallet userId consumed =>
      rw [hf] at hfunding
      obtain ⟨-, -, hpos, husers, -⟩ := hfunding
      exact ⟨find?_of_getUserQuota hpos, husers⟩
    | subscription f =>
      rw [hf] at hfunding
      obtain ⟨-, -, -, -, -, -, hcharged, -⟩ := hfunding
      exact hcharged.holds hfit hnonneg hle

end Factory

/-- **Conservation.**  A session from the factory has taken from its funding
source, and from its token, what is due in its phase, after any calls that do
not act on it once it has been refunded. -/
theorem session_conserved (env : BillingEnv) (faults : BillingSource → Faults)
    (hcomp : ∀ source, faults source .increaseTokenQuota = none) (σ σ₁ : Store)
    (relayInfo relayInfo₁ : RelayInfo) (amount : Int) (hword : IsInt64 amount)
    (hamount : 0 ≤ amount) (hnew : σ.findRecord relayInfo.requestId = none)
    (htoken : relayInfo.isPlayground = false → ∃ t, σ.tokens.find? relayInfo.tokenId = some t)
    (hfit : SubsFit amount σ) (s : BillingSession)
    (hopen : newBillingSession env faults σ relayInfo amount = some (.ok s, relayInfo₁, σ₁))
    (calls : List SessionCall)
    (hcalls : Run.Along Orderly (step env) ⟨⟨s, σ₁⟩, .pending⟩ calls) :
    Conserved env σ (Run.exec (step env) ⟨⟨s, σ₁⟩, .pending⟩ calls) := by
  have hopened := (sound_newBillingSession env hcomp σ relayInfo amount).opened hamount hnew
    s relayInfo₁ σ₁ hopen
  have hstart : Conserves env σ ⟨⟨s, σ₁⟩, .pending⟩ := hopened.conserves hword hfit
  have hrun := Run.exec_invariant_along conserves_step hstart hcalls
  have htokenOf : (Run.exec (step env) ⟨⟨s, σ₁⟩, .pending⟩ calls).state.session.tokenOf =
      s.tokenOf :=
    Run.exec_invariant (fun r call hr => (step_tokenOf r).trans hr) rfl calls
  refine hrun.conserved fun hplayground => ?_
  obtain ⟨hid, hpg⟩ := Prod.mk.inj htokenOf
  rw [hid, hopened.tokenId]
  refine htoken ?_
  rw [← hopened.playground, ← hpg]
  exact hplayground

/-- The session of a successful attempt, with its store. -/
def Attempt.state : Attempt → Option SessionState
  | some (.ok session, _, store) => some ⟨session, store⟩
  | _ => none

theorem Attempt.state_eq_some {a : Attempt} {w : SessionState} (h : a.state = some w) :
    ∃ relayInfo, a = some (.ok w.session, relayInfo, w.store) := by
  unfold Attempt.state at h
  split at h
  · rename_i session relayInfo store
    injection h with h
    exact ⟨relayInfo, by rw [← h]⟩
  · cases h

/-- A request with the given preference. -/
def request (billingPreference : String) : RelayInfo :=
  { userId := 1, tokenId := 1, tokenKey := "sk", requestId := "r", billingPreference }

/-- Five units of a plan, raised to eight and settled with seven. -/
theorem session_conserved_reserved :
    ∃ w, (newBillingSession strictEnv (fun _ => noFaults) twentyOnPlan
        (request "subscription_only") 5).state = some w ∧
      Conserved strictEnv twentyOnPlan
        (Run.exec (step strictEnv) ⟨w, .pending⟩ [.reserve 8, .settle 7, .refund]) := by
  have hcalls : ∃ w, (newBillingSession strictEnv (fun _ => noFaults) twentyOnPlan
      (request "subscription_only") 5).state = some w ∧
        Run.Along Orderly (step strictEnv) ⟨w, .pending⟩
          [.reserve 8, .settle 7, .refund] := by
    decide +kernel
  obtain ⟨w, hw, hcalls⟩ := hcalls
  obtain ⟨relayInfo, hopen⟩ := Attempt.state_eq_some hw
  exact ⟨w, hw, session_conserved strictEnv _ (fun _ => rfl) twentyOnPlan w.store
    (request "subscription_only") relayInfo 5 (by decide) (by decide) (by decide)
    (fun _ => ⟨_, rfl⟩) (by decide +kernel) w.session hopen _ hcalls⟩

/-- A hundred units of the wallet are given back, and then settled with sixty:
the user gains forty. -/
theorem settle_after_refund : ∃ w, (newBillingSession strictEnv (fun _ => noFaults) twentyOnPlan
        (request "wallet_only") 100).state = some w ∧
      ¬ Conserved strictEnv twentyOnPlan
        (Run.exec (step strictEnv) ⟨w, .pending⟩ [.refund, .settle 60]) := by
  decide +kernel
