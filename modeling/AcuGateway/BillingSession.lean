/-
The billing session of a request.

A session charges a request in advance against a funding source (the wallet of
the user, or one of the user's subscriptions) and against the token of the
request, and later settles the real cost or gives the charge back.  The token
and the funding source are charged by separate statements, and a failed
statement is answered by compensating ones.

Every database call of a session may fail: `Faults` says which calls do, and
with which error.  A failed call leaves the store as it was.

* `newBillingSession` — the factory, with its four billing preferences;
* `BillingSession.preConsume` — token first, then the funding source;
* `BillingSession.reserve`, `BillingSession.settle`, `BillingSession.refund` —
  the calls on an open session.
-/
import AcuGateway.Subscription

open Text (trimSpace contains)

/-! ### Errors -/

inductive ErrorCode
  | queryDataError
  | updateDataError
  | insufficientUserQuota
  | preConsumeTokenQuotaFailed
  | modelPriceError
deriving DecidableEq

structure NewAPIError where
  message : String
  errorCode : ErrorCode
  statusCode : Nat
  skipRetry : Bool
  recordErrorLog : Bool

/-- `types.NewError` with the option to skip retries. -/
def newError (message : String) (errorCode : ErrorCode) : NewAPIError :=
  ⟨message, errorCode, 500, true, true⟩

/-- `types.NewErrorWithStatusCode` as a refusal that is not logged. -/
def forbidden (message : String) (errorCode : ErrorCode) : NewAPIError :=
  ⟨message, errorCode, 403, true, false⟩

/-! ### The request -/

inductive BillingSource
  | wallet
  | subscription
deriving DecidableEq

/-- What billing reads and writes of a request. -/
structure RelayInfo where
  userId : Int
  tokenId : Int
  tokenKey : String
  requestId : String
  billingPreference : String := ""
  isPlayground : Bool := false
  tokenUnlimited : Bool := false
  forcePreConsume : Bool := false
  /-- Set when the price of the request was cut off. -/
  quotaClamp : Option String := none
  userQuota : Int := 0
  finalPreConsumedQuota : Int := 0
  billingSource : Option BillingSource := none
  subscriptionId : Int := 0
  subscriptionPreConsumed : Int := 0
  subscriptionPostDelta : Int := 0
  subscriptionAmountTotal : Int := 0
  subscriptionAmountUsedAfterPreConsume : Int := 0

/-- The setting a call runs in: time zone and time, the trusted amount, the
quota of the token as the request context has it, and how amounts are shown. -/
structure BillingEnv where
  zone : Int
  now : Int
  trustQuota : Int
  tokenQuota : Int
  formatQuota : Int → String

/-- The database calls of a session. -/
inductive StoreCall
  | getUserQuota
  | hasActiveUserSubscription
  | userActiveSubscriptionsAllowWalletOverflow
  | getTokenByKey
  | decreaseTokenQuota
  | increaseTokenQuota
  | decreaseUserQuota
  | increaseUserQuota
  | preConsumeUserSubscription
  | postConsumeUserSubscriptionDelta
  | refundSubscriptionPreConsume

/-- The error that a database call returns instead of doing its work. -/
abbrev Faults := StoreCall → Option String

/-- Every call succeeds. -/
def noFaults : Faults := fun _ => none

/-- A statement that fails when it has a fault. -/
def orFault {α : Type} (fault : Option String) (x : Except String α) : Except String α :=
  match fault with
  | some e => .error e
  | none => x

/-- A transaction that fails when it has a fault. -/
def orFaultTx {α : Type} (fault : Option String) (t : Tx Store α) : Tx Store α :=
  match fault with
  | some e => .rollback e
  | none => t

variable (env : BillingEnv) (faults : Faults) (tokens : Tokens) (relayInfo : RelayInfo)

def preConsumeTokenQuota (quota : Int) : Except String Tokens :=
  if quota < 0 then .error negativeQuota
  else if relayInfo.isPlayground then .ok tokens
  else
    match orFault (faults .getTokenByKey)
        ((getTokenByKey tokens relayInfo.tokenKey).elim (.error recordNotFound) .ok) with
    | .error e => .error e
    | .ok token =>
      if !relayInfo.tokenUnlimited && token.remainQuota < quota then
        .error ("token quota is not enough, token remain quota: " ++
          env.formatQuota token.remainQuota ++ ", need quota: " ++ env.formatQuota quota)
      else
        orFault (faults .decreaseTokenQuota)
          (decreaseTokenQuota tokens relayInfo.tokenId quota env.now)

/-! ### Funding sources -/

structure SubscriptionFunding where
  requestId : String
  userId : Int
  amount : Int
  subscriptionId : Int := 0
  preConsumed : Int := 0
  amountTotal : Int := 0
  amountUsedAfter : Int := 0

inductive FundingSource
  | wallet (userId consumed : Int)
  | subscription (funding : SubscriptionFunding)

variable (σ : Store)

namespace FundingSource

def source : FundingSource → BillingSource
  | wallet .. => .wallet
  | subscription _ => .subscription

/-- A subscription ignores the argument and charges its own amount. -/
def preConsume (amount : Int) : FundingSource → Tx Store FundingSource
  | wallet userId consumed =>
    if amount ≤ 0 then .commit (wallet userId consumed) σ
    else
      match orFault (faults .decreaseUserQuota) (decreaseUserQuota σ.users userId amount) with
      | .error e => .rollback e
      | .ok users => .commit (wallet userId amount) { σ with users }
  | subscription f =>
    match orFaultTx (faults .preConsumeUserSubscription)
        (preConsumeUserSubscription env.zone σ f.requestId f.userId f.amount env.now) with
    | .commit res σ' =>
      .commit (subscription { f with
        subscriptionId := res.userSubscriptionId
        preConsumed := res.preConsumed
        amountTotal := res.amountTotal
        amountUsedAfter := res.amountUsedAfter }) σ'
    | .rollback e => .rollback e
    | .diverge => .diverge

/-- Add `delta` to what a user has paid: a positive amount is taken from the
quota, a negative one is given back. -/
def walletDelta (userId delta : Int) : Tx Store Unit :=
  match (if 0 < delta then
      orFault (faults .decreaseUserQuota) (decreaseUserQuota σ.users userId delta)
    else orFault (faults .increaseUserQuota)
      (increaseUserQuota σ.users userId (wrap64 (-delta)))) with
  | .error e => .rollback e
  | .ok users => .commit () { σ with users }

/-- `PostConsumeUserSubscriptionDelta` for a request. -/
def subscriptionDelta (requestId : String) (subscriptionId delta : Int) : Tx Store Unit :=
  orFaultTx (faults .postConsumeUserSubscriptionDelta)
    (postConsumeUserSubscriptionDelta σ subscriptionId delta
      (.adjusted subscriptionId requestId delta))

def settle (delta : Int) : FundingSource → Tx Store Unit
  | wallet userId _ => if delta = 0 then .commit () σ else walletDelta faults σ userId delta
  | subscription f =>
    if delta = 0 then .commit () σ
    else subscriptionDelta faults σ f.requestId f.subscriptionId delta

/-- A fault refuses every attempt before it writes, so the retries end in one success
or in none; `refundWithRetry` has the attempts that fail half-way. -/
def refund : FundingSource → Tx Store Unit
  | wallet userId consumed =>
    if consumed ≤ 0 then .commit () σ
    else
      match orFault (faults .increaseUserQuota) (increaseUserQuota σ.users userId consumed) with
      | .error e => .rollback e
      | .ok users => .commit () { σ with users }
  | subscription f =>
    if f.preConsumed ≤ 0 then .commit () σ
    else
      orFaultTx (faults .refundSubscriptionPreConsume) (refundSubscriptionPreConsume σ f.requestId)

end FundingSource

/-! ### Sessions -/

structure BillingSession where
  relayInfo : RelayInfo
  funding : FundingSource
  preConsumedQuota : Int := 0
  tokenConsumed : Int := 0
  extraReserved : Int := 0
  trusted : Bool := false
  fundingSettled : Bool := false
  settled : Bool := false
  refunded : Bool := false

variable (s : BillingSession)

namespace BillingSession

/-- Only a wallet is trusted: a subscription always charges its own amount. -/
def shouldTrust : Bool :=
  !s.relayInfo.forcePreConsume && decide (0 < env.trustQuota) &&
    (s.relayInfo.tokenUnlimited || decide (env.trustQuota < env.tokenQuota)) &&
    match s.funding.source with
    | .wallet => decide (env.trustQuota < s.relayInfo.userQuota)
    | .subscription => false

/-- The fields of the request that show the state of the session. -/
def syncedInfo : RelayInfo :=
  let info := { s.relayInfo with
    finalPreConsumedQuota := s.preConsumedQuota
    billingSource := some s.funding.source }
  match s.funding with
  | .wallet .. => { info with subscriptionId := 0, subscriptionPreConsumed := 0 }
  | .subscription f =>
    { info with
      subscriptionId := f.subscriptionId
      subscriptionPreConsumed := wrap64 (f.preConsumed + s.extraReserved)
      subscriptionPostDelta := 0
      subscriptionAmountTotal := f.amountTotal
      subscriptionAmountUsedAfterPreConsume := wrap64 (f.amountUsedAfter + s.extraReserved) }

def syncRelayInfo : BillingSession := { s with relayInfo := s.syncedInfo }

@[simp] theorem syncedInfo_tokenId : s.syncedInfo.tokenId = s.relayInfo.tokenId := by
  unfold syncedInfo
  cases s.funding <;> rfl

@[simp] theorem syncedInfo_isPlayground : s.syncedInfo.isPlayground = s.relayInfo.isPlayground := by
  unfold syncedInfo
  cases s.funding <;> rfl

/-- The error of a funding source that could not be charged. -/
def fundingError (e : String) : NewAPIError :=
  if contains e "no active subscription" || contains e "subscription quota insufficient" then
    forbidden ("订阅额度不足或未配置订阅: " ++ e) .insufficientUserQuota
  else newError e .updateDataError

/-- Give `amount` back to the token; an error is only logged. -/
def returnToken (amount : Int) : Tokens :=
  if 0 < amount ∧ relayInfo.isPlayground = false then
    match orFault (faults .increaseTokenQuota)
        (increaseTokenQuota tokens relayInfo.tokenId amount env.now) with
    | .error _ => tokens
    | .ok tokens' => tokens'
  else tokens

/-- A trusted session charges nothing in advance. -/
def effectiveQuota (quota : Int) : Int := if s.shouldTrust env then 0 else quota

def chargeToken (quota : Int) : Except String Tokens :=
  if 0 < quota then preConsumeTokenQuota env faults tokens relayInfo quota else .ok tokens

/-- Charge the token, then the funding source; a funding source that cannot be
charged gives the token its quota back.  `none` when the call does not return. -/
def preConsume (σ : Store) (s : BillingSession) (quota : Int) :
    Option (Except NewAPIError BillingSession × Store) :=
  let effectiveQuota := s.effectiveQuota env quota
  match chargeToken env faults σ.tokens s.relayInfo effectiveQuota with
  | .error e => some (.error (forbidden e .preConsumeTokenQuotaFailed), σ)
  | .ok tokens =>
    let tokenConsumed := if 0 < effectiveQuota then effectiveQuota else s.tokenConsumed
    match s.funding.preConsume env faults { σ with tokens } effectiveQuota with
    | .diverge => none
    -- the transaction of the funding source left no trace, the token is undone by hand
    | .rollback e =>
      some (.error (fundingError e),
        { σ with tokens := returnToken env faults tokens s.relayInfo tokenConsumed })
    | .commit funding σ' =>
      some (.ok (syncRelayInfo
        { s with
          trusted := s.trusted || s.shouldTrust env
          funding
          tokenConsumed
          preConsumedQuota := effectiveQuota }), σ')

end BillingSession

/-! ### The factory -/

def normalizeBillingPreference (pref : String) : String :=
  if trimSpace pref ∈ ["subscription_first", "wallet_first", "subscription_only", "wallet_only"]
  then trimSpace pref else "subscription_first"

/-- What an attempt to open a session ends with: an error or a session, the
request, which both attempts share, and the store.  `none` when the attempt does
not return. -/
abbrev Attempt := Option (Except NewAPIError BillingSession × RelayInfo × Store)

/-- An attempt that fails before it writes anything. -/
def Attempt.refuse (e : NewAPIError) (relayInfo : RelayInfo) (σ : Store) : Attempt :=
  some (.error e, relayInfo, σ)

variable (relayInfo : RelayInfo)

/-- Open a session and run its pre-consume. -/
def openSession (funding : FundingSource) (quota : Int) : Attempt :=
  (BillingSession.preConsume env faults σ { relayInfo, funding } quota).map fun r =>
    (r.1, match r.1 with
      | .ok session => session.relayInfo
      | .error _ => relayInfo, r.2)

variable (preConsumedQuota : Int)

def tryWallet : Attempt :=
  match orFault (faults .getUserQuota) (.ok (getUserQuota σ.users relayInfo.userId)) with
  | .error e => Attempt.refuse (newError e .queryDataError) relayInfo σ
  | .ok userQuota =>
    if userQuota ≤ 0 then
      Attempt.refuse (forbidden ("用户额度不足, 剩余额度: " ++ env.formatQuota userQuota)
        .insufficientUserQuota) relayInfo σ
    else if wrap64 (userQuota - preConsumedQuota) < 0 then
      Attempt.refuse (forbidden ("预扣费额度失败, 用户剩余额度: " ++ env.formatQuota userQuota ++
        ", 需要预扣费额度: " ++ env.formatQuota preConsumedQuota) .insufficientUserQuota)
        relayInfo σ
    else
      openSession env faults σ { relayInfo with userQuota } (.wallet relayInfo.userId 0)
        preConsumedQuota

/-- The smallest charge on a subscription is 1. -/
def trySubscription : Attempt :=
  let subConsume := if preConsumedQuota ≤ 0 then 1 else preConsumedQuota
  openSession env faults σ relayInfo
    (.subscription
      { requestId := relayInfo.requestId, userId := relayInfo.userId, amount := subConsume })
    subConsume

/-- Try again when an attempt fails for want of quota. -/
def orElseIfInsufficient (a : Attempt) (next : NewAPIError → RelayInfo → Store → Attempt) :
    Attempt :=
  match a with
  | some (.error e, relayInfo, σ) =>
    if e.errorCode = .insufficientUserQuota then next e relayInfo σ
    else some (.error e, relayInfo, σ)
  | a => a

/-- Each attempt runs at most once, so the faults are given for each source. -/
def newBillingSession (faults : BillingSource → Faults) (σ : Store)
    (relayInfo : RelayInfo) (preConsumedQuota : Int) : Attempt :=
  let wallet := fun info σ => tryWallet env (faults .wallet) σ info preConsumedQuota
  let subscription := fun info σ =>
    trySubscription env (faults .subscription) σ info preConsumedQuota
  match normalizeBillingPreference relayInfo.billingPreference with
  | "subscription_only" => subscription relayInfo σ
  | "wallet_only" => wallet relayInfo σ
  | "wallet_first" =>
    orElseIfInsufficient (wallet relayInfo σ) fun _ info σ' => subscription info σ'
  | _ =>
    match orFault (faults .subscription .hasActiveUserSubscription)
        (hasActiveUserSubscription σ relayInfo.userId env.now) with
    | .error e => Attempt.refuse (newError e .queryDataError) relayInfo σ
    | .ok false => wallet relayInfo σ
    | .ok true =>
      orElseIfInsufficient (subscription relayInfo σ) fun apiErr info σ' =>
        -- the wallet pays only if every live subscription of the user lets it
        match orFault (faults .subscription .userActiveSubscriptionsAllowWalletOverflow)
            (userActiveSubscriptionsAllowWalletOverflow σ' relayInfo.userId env.now) with
        | .error e => Attempt.refuse (newError e .queryDataError) info σ'
        | .ok true => wallet info σ'
        | .ok false => some (.error apiErr, info, σ')

/-- The entry point of the relay: a price that was cut off or is negative opens
no session. -/
def preConsumeBilling (faults : BillingSource → Faults) (σ : Store)
    (relayInfo : RelayInfo) (preConsumedQuota : Int) : Attempt :=
  match relayInfo.quotaClamp with
  | some clamp =>
    Attempt.refuse ⟨clamp, .modelPriceError, 400, true, true⟩ relayInfo σ
  | none =>
    if preConsumedQuota < 0 then
      Attempt.refuse ⟨"pre-consume quota cannot be negative: " ++ toString preConsumedQuota,
        .modelPriceError, 400, true, true⟩ relayInfo σ
    else newBillingSession env faults σ relayInfo preConsumedQuota

/-! ### Calls on a session -/

/-- A session and the store it works on. -/
structure SessionState where
  session : BillingSession
  store : Store

namespace BillingSession

variable (delta : Int)

/-- Move the token by the difference between the real and the advance charge. -/
def adjustToken : Except String Tokens :=
  if relayInfo.isPlayground then .ok tokens
  else if 0 < delta then
    orFault (faults .decreaseTokenQuota) (decreaseTokenQuota tokens relayInfo.tokenId delta env.now)
  else
    orFault (faults .increaseTokenQuota)
      (increaseTokenQuota tokens relayInfo.tokenId (wrap64 (-delta)) env.now)

/-- The session once its funding source has been settled; the token may have
failed. -/
def close : BillingSession :=
  { s with
    fundingSettled := true
    settled := true
    relayInfo := if s.funding.source = .subscription then
      { s.relayInfo with
        subscriptionPostDelta := wrap64 (s.relayInfo.subscriptionPostDelta + delta) }
      else s.relayInfo }

theorem close_tokenId : (s.close delta).relayInfo.tokenId = s.relayInfo.tokenId := by
  unfold close
  dsimp only
  split_ifs <;> rfl

theorem close_isPlayground : (s.close delta).relayInfo.isPlayground = s.relayInfo.isPlayground := by
  unfold close
  dsimp only
  split_ifs <;> rfl

variable (w : SessionState)

/-- The guard does not test `refunded`. -/
def settle (actualQuota : Int) : SessionState × Option String :=
  let s := w.session
  let delta := wrap64 (actualQuota - s.preConsumedQuota)
  if s.settled then (w, none)
  else if delta = 0 then ({ w with session := { s with settled := true } }, none)
  else
    -- a settlement whose funding source was settled by an earlier call goes on with the token
    match (if s.fundingSettled then .commit () w.store
      else s.funding.settle faults w.store delta) with
    | .commit _ σ =>
      match adjustToken env faults σ.tokens s.relayInfo delta with
      | .ok tokens => (⟨s.close delta, { σ with tokens }⟩, none)
      -- the funding source has been moved, so the session is closed all the same
      | .error e => (⟨s.close delta, σ⟩, some e)
    | .rollback e => (w, some e)
    | .diverge => (w, none)

def needsRefund : Bool :=
  if s.settled || s.refunded || s.fundingSettled then false
  else if 0 < s.tokenConsumed then true
  else
    match s.funding with
    | .wallet .. => false
    | .subscription f => 0 < f.preConsumed

/-- Give back what was reserved on a subscription after the pre-consume. -/
def returnExtra (σ : Store) (s : BillingSession) : Store :=
  match s.funding with
  | .wallet .. => σ
  | .subscription f =>
    if 0 < s.extraReserved ∧ 0 < s.relayInfo.subscriptionId then
      (FundingSource.subscriptionDelta faults σ f.requestId s.relayInfo.subscriptionId
        (-s.extraReserved)).after σ
    else σ

/-- The statements run in the background, one after the other, and their errors
are only logged. -/
def refund : SessionState :=
  let s := w.session
  if s.settled || s.refunded || !s.needsRefund then w
  else
    let σ := s.returnExtra faults ((s.funding.refund faults w.store).after w.store)
    ⟨{ s with refunded := true },
      { σ with tokens := returnToken env faults σ.tokens s.relayInfo s.tokenConsumed }⟩

def reserveFunding : FundingSource → Except NewAPIError (FundingSource × Store)
  | .wallet userId consumed =>
    match orFault (faults .decreaseUserQuota) (decreaseUserQuota σ.users userId delta) with
    | .error e => .error (newError e .updateDataError)
    | .ok users => .ok (.wallet userId (wrap64 (consumed + delta)), { σ with users })
  | .subscription f =>
    match FundingSource.subscriptionDelta faults σ f.requestId f.subscriptionId delta with
    | .commit _ σ' => .ok (.subscription f, σ')
    | .rollback e =>
      .error (forbidden ("订阅额度不足或未配置订阅: " ++ e) .insufficientUserQuota)
    | .diverge => .ok (.subscription f, σ)

def rollbackFundingReserve : FundingSource → FundingSource × Store
  | .wallet userId consumed =>
    match orFault (faults .increaseUserQuota) (increaseUserQuota σ.users userId delta) with
    | .error _ => (.wallet userId consumed, σ)
    | .ok users => (.wallet userId (wrap64 (consumed - delta)), { σ with users })
  | .subscription f =>
    (.subscription f,
      (FundingSource.subscriptionDelta faults σ f.requestId f.subscriptionId (-delta)).after σ)

def reserveToken : Except NewAPIError Tokens :=
  if delta ≤ 0 ∨ relayInfo.isPlayground = true then .ok tokens
  else
    match preConsumeTokenQuota env faults tokens relayInfo delta with
    | .error e => .error (forbidden e .preConsumeTokenQuotaFailed)
    | .ok tokens' => .ok tokens'

/-- Raise the advance charge to `targetQuota`. -/
def reserve (targetQuota : Int) : SessionState × Option NewAPIError :=
  let s := w.session
  let delta := wrap64 (targetQuota - s.preConsumedQuota)
  if s.settled || s.refunded || s.trusted || decide (targetQuota ≤ s.preConsumedQuota) then
    (w, none)
  else if delta ≤ 0 then (w, none)
  else
    match reserveFunding faults w.store delta s.funding with
    | .error e => (w, some e)
    | .ok (funding, σ) =>
      match reserveToken env faults σ.tokens s.relayInfo delta with
      -- the counters are raised only when both charges went through
      | .error e =>
        let back := rollbackFundingReserve faults σ delta funding
        (⟨{ s with funding := back.1 }, back.2⟩, some e)
      | .ok tokens =>
        (⟨syncRelayInfo { s with
            funding
            preConsumedQuota := wrap64 (s.preConsumedQuota + delta)
            tokenConsumed := wrap64 (s.tokenConsumed + delta)
            extraReserved := wrap64 (s.extraReserved + delta) }, { σ with tokens }⟩, none)

end BillingSession
