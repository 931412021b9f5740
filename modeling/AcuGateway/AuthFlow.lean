/-
One-time state of authentication ceremonies.

A flow is a row under the hash of a random token.  It is consumed in a transaction that may do more,
and that undoes the consumption if it fails.  An assertion of an external provider is claimed by
inserting a row that is consumed already, under the hash of the assertion; as hashes are unique, a
second claim inserts nothing.  A clean-up deletes the rows that expired or were consumed a day ago.

* `AuthFlows.step` — the statements of the calls, and the passing of time between them;
* `AuthFlows.World.honour` — what a transaction commits.
-/
import AcuGateway.Lib.Table
import AcuGateway.Lib.Text
import AcuGateway.Lib.Threads

open Text (trimSpace)

/-! ### Rows -/

/-- Times are in nanoseconds. -/
structure AuthFlow where
  id : Int
  tokenHash : String
  purpose : String
  provider : String
  intent : String
  userId : Int
  sessionId : String
  payload : String
  expiresAt : Int
  consumedAt : Option Int
deriving DecidableEq

structure AuthFlowCreate where
  purpose : String
  provider : String
  intent : String
  userId : Int
  sessionId : String
  payload : String
  expiresAt : Int

structure AuthFlowMatch where
  purpose : String
  provider : String
  intent : String
  userId : Int
  sessionId : String

/-- What a caller names, the flow has; the purpose is always named. -/
def AuthFlowMatch.MatchedBy (wanted : AuthFlowMatch) (flow : AuthFlow) : Prop :=
  flow.purpose = wanted.purpose ∧ (wanted.provider ≠ "" → flow.provider = wanted.provider) ∧
    (wanted.intent ≠ "" → flow.intent = wanted.intent) ∧
    (wanted.userId ≠ 0 → flow.userId = wanted.userId) ∧
    (wanted.sessionId ≠ "" → flow.sessionId = wanted.sessionId)
deriving Decidable

/-- `authFlowTokenHash`, and when an assertion of a provider expires. -/
structure AuthFlowEnv where
  tokenHash : String → String
  expiry : String → String → Int
  /-- The database has row locks. -/
  locking : Bool

def authFlowDefaultCleanupRetention : Int := 24 * 3600 * 1000000000

namespace AuthFlowEnv

variable (env : AuthFlowEnv)

variable (purpose assertion : String)

def assertionHash : String := env.tokenHash ("external:" ++ purpose ++ ":" ++ assertion)

def newFlow (input : AuthFlowCreate) (token : String) (id : Int) : AuthFlow where
  id
  tokenHash := env.tokenHash token
  purpose := input.purpose
  provider := input.provider
  intent := input.intent
  userId := input.userId
  sessionId := input.sessionId
  payload := input.payload
  expiresAt := input.expiresAt
  consumedAt := none

def newAssertion (now : Int) (id : Int) : AuthFlow where
  id
  tokenHash := env.assertionHash purpose assertion
  purpose
  provider := ""
  intent := ""
  userId := 0
  sessionId := ""
  payload := ""
  expiresAt := env.expiry purpose assertion
  consumedAt := some now

end AuthFlowEnv

/-- The rows that a consumption updates: the flow, if it is neither consumed nor expired. -/
def isConsumable (id now : Int) (flow : AuthFlow) : Bool :=
  flow.id = id ∧ flow.consumedAt = none ∧ now < flow.expiresAt

/-- The rows that a clean-up deletes. -/
def isStale (now : Int) (flow : AuthFlow) : Bool :=
  flow.expiresAt < now - authFlowDefaultCleanupRetention ∨
    ∃ consumedAt ∈ flow.consumedAt, consumedAt < now - authFlowDefaultCleanupRetention

/-! ### Calls -/

namespace AuthFlows

/-- A row that was inserted; the row of a flow comes with its token. -/
structure Issue where
  row : AuthFlow
  token : Option String
deriving DecidableEq

structure Consumption where
  flowId : Int
  token : String
  wanted : AuthFlowMatch
  at_ : Int

structure Claim where
  purpose : String
  assertion : String
  at_ : Int
deriving DecidableEq

/-- What the calls share: the committed rows, the earlier ones that a read without a lock may still
see, the locks on rows and index entries by token hash, the time; and what was inserted, consumed
and claimed so far, in that order. -/
structure World where
  flows : Table AuthFlow.id
  past : List (Table AuthFlow.id)
  locks : Locks String
  clock : Int
  issued : List Issue
  consumed : List Consumption
  claimed : List Claim

/-- What a transaction is going to commit. -/
structure Pending where
  consumed : Option Consumption
  claims : List Claim

inductive Call
  | idle
  | creating (token : String) (input : AuthFlowCreate)
  | begun (token : String) (wanted : AuthFlowMatch)
  | found (flow : AuthFlow) (token : String) (wanted : AuthFlowMatch)
  | checked (flow : AuthFlow) (token : String) (wanted : AuthFlowMatch) (now : Int)
  | acting (tx : Pending)
  | claiming (tx : Pending) (purpose assertion : String) (now : Int)
  | sweeping (now : Int)
  | returned (result : Except String Unit)

/-- `tick` lets time pass.  A transaction that consumes a flow goes on with an action, and `openTx`
is a transaction without a flow; both may `claim` assertions.  Any transaction may fail. -/
inductive Act
  | tick (duration : Nat)
  | create (input : AuthFlowCreate) (token : String)
  | insertFlow
  | consume (token : String) (wanted : AuthFlowMatch)
  | read (version : Nat)
  | check
  | update
  | openTx
  | claim (purpose assertion : String)
  | insertClaim
  | commit
  | fail
  | sweep
  | delete

variable (env : AuthFlowEnv)

/-- A transaction ends without effect. -/
def rollback (i : Nat) (w : World) (err : String) : World × Call :=
  ({ w with locks := w.locks.release i }, .returned (.error err))

variable (w : World)

def World.seen (version : Nat) : Table AuthFlow.id :=
  if env.locking then w.flows else w.past.getD version w.flows

/-- A flow is consumed for good. -/
def World.honourConsumption (consumption : Consumption) : World :=
  { w with
    flows := w.flows.update (isConsumable consumption.flowId consumption.at_)
      (fun flow => { flow with consumedAt := some consumption.at_ }) fun _ _ => rfl
    consumed := w.consumed ++ [consumption] }

/-- A claim is made for good. -/
def World.honourClaim (claim : Claim) : World :=
  { w with
    flows := w.flows.insert (env.newAssertion claim.purpose claim.assertion claim.at_) fun _ => rfl
    issued :=
      w.issued ++ [⟨env.newAssertion claim.purpose claim.assertion claim.at_ w.flows.seq, none⟩]
    claimed := w.claimed ++ [claim] }

def World.honour (tx : Pending) : World :=
  tx.claims.foldl (World.honourClaim env) (tx.consumed.elim w w.honourConsumption)

def World.insertFlow (token : String) (input : AuthFlowCreate) : World :=
  { w with
    flows := w.flows.insert (env.newFlow input token) fun _ => rfl
    past := w.past ++ [w.flows]
    issued := w.issued ++ [⟨env.newFlow input token w.flows.seq, some token⟩] }

/-- A statement that has to wait for a lock leaves everything as it is. -/
def step (i : Nat) (w : World) : Call → Act → World × Call
  | call, .tick duration => ({ w with clock := w.clock + duration }, call)
  | .idle, .create input token =>
    if trimSpace input.purpose = "" ∨ input.expiresAt ≤ w.clock then
      (w, .returned (.error "auth flow is invalid"))
    else (w, .creating token input)
  | .creating token input, .insertFlow =>
    if ¬ w.locks.Free i (env.tokenHash token) then (w, .creating token input)
    else if w.flows.rows.any fun flow => flow.tokenHash = env.tokenHash token then
      (w, .returned (.error "database error"))
    else (w.insertFlow env token input, .returned (.ok ()))
  | .idle, .consume token wanted =>
    if token = "" ∨ wanted.purpose = "" then (w, .returned (.error "auth flow is invalid"))
    else (w, .begun token wanted)
  | .begun token wanted, .read version =>
    match (w.seen env version).rows.find? fun flow =>
        flow.tokenHash = env.tokenHash token ∧ wanted.MatchedBy flow with
    | none => rollback i w "auth flow is invalid"
    | some flow =>
      if env.locking = true then
        if w.locks.Free i flow.tokenHash then
          ({ w with locks := w.locks.take i flow.tokenHash }, .found flow token wanted)
        else (w, .begun token wanted)
      else (w, .found flow token wanted)
  | .found flow token wanted, .check =>
    if flow.consumedAt.isSome then rollback i w "auth flow has already been consumed"
    else if flow.expiresAt ≤ w.clock then rollback i w "auth flow has expired"
    else (w, .checked flow token wanted w.clock)
  | .checked flow token wanted now, .update =>
    if ¬ w.locks.Free i flow.tokenHash then (w, .checked flow token wanted now)
    else if w.flows.affected (isConsumable flow.id now) ≠ 1 then
      rollback i w "auth flow has already been consumed"
    else
      ({ w with locks := w.locks.take i flow.tokenHash },
        .acting { consumed := some ⟨flow.id, token, wanted, now⟩, claims := [] })
  | .idle, .openTx => (w, .acting { consumed := none, claims := [] })
  | .acting tx, .claim purpose assertion =>
    let purpose := trimSpace purpose
    let assertion := trimSpace assertion
    if purpose = "" ∨ assertion = "" ∨ env.expiry purpose assertion ≤ w.clock then (w, .acting tx)
    else (w, .claiming tx purpose assertion w.clock)
  | .claiming tx purpose assertion now, .insertClaim =>
    if ¬ w.locks.Free i (env.assertionHash purpose assertion) then
      (w, .claiming tx purpose assertion now)
    -- there is such a row, or the transaction has inserted it itself
    else if (w.flows.rows.any fun flow => flow.tokenHash = env.assertionHash purpose assertion) ∨
        (tx.claims.any fun claim => env.assertionHash claim.purpose claim.assertion =
          env.assertionHash purpose assertion) then
      (w, .acting tx)
    else
      ({ w with locks := w.locks.take i (env.assertionHash purpose assertion) },
        .acting { tx with claims := tx.claims ++ [⟨purpose, assertion, now⟩] })
  | .acting tx, .commit =>
    ({ w.honour env tx with past := w.past ++ [w.flows], locks := w.locks.release i },
      .returned (.ok ()))
  | .idle, .sweep => (w, .sweeping w.clock)
  | .sweeping now, .delete =>
    if ∃ flow ∈ w.flows.rows, isStale now flow = true ∧ ¬ w.locks.Free i flow.tokenHash then
      (w, .sweeping now)
    else
      ({ w with flows := w.flows.deleteWhere (isStale now), past := w.past ++ [w.flows] },
        .returned (.ok ()))
  | .begun .., .fail => rollback i w "database error"
  | .found .., .fail => rollback i w "database error"
  | .checked .., .fail => rollback i w "database error"
  | .acting .., .fail => rollback i w "database error"
  | .claiming .., .fail => rollback i w "database error"
  | call, _ => (w, call)

end AuthFlows
