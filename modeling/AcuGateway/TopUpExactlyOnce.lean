/-
Callbacks, completions and closings of top-up orders on several nodes.

The nodes share one database.  A completion by transaction is one step; the
callback of Epay is a thread that locks its order on its own node, reads it,
saves it and credits the user, and any of these statements may fail.  Threads
and transactions interleave freely, except that the lock of an order admits one
of them at a time on each node.

* `Effect`, `step_effect` — what a step can do;
* `Tally` — an order has been credited, or saved by a callback that is about to
  credit it, once if it is successful and never if it is not;
* `orders_credited_once` — hence in every run in which a callback saves only
  orders that are still pending, and does not fail after that (`Undisturbed`);
* `callbacks_on_two_nodes` — an order that is credited twice;
* `quota_of_credits` — quotas grow by the credits alone, in any run.
-/
import AcuGateway.Lib.Run
import AcuGateway.TopUp
import Mathlib.Data.List.Basic

open List Option Table Run

/-! ### The system -/

/-- Where a callback of Epay stands. -/
inductive EpayPc
  | waiting
  | locked
  | read (topUp : TopUp)
  | saved (topUp : TopUp)
  | done
deriving DecidableEq

/-- The row that a callback is going to save. -/
def EpayPc.toSave : EpayPc → Option TopUp
  | .read topUp => some topUp
  | _ => none

/-- The row that a callback has saved and not credited yet. -/
def EpayPc.toCredit : EpayPc → Option TopUp
  | .saved topUp => some topUp
  | _ => none

/-- A callback that has been verified, on the node that received it. -/
structure EpayThread where
  node : Nat
  tradeNo : String
  callbackType : String
  pc : EpayPc

/-- The callback is between `LockOrder` and `UnlockOrder`. -/
def EpayThread.holdsLock (t : EpayThread) : Bool :=
  match t.pc with
  | .locked | .read _ | .saved _ => true
  | .waiting | .done => false

/-- The completions by transaction. -/
inductive Completion
  | stripe (customerId : String)
  | creem (customerEmail : String)
  | waffo
  | waffoPancake
  | manual

def Completion.path : Completion → CompletionPath
  | stripe customerId => recharge customerId
  | creem customerEmail => rechargeCreem customerEmail
  | waffo => rechargeWaffo
  | waffoPancake => rechargeWaffoPancake
  | manual => manualCompleteTopUp

/-- What a pending order is closed with. -/
inductive Closing
  | failed
  | expired

def Closing.status : Closing → TopUpStatus
  | failed => .failed
  | expired => .expired

/-- The database, the callbacks, and two histories: the credits, and the orders
that were ever closed. -/
structure PayWorld where
  db : PayDB
  threads : List EpayThread
  credits : List Credit
  closed : List Int

/-- The statements of a callback; `fails` says that the database refuses one. -/
inductive EpayStmt
  | lock
  | read (fails : Bool)
  | save (fails : Bool)
  | credit (fails : Bool)
deriving DecidableEq

/-- A callback arrives, runs its next statement, or a transaction runs. -/
inductive PayStep
  | callback (node : Nat) (tradeNo callbackType : String)
  | epay (i : Nat) (stmt : EpayStmt)
  | complete (node : Nat) (completion : Completion) (tradeNo : String) (now : Int) (fails : Bool)
  | close (tradeNo : String) (provider : Option PaymentProvider) (target : Closing) (fails : Bool)

variable (quotaPerUnit : ℚ) (w : PayWorld)

namespace PayWorld

/-- `LockOrder` of a node does not block. -/
def LockFree (node : Nat) (tradeNo : String) : Prop :=
  ∀ t ∈ w.threads, t.node = node → t.tradeNo = tradeNo → t.holdsLock = false
deriving Decidable

/-- Move callback `i`, which is `t`, to `pc`. -/
def goto (i : Nat) (t : EpayThread) (pc : EpayPc) : PayWorld :=
  { w with threads := w.threads.set i { t with pc } }

/-- The credit of a user who exists. -/
def creditOf (topUp : TopUp) (quota : ℚ) : List Credit :=
  if (w.db.users.find? topUp.userId).isSome then [⟨topUp.id, topUp.userId, quota⟩] else []

/-- A statement of callback `i`, which is `t`, if it is the next one;
`UnlockOrder` runs with the last. -/
def advance (i : Nat) (t : EpayThread) : EpayStmt → PayWorld
  | .lock =>
    if t.pc = .waiting ∧ w.LockFree t.node t.tradeNo then w.goto i t .locked else w
  | .read fails =>
    if t.pc = .locked then
      match (if fails then none else epayRead w.db t.tradeNo t.callbackType) with
      | none => w.goto i t .done
      | some topUp => w.goto i t (.read topUp)
    else w
  | .save fails =>
    match t.pc with
    | .read topUp =>
      if fails then w.goto i t .done
      else { w.goto i t (.saved topUp) with db := epaySave w.db topUp }
    | _ => w
  | .credit fails =>
    match t.pc with
    | .saved topUp =>
      match (if fails then .error "" else epayCredit quotaPerUnit w.db topUp) with
      | .error _ => w.goto i t .done
      | .ok db =>
        { w.goto i t .done with
          db
          credits := w.creditOf topUp (quotaOfAmount quotaPerUnit topUp.amount) ++ w.credits }
    | _ => w

def step : PayStep → PayWorld
  | .callback node tradeNo callbackType =>
    { w with threads := w.threads ++ [⟨node, tradeNo, callbackType, .waiting⟩] }
  | .epay i stmt =>
    match w.threads[i]? with
    | none => w
    | some t => w.advance quotaPerUnit i t stmt
  | .complete node completion tradeNo now fails =>
    if fails = false ∧ w.LockFree node tradeNo then
      match completion.path.run quotaPerUnit w.db tradeNo now with
      | .commit credit db => { w with db, credits := credit.toList ++ w.credits }
      | _ => w
    else w
  | .close tradeNo provider target fails =>
    if fails then w
    else
      match updatePendingTopUpStatus w.db tradeNo provider target.status with
      | .commit topUp db => { w with db, closed := topUp.id :: w.closed }
      | _ => w

end PayWorld

/-! ### What a step can do -/

/-- The effect of a step that changes anything. -/
inductive Effect (quotaPerUnit : ℚ) (w : PayWorld) : PayStep → PayWorld → Prop
  | call {node tradeNo callbackType} : Effect quotaPerUnit w (.callback node tradeNo callbackType)
        { w with threads := w.threads ++ [⟨node, tradeNo, callbackType, .waiting⟩] }
  | lock {i t} (ht : w.threads[i]? = some t) (hpc : t.pc = .waiting)
      (hfree : w.LockFree t.node t.tradeNo) :
      Effect quotaPerUnit w (.epay i .lock) (w.goto i t .locked)
  | read {i t topUp} (ht : w.threads[i]? = some t) (hpc : t.pc = .locked)
      (hread : epayRead w.db t.tradeNo t.callbackType = some topUp) :
      Effect quotaPerUnit w (.epay i (.read false)) (w.goto i t (.read topUp))
  | quit {i t stmt} (ht : w.threads[i]? = some t) (hpc : t.pc.toCredit = none) :
      Effect quotaPerUnit w (.epay i stmt) (w.goto i t .done)
  | save {i t topUp} (ht : w.threads[i]? = some t) (hpc : t.pc = .read topUp) :
      Effect quotaPerUnit w (.epay i (.save false))
        { w.goto i t (.saved topUp) with db := epaySave w.db topUp }
  | lose {i t topUp fails} (ht : w.threads[i]? = some t) (hpc : t.pc = .saved topUp)
      (hlost : fails = true ∨ fails = false ∧ quotaOfAmount quotaPerUnit topUp.amount < 0) :
      Effect quotaPerUnit w (.epay i (.credit fails)) (w.goto i t .done)
  | credit {i t topUp} (ht : w.threads[i]? = some t) (hpc : t.pc = .saved topUp) :
      Effect quotaPerUnit w (.epay i (.credit false))
        { w.goto i t .done with
          db := w.db.credit topUp.userId (quotaOfAmount quotaPerUnit topUp.amount) id fun _ => rfl
          credits := w.creditOf topUp (quotaOfAmount quotaPerUnit topUp.amount) ++ w.credits }
  | complete {node completion tradeNo now topUp quota} (hfree : w.LockFree node tradeNo)
      (hfound : w.db.getTopUpByTradeNo tradeNo = some topUp) (hpending : topUp.status = .pending) :
      Effect quotaPerUnit w (.complete node completion tradeNo now false)
        { w with
          db := (w.db.saveTopUp { topUp with completeTime := now, status := .success }).credit
            topUp.userId quota completion.path.touch completion.path.touch_id
          credits := w.creditOf topUp quota ++ w.credits }
  | close {tradeNo provider target topUp}
      (hfound : w.db.getTopUpByTradeNo tradeNo = some topUp) (hpending : topUp.status = .pending)
      (hprovider : ∀ p ∈ provider, topUp.paymentProvider = p) :
      Effect quotaPerUnit w (.close tradeNo provider target false)
        { w with
          db := w.db.saveTopUp { topUp with status := target.status }
          closed := topUp.id :: w.closed }

variable {i : Nat} {t : EpayThread}

section Effects

variable {quotaPerUnit : ℚ} {w : PayWorld}

theorem advance_effect (ht : w.threads[i]? = some t) (stmt : EpayStmt) :
    w.advance quotaPerUnit i t stmt = w ∨
      Effect quotaPerUnit w (.epay i stmt) (w.advance quotaPerUnit i t stmt) := by
  cases stmt with
  | lock =>
    unfold PayWorld.advance
    dsimp only
    split_ifs with h
    · exact .inr (.lock ht h.1 h.2)
    · exact .inl rfl
  | read fails =>
    unfold PayWorld.advance
    dsimp only
    by_cases hpc : t.pc = .locked
    · have hquit : t.pc.toCredit = none := by
        rw [hpc]
        rfl
      rw [if_pos hpc]
      cases fails with
      | true => exact .inr (.quit ht hquit)
      | false =>
        cases hread : epayRead w.db t.tradeNo t.callbackType with
        | none => exact .inr (.quit ht hquit)
        | some topUp => exact .inr (.read ht hpc hread)
    · exact .inl (if_neg hpc)
  | save fails =>
    unfold PayWorld.advance
    cases hpc : t.pc with
    | read topUp =>
      cases fails with
      | true => exact .inr (.quit ht (by rw [hpc]; rfl))
      | false => exact .inr (.save ht hpc)
    | _ => exact .inl rfl
  | credit fails =>
    unfold PayWorld.advance
    cases hpc : t.pc with
    | saved topUp =>
      cases fails with
      | true => exact .inr (.lose ht hpc (.inl rfl))
      | false =>
        dsimp only
        cases hcredit : epayCredit quotaPerUnit w.db topUp with
        -- the order is saved as successful and the quota never arrives
        | error e =>
          refine .inr (.lose ht hpc (.inr ⟨rfl, ?_⟩))
          unfold epayCredit at hcredit
          split_ifs at hcredit with hneg
          exact hneg
        | ok db =>
          rw [epayCredit_ok hcredit]
          exact .inr (.credit ht hpc)
    | _ => exact .inl rfl

/-- A step changes nothing or has one of the effects. -/
theorem step_effect (call : PayStep) :
    w.step quotaPerUnit call = w ∨ Effect quotaPerUnit w call (w.step quotaPerUnit call) := by
  cases call with
  | callback node tradeNo callbackType => exact .inr .call
  | epay i stmt =>
    unfold PayWorld.step
    dsimp only
    cases ht : w.threads[i]? with
    | none => exact .inl rfl
    | some t => exact advance_effect ht stmt
  | complete node completion tradeNo now fails =>
    unfold PayWorld.step
    dsimp only
    split_ifs with h
    · -- the transaction rolls back, finds the order done, or credits it
      obtain ⟨rfl, hfree⟩ := h
      split
      · rename_i credit db hrun
        rcases CompletionPath.run_commit hrun with
          ⟨rfl, rfl⟩ | ⟨topUp, quota, hfound, hpending, rfl, rfl⟩
        · exact .inl rfl
        · have hcredit : (if (w.db.users.find? topUp.userId).isSome then
              some (⟨topUp.id, topUp.userId, quota⟩ : Credit) else none).toList =
                w.creditOf topUp quota := by
            unfold PayWorld.creditOf
            split_ifs <;> rfl
          rw [hcredit]
          exact .inr (.complete hfree hfound hpending)
      · exact .inl rfl
    · exact .inl rfl
  | close tradeNo provider target fails =>
    unfold PayWorld.step
    dsimp only
    split_ifs with h
    · exact .inl rfl
    · split
      · rename_i topUp db hrun
        obtain ⟨hfound, hpending, hprovider, rfl⟩ := updatePendingTopUpStatus_commit hrun
        obtain rfl : fails = false := by simpa using h
        exact .inr (.close hfound hpending hprovider)
      · exact .inl rfl

end Effects

/-! ### Counting credits -/

/-- The row a callback works with. -/
def EpayPc.row (pc : EpayPc) : Option TopUp := pc.toSave <|> pc.toCredit

/-- The order that a callback has saved and not credited yet. -/
def EpayPc.saving (pc : EpayPc) : Option Int := pc.toCredit.map TopUp.id

namespace PayWorld

/-- How many callbacks have saved order `id` and not credited it yet. -/
def saving (id : Int) : Nat := w.threads.countP fun t => t.pc.saving = some id

/-- How often order `id` was credited. -/
def timesCredited (id : Int) : Nat := w.credits.countP fun c => c.order = id

end PayWorld

open PayWorld

variable {pc : EpayPc}

section Counting

variable {w : PayWorld}

/-- Moving one callback changes the count by that callback only. -/
theorem saving_goto (ht : w.threads[i]? = some t) (pc : EpayPc) (id : Int) :
    (w.goto i t pc).saving id + (if t.pc.saving = some id then 1 else 0) =
      w.saving id + if pc.saving = some id then 1 else 0 := by
  obtain ⟨hi, hget⟩ := List.getElem?_eq_some_iff.mp ht
  unfold saving goto
  dsimp only
  rw [countP_set hi, hget]
  simp only [decide_eq_true_eq]
  have hpos : t.pc.saving = some id → 0 < w.threads.countP fun t =>
      decide (t.pc.saving = some id) := by
    intro h
    exact countP_pos_iff.mpr ⟨t, mem_of_getElem? ht, decide_eq_true h⟩
  by_cases h : t.pc.saving = some id
  · have := hpos h
    rw [if_pos h]
    omega
  · rw [if_neg h]
    omega

/-- A callback that has not saved and does not save now leaves the counts. -/
theorem saving_goto_self (ht : w.threads[i]? = some t) (hpc : t.pc.toCredit = none)
    (hpc' : pc.toCredit = none) (id : Int) : (w.goto i t pc).saving id = w.saving id := by
  have hgoto := saving_goto ht pc id
  unfold EpayPc.saving at hgoto
  rw [hpc, hpc'] at hgoto
  simpa using hgoto

theorem mem_goto {t' : EpayThread} (h : t' ∈ (w.goto i t pc).threads) :
    t' ∈ w.threads ∨ t' = { t with pc } := mem_or_eq_of_mem_set h

end Counting

/-- Every order is credited, or about to be credited by a callback that has saved
it, once if it is successful and never if it is not. -/
structure Tally (w : PayWorld) : Prop where
  balance : ∀ o ∈ w.db.topUps.rows, w.timesCredited o.id + w.saving o.id =
    if o.status = .success then 1 else 0
  users : ∀ o ∈ w.db.topUps.rows, ∃ u, w.db.users.find? o.userId = some u
  threads : ∀ t ∈ w.threads, ∀ row ∈ t.pc.row, row.status = .success ∧
    ∃ o ∈ w.db.topUps.rows, o.id = row.id ∧ o.userId = row.userId
  owners : ∀ c ∈ w.credits, ∀ o ∈ w.db.topUps.rows, o.id = c.order → c.userId = o.userId
  closed : ∀ id ∈ w.closed, ∃ o ∈ w.db.topUps.rows, o.id = id ∧
    (o.status = .failed ∨ o.status = .expired)

section Tally

variable {w : PayWorld}

/-- A callback that moves without touching the database. -/
theorem Tally.goto (h : Tally w) (ht : w.threads[i]? = some t)
    (hpc : t.pc.toCredit = none) (hpc' : pc.toCredit = none)
    (hrow : ∀ row ∈ pc.row, row.status = .success ∧ ∃ o ∈ w.db.topUps.rows, o.id = row.id ∧
      o.userId = row.userId) :
    Tally (w.goto i t pc) where
  balance o ho := by
    rw [saving_goto_self ht hpc hpc']
    exact h.balance o ho
  users := h.users
  threads t' ht' row hr := by
    rcases mem_goto ht' with ht' | rfl
    · exact h.threads t' ht' row hr
    · exact hrow row hr
  owners := h.owners
  closed := h.closed

/-- A callback arrives. -/
theorem Tally.call (h : Tally w) (hpc : t.pc = .waiting) :
    Tally { w with threads := w.threads ++ [t] } where
  balance o ho := by
    have hsaving : saving { w with threads := w.threads ++ [t] } o.id = w.saving o.id := by
      unfold saving
      simp [hpc, EpayPc.saving, EpayPc.toCredit]
    rw [hsaving]
    exact h.balance o ho
  users := h.users
  threads t' ht' row hr := by
    rcases mem_append.mp ht' with ht' | ht'
    · exact h.threads t' ht' row hr
    · rw [mem_singleton.mp ht', hpc] at hr
      cases hr
  owners := h.owners
  closed := h.closed

variable {o topUp : TopUp}

/-- A pending order `o` is replaced by `r`.  What the callers have to account for
is the one order: whatever else changes, changes for `o`. -/
theorem Tally.replace (h : Tally w) {r : TopUp} (ho : o ∈ w.db.topUps.rows)
    (hpending : o.status = .pending) (hid : r.id = o.id) (huser : r.userId = o.userId)
    {w' : PayWorld} (htopUps : w'.db.topUps = w.db.topUps.save r)
    (husers : ∀ k u, w.db.users.find? k = some u → ∃ u', w'.db.users.find? k = some u')
    (hothers : ∀ k, k ≠ o.id → w'.timesCredited k = w.timesCredited k ∧ w'.saving k = w.saving k)
    (hthis : w'.timesCredited o.id + w'.saving o.id = if r.status = .success then 1 else 0)
    (hthreads : ∀ t ∈ w'.threads, ∀ row ∈ t.pc.row, ∃ t' ∈ w.threads, row ∈ t'.pc.row)
    (hcredits : ∀ c ∈ w'.credits, c ∈ w.credits ∨ c.order = o.id ∧ c.userId = o.userId)
    (hclosed : ∀ id ∈ w'.closed, id ∈ w.closed ∨
      id = o.id ∧ (r.status = .failed ∨ r.status = .expired)) : Tally w' := by
  have hr : r ∈ (w.db.topUps.save r).rows := by
    have hfind : w.db.topUps.find? r.id = some o := find?_eq_some.mpr ⟨ho, hid.symm⟩
    exact mem_of_find? (Table.find?_save_self hfind)
  -- the rows afterwards are `r` and the rows before, apart from `o`
  have hrows : ∀ x ∈ w'.db.topUps.rows, (x ∈ w.db.topUps.rows ∧ x.id ≠ o.id) ∨ x = r := by
    intro x hx
    rw [htopUps] at hx
    rw [← hid]
    exact Table.mem_save hx
  have hkept : ∀ x ∈ w.db.topUps.rows, x.id ≠ o.id → x ∈ w'.db.topUps.rows := by
    intro x hx hne
    rw [htopUps]
    exact Table.mem_save_of_ne hx (by rwa [hid])
  have hnew : r ∈ w'.db.topUps.rows := by rwa [htopUps]
  refine ⟨?_, ?_, ?_, ?_, ?_⟩
  · intro x hx
    rcases hrows x hx with ⟨hx, hne⟩ | rfl
    · rw [(hothers x.id hne).1, (hothers x.id hne).2]
      exact h.balance x hx
    · rw [hid]
      exact hthis
  · intro x hx
    rcases hrows x hx with ⟨hx, -⟩ | rfl
    · obtain ⟨u, hu⟩ := h.users x hx
      exact husers _ u hu
    · obtain ⟨u, hu⟩ := h.users o ho
      rw [huser]
      exact husers _ u hu
  · intro t ht row hrow
    obtain ⟨t', ht', hrow'⟩ := hthreads t ht row hrow
    obtain ⟨hsuccess, x, hx, hxid, hxuser⟩ := h.threads t' ht' row hrow'
    refine ⟨hsuccess, ?_⟩
    by_cases hne : x.id = o.id
    · obtain rfl := eq_of_key_eq hx ho hne
      exact ⟨r, hnew, hid.trans hxid, huser.trans hxuser⟩
    · exact ⟨x, hkept x hx hne, hxid, hxuser⟩
  · intro c hc x hx hxc
    rcases hcredits c hc with hc | ⟨hcid, hcuser⟩
    · rcases hrows x hx with ⟨hx, -⟩ | rfl
      · exact h.owners c hc x hx hxc
      · rw [huser]
        exact h.owners c hc o ho (hid ▸ hxc)
    · rcases hrows x hx with ⟨-, hne⟩ | rfl
      · exact absurd (hxc.trans hcid) hne
      · rw [hcuser, huser]
  · intro id hmem
    rcases hclosed id hmem with hmem | ⟨rfl, hstatus⟩
    · obtain ⟨x, hx, hxid, hstatus⟩ := h.closed id hmem
      refine ⟨x, hkept x hx ?_, hxid, hstatus⟩
      -- `o` is pending, so it was not closed
      intro hne
      obtain rfl := eq_of_key_eq hx ho hne
      rw [hpending] at hstatus
      exact hstatus.elim nofun nofun
    · exact ⟨r, hnew, hid, hstatus⟩

/-- No one has credited a pending order, and no callback is about to. -/
theorem Tally.untouched (h : Tally w) (ho : o ∈ w.db.topUps.rows)
    (hpending : o.status = .pending) : w.timesCredited o.id = 0 ∧ w.saving o.id = 0 := by
  have hbalance := h.balance o ho
  rw [hpending, if_neg nofun] at hbalance
  omega

theorem timesCredited_cons (w : PayWorld) (c : Credit) (id : Int) :
    timesCredited { w with credits := c :: w.credits } id =
      w.timesCredited id + if c.order = id then 1 else 0 := by
  unfold timesCredited
  rw [countP_cons]
  simp

theorem creditOf_eq {u : Payer} (hu : w.db.users.find? topUp.userId = some u)
    (quota : ℚ) : w.creditOf topUp quota = [⟨topUp.id, topUp.userId, quota⟩] := by
  unfold creditOf
  rw [hu]
  rfl

/-- A callback saves an order that is still pending. -/
theorem Tally.save (h : Tally w) (ht : w.threads[i]? = some t)
    (hpc : t.pc = .read topUp) (ho : w.db.topUps.find? topUp.id = some o)
    (hpending : o.status = .pending) :
    Tally { w.goto i t (.saved topUp) with db := epaySave w.db topUp } := by
  have hmem : t ∈ w.threads := mem_of_getElem? ht
  have hrow : topUp ∈ t.pc.row := by rw [hpc]; exact rfl
  -- the row was read before, so the stored order may have changed since
  obtain ⟨hsuccess, o', ho', hid, huser⟩ := h.threads t hmem topUp hrow
  obtain rfl : o = o' := eq_of_key_eq (mem_of_find? ho) ho' ((key_of_find? ho).trans hid.symm)
  have hcount : ∀ k, (w.goto i t (.saved topUp)).saving k = w.saving k + if o.id = k then 1
      else 0 := by
    intro k
    have hgoto := saving_goto ht (.saved topUp) k
    rw [hpc] at hgoto
    simpa [EpayPc.saving, EpayPc.toCredit, hid] using hgoto
  have hzero := h.untouched ho' hpending
  refine h.replace ho' hpending hid.symm huser.symm rfl (fun k u hu => ⟨u, hu⟩) ?_ ?_ ?_
    (fun c hc => .inl hc) (fun id hid => .inl hid)
  · intro k hk
    refine ⟨rfl, (hcount k).trans ?_⟩
    rw [if_neg hk.symm, Nat.add_zero]
  · show w.timesCredited o.id + (w.goto i t (.saved topUp)).saving o.id = _
    rw [hcount o.id, if_pos rfl, hzero.1, hzero.2, if_pos hsuccess]
  · intro t' ht' row hr
    rcases mem_goto ht' with ht' | rfl
    · exact ⟨t', ht', hr⟩
    · refine ⟨t, hmem, ?_⟩
      rw [hpc]
      exact hr

/-- A callback credits the order it has saved. -/
theorem Tally.credit (h : Tally w) (ht : w.threads[i]? = some t) (hpc : t.pc = .saved topUp)
    (quota : ℚ) :
    Tally { w.goto i t .done with
      db := w.db.credit topUp.userId quota id fun _ => rfl
      credits := w.creditOf topUp quota ++ w.credits } := by
  have hmem : t ∈ w.threads := mem_of_getElem? ht
  have hrow : topUp ∈ t.pc.row := by rw [hpc]; exact rfl
  obtain ⟨-, o, ho, hid, huser⟩ := h.threads t hmem topUp hrow
  obtain ⟨u, hu⟩ := h.users o ho
  rw [creditOf_eq (huser ▸ hu)]
  refine ⟨?_, ?_, ?_, ?_, h.closed⟩
  · intro x hx
    -- what leaves the callback arrives in the history
    have hgoto := saving_goto ht .done x.id
    have hcons := timesCredited_cons w ⟨topUp.id, topUp.userId, quota⟩ x.id
    have hbalance := h.balance x hx
    rw [hpc] at hgoto
    simp only [EpayPc.saving, EpayPc.toCredit, map_some, map_none, Option.some.injEq, reduceCtorEq,
      if_false] at hgoto
    show timesCredited { w with credits := _ :: w.credits } x.id +
      (w.goto i t .done).saving x.id = _
    rw [hcons, ← hbalance]
    dsimp only
    omega
  · intro x hx
    obtain ⟨u, hu⟩ := h.users x hx
    refine isSome_iff_exists.mp ?_
    rw [PayDB.isSome_find?_credit, hu]
    rfl
  · intro t' ht' row hr
    rcases mem_goto ht' with ht' | rfl
    · exact h.threads t' ht' row hr
    · cases hr
  · intro c hc x hx hxc
    rcases mem_cons.mp hc with rfl | hc
    · rw [eq_of_key_eq hx ho (hxc.trans hid.symm), huser]
    · exact h.owners c hc x hx hxc

section

variable (h : Tally w) {tradeNo : String} (hfound : w.db.getTopUpByTradeNo tradeNo = some topUp)
  (hpending : topUp.status = .pending)

include h hfound hpending

/-- A transaction completes a pending order. -/
theorem Tally.complete (now : Int) (quota : ℚ) (touch : Payer → Payer)
    (htouch : ∀ u, (touch u).id = u.id) :
    Tally { w with
      db := (w.db.saveTopUp { topUp with completeTime := now, status := .success }).credit
        topUp.userId quota touch htouch
      credits := w.creditOf topUp quota ++ w.credits } := by
  have ho : topUp ∈ w.db.topUps.rows := PayDB.mem_of_getTopUpByTradeNo hfound
  obtain ⟨u, hu⟩ := h.users topUp ho
  have hzero := h.untouched ho hpending
  rw [creditOf_eq hu]
  have hcons := timesCredited_cons w ⟨topUp.id, topUp.userId, quota⟩
  refine h.replace ho hpending (r := { topUp with completeTime := now, status := .success })
    rfl rfl rfl ?_ ?_ ?_ ?_ ?_ fun id hid => .inl hid
  · intro k u hu
    refine isSome_iff_exists.mp ?_
    rw [PayDB.isSome_find?_credit]
    exact isSome_iff_exists.mpr ⟨u, hu⟩
  · intro k hk
    refine ⟨(hcons k).trans ?_, rfl⟩
    rw [if_neg (Ne.symm hk), Nat.add_zero]
  · show timesCredited { w with credits := _ :: w.credits } topUp.id + w.saving topUp.id = _
    rw [hcons, hzero.1, hzero.2, if_pos rfl, if_pos rfl]
  · intro t ht row hr
    exact ⟨t, ht, hr⟩
  · intro c hc
    rcases mem_cons.mp hc with rfl | hc
    · exact .inr ⟨rfl, rfl⟩
    · exact .inl hc

/-- A transaction closes a pending order. -/
theorem Tally.close (target : Closing) :
    Tally { w with
      db := w.db.saveTopUp { topUp with status := target.status }
      closed := topUp.id :: w.closed } := by
  have ho : topUp ∈ w.db.topUps.rows := PayDB.mem_of_getTopUpByTradeNo hfound
  have hzero := h.untouched ho hpending
  have hstatus : target.status = .failed ∨ target.status = .expired := by
    cases target with
    | failed => exact .inl rfl
    | expired => exact .inr rfl
  refine h.replace ho hpending (r := { topUp with status := target.status }) rfl rfl rfl
    (fun k u hu => ⟨u, hu⟩) (fun k hk => ⟨rfl, rfl⟩) ?_ (fun t ht row hr => ⟨t, ht, hr⟩)
    (fun c hc => .inl hc) ?_
  · show w.timesCredited topUp.id + w.saving topUp.id = _
    rw [hzero.1, hzero.2, if_neg]
    rcases hstatus with h | h <;> (rw [h]; nofun)
  · intro id hid
    rcases mem_cons.mp hid with rfl | hid
    · exact .inr ⟨rfl, hstatus⟩
    · exact .inl hid

end

end Tally

/-! ### Undisturbed callbacks -/

/-- If the statement saves, the stored order is still pending. -/
def EpayThread.SavesPending (db : PayDB) (t : EpayThread) (stmt : EpayStmt) : Prop :=
  stmt = .save false → ∀ topUp ∈ t.pc.toSave, (db.topUps.find? topUp.id).map TopUp.status =
    some .pending
deriving Decidable

/-- If the statement credits, it neither fails nor has a negative quota to add. -/
def EpayThread.Credits (t : EpayThread) (stmt : EpayStmt) : Prop :=
  ∀ topUp ∈ t.pc.toCredit, stmt ≠ .credit true ∧
    (stmt = .credit false → 0 ≤ quotaOfAmount quotaPerUnit topUp.amount)
deriving Decidable

/-- The step is not a callback's save of an order that someone else has completed
or closed since the callback read it, nor a credit that gets lost. -/
def Undisturbed : PayStep → Prop
  | .epay i stmt => ∀ t ∈ w.threads[i]?, t.SavesPending w.db stmt ∧ t.Credits quotaPerUnit stmt
  | _ => True

instance : DecidablePred (Undisturbed quotaPerUnit w) :=
  fun _ => by unfold Undisturbed; split <;> infer_instance

variable {w : PayWorld}

/-- The step lemma. -/
theorem Tally.step {quotaPerUnit : ℚ} {call : PayStep} (h : Tally w)
    (hcall : Undisturbed quotaPerUnit w call) : Tally (w.step quotaPerUnit call) := by
  rcases step_effect call with heq | heffect
  · rw [heq]
    exact h
  generalize w.step quotaPerUnit call = w' at heffect
  cases heffect with
  | call => exact h.call rfl
  | lock ht hpc hfree => exact h.goto ht (by rw [hpc]; rfl) rfl (by rintro row ⟨⟩)
  | read ht hpc hread =>
    obtain ⟨o, hfound, -, -, rfl⟩ := epayRead_some hread
    refine h.goto ht (by rw [hpc]; rfl) rfl ?_
    rintro row ⟨⟩
    exact ⟨rfl, o, PayDB.mem_of_getTopUpByTradeNo hfound, rfl, rfl⟩
  | quit ht hpc => exact h.goto ht hpc rfl (by rintro row ⟨⟩)
  | save ht hpc =>
    have hsaves := (hcall _ ht).1 rfl _ (by rw [hpc]; rfl)
    obtain ⟨o, ho, hpending⟩ := map_eq_some_iff.mp hsaves
    exact h.save ht hpc ho hpending
  | lose ht hpc hlost =>
    obtain ⟨hfails, hnonneg⟩ := (hcall _ ht).2 _ (by rw [hpc]; rfl)
    rcases hlost with rfl | ⟨rfl, hneg⟩
    · exact absurd rfl hfails
    · exact absurd (hnonneg rfl) (not_le.mpr hneg)
  | credit ht hpc => exact h.credit ht hpc _
  | complete hfree hfound hpending => exact h.complete hfound hpending _ _ _ _
  | close hfound hpending hprovider => exact h.close hfound hpending _

/-- The run lemma. -/
theorem Tally.run {quotaPerUnit : ℚ} (h : Tally w) {calls : List PayStep}
    (hcalls : Along (Undisturbed quotaPerUnit) (PayWorld.step quotaPerUnit) w calls) :
    Tally (exec (PayWorld.step quotaPerUnit) w calls) :=
  exec_invariant_along (fun _ _ h hcall => h.step hcall) h hcalls

/-! ### Exactly once -/

/-- Nothing has happened yet: all orders are pending, and their users exist. -/
structure Opening (w : PayWorld) : Prop where
  threads : w.threads = []
  credits : w.credits = []
  closed : w.closed = []
  pending : ∀ o ∈ w.db.topUps.rows, o.status = .pending
  users : ∀ o ∈ w.db.topUps.rows, (w.db.users.find? o.userId).isSome

/-- No callback is between its save and its credit. -/
def Settled (w : PayWorld) : Prop := ∀ t ∈ w.threads, t.pc.toCredit = none
deriving Decidable

/-- An order is successful if and only if its user was credited exactly once for
it, and no one else was; an order once closed was never credited. -/
def ExactlyOnce (w : PayWorld) : Prop :=
  (∀ o ∈ w.db.topUps.rows, o.status = .success ↔
    w.timesCredited o.id = 1 ∧ ∀ c ∈ w.credits, c.order = o.id → c.userId = o.userId) ∧
  ∀ id ∈ w.closed, w.timesCredited id = 0
deriving Decidable

theorem Opening.tally (h : Opening w) : Tally w where
  balance o ho := by
    unfold timesCredited saving
    rw [h.threads, h.credits, h.pending o ho]
    rfl
  users o ho := isSome_iff_exists.mp (h.users o ho)
  threads t ht := by
    rw [h.threads] at ht
    cases ht
  owners c hc := by
    rw [h.credits] at hc
    cases hc
  closed id hid := by
    rw [h.closed] at hid
    cases hid

theorem Tally.exactlyOnce (h : Tally w) (hsettled : Settled w) : ExactlyOnce w := by
  have hzero : ∀ id, w.saving id = 0 := by
    intro id
    refine countP_eq_zero.mpr ?_
    intro t ht
    unfold EpayPc.saving
    rw [hsettled t ht]
    exact of_decide_eq_false rfl
  have hbalance : ∀ o ∈ w.db.topUps.rows, w.timesCredited o.id = if o.status = .success then 1
      else 0 := by
    intro o ho
    have := h.balance o ho
    rwa [hzero, Nat.add_zero] at this
  -- no thread is between its save and its credit
  refine ⟨?_, ?_⟩
  · intro o ho
    have howner : ∀ c ∈ w.credits, c.order = o.id → c.userId = o.userId :=
      fun c hc hco => h.owners c hc o ho hco.symm
    rw [hbalance o ho]
    constructor
    · intro hsuccess
      exact ⟨if_pos hsuccess, howner⟩
    · rintro ⟨hone, -⟩
      by_contra hne
      rw [if_neg hne] at hone
      cases hone
  · intro id hid
    obtain ⟨o, ho, rfl, hstatus⟩ := h.closed id hid
    rw [hbalance o ho, if_neg]
    rcases hstatus with h | h <;> (rw [h]; nofun)

/-- Runs of undisturbed callbacks and any transactions, on any nodes, credit every
order exactly once if it ends up successful, and never if it does not. -/
theorem orders_credited_once (quotaPerUnit : ℚ) {w : PayWorld} (hw : Opening w)
    {calls : List PayStep}
    (hcalls : Along (Undisturbed quotaPerUnit) (PayWorld.step quotaPerUnit) w calls)
    (hsettled : Settled (exec (PayWorld.step quotaPerUnit) w calls)) :
    ExactlyOnce (exec (PayWorld.step quotaPerUnit) w calls) := by
  have htally := hw.tally.run hcalls
  exact htally.exactlyOnce hsettled

/-- One order of one unit, paid with Epay. -/
def oneEpayOrder : PayWorld := ⟨oneOrder .epay 1 1, [], [], []⟩

theorem opening_oneEpayOrder : Opening oneEpayOrder :=
  ⟨rfl, rfl, rfl, by decide +kernel, by decide +kernel⟩

/-- A callback, its duplicate on another node once the first is through, and a
completion by hand on a third. -/
def oneAfterAnother : List PayStep :=
  [.callback 0 "t" "card", .callback 1 "t" "card", .epay 0 .lock, .epay 1 .lock,
    .epay 0 (.read false), .epay 0 (.save false), .epay 1 (.read false), .epay 0 (.credit false),
    .complete 2 .manual "t" 1700000000 false]

theorem orders_credited_once_oneAfterAnother :
    ExactlyOnce (exec (PayWorld.step 500000) oneEpayOrder oneAfterAnother) :=
  orders_credited_once 500000 opening_oneEpayOrder (by decide +kernel) (by decide +kernel)

/-- Two callbacks for the same order, each under the lock of its own node, both
read it before either saves it. -/
def sideBySide : List PayStep :=
  [.callback 0 "t" "card", .callback 1 "t" "card", .epay 0 .lock, .epay 1 .lock,
    .epay 0 (.read false), .epay 1 (.read false), .epay 0 (.save false), .epay 1 (.save false),
    .epay 0 (.credit false), .epay 1 (.credit false)]

/-- They credit it twice, though no statement fails. -/
theorem callbacks_on_two_nodes :
    Opening oneEpayOrder ∧ Settled (exec (PayWorld.step 500000) oneEpayOrder sideBySide) ∧
    timesCredited (exec (PayWorld.step 500000) oneEpayOrder sideBySide) 1 = 2 ∧
    (exec (PayWorld.step 500000) oneEpayOrder sideBySide).db.quotaOf 1 = 2 * 500000 ∧
    ¬ ExactlyOnce (exec (PayWorld.step 500000) oneEpayOrder sideBySide) :=
  ⟨opening_oneEpayOrder, by decide +kernel, by decide +kernel, by decide +kernel, by decide +kernel⟩

/-! ### Quotas -/

/-- What the history credits to user `k`. -/
def PayWorld.creditedTo (w : PayWorld) (k : Int) : ℚ :=
  ((w.credits.filter fun c => c.userId = k).map Credit.quota).sum

theorem creditedTo_creditOf {w' : PayWorld} {topUp : TopUp} {quota : ℚ} (k : Int)
    (h : w'.credits = w.creditOf topUp quota ++ w.credits) : w'.creditedTo k =
      w.creditedTo k + if (w.db.users.find? topUp.userId).isSome ∧ k = topUp.userId then quota
        else 0 := by
  rw [creditedTo, h, creditOf, filter_append, map_append, sum_append, add_comm, creditedTo]
  congr 1
  by_cases huser : (w.db.users.find? topUp.userId).isSome
  · by_cases hk : k = topUp.userId
    · simp [huser, hk]
    · simp [huser, hk, Ne.symm hk]
  · simp [huser]

/-- **Quotas follow the credits.**  In every run, disturbed or not, the quota of a
user grows by what the history credits to them, and by nothing else. -/
theorem quota_of_credits (quotaPerUnit : ℚ) (w : PayWorld) (calls : List PayStep) (k : Int) :
    (exec (PayWorld.step quotaPerUnit) w calls).db.quotaOf k - w.db.quotaOf k =
      (exec (PayWorld.step quotaPerUnit) w calls).creditedTo k - w.creditedTo k := by
  refine @exec_invariant PayWorld
    _ _ _ (fun v => v.db.quotaOf k - w.db.quotaOf k = v.creditedTo k - w.creditedTo k)
    (fun v call h => ?_) (by rw [sub_self, sub_self]) calls
  rcases step_effect call with heq | heffect
  · rwa [heq]
  generalize v.step quotaPerUnit call = v' at heffect
  cases heffect with
  | credit | complete =>
    rw [creditedTo_creditOf k rfl, add_sub_right_comm, ← h, ← add_sub_right_comm]
    exact congrArg (· - _) (PayDB.quotaOf_credit k)
  | _ => exact h
