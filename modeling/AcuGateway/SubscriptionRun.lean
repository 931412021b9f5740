/-
Runs of the subscription transactions.

`SubOp` lists the calls that write subscriptions, `SubOp.outcome` runs one of
them on a store, and `World.step` runs it at a clock.  What a call can do to a
single row is said once, by the relation `Change`: schedule or reset it, charge
it, adjust it, refund to it, reset it by hand, expire or cancel it.

* `outcome_evolves` — every row after a call is a row from before it that went
  through a chain of changes, or a newly created row; the history of the row
  grows by exactly the entries of that chain;
* `World.rows_step` — hence an invariant of a row and its history needs to
  be checked against single changes only.
-/
import AcuGateway.Lib.Run
import AcuGateway.Subscription

open List Table Store
open Relation (ReflTransGen)

/-- The calls that write subscriptions. -/
inductive SubOp
  | create (userId planId : Int) (source : String) (now : Int)
  | preConsume (request : String) (userId amount now : Int)
  | adjust (sub : Int) (request : String) (delta : Int) (now : Int)
  | refund (request : String) (now : Int)
  | resetDue (limit now : Int)
  | adminResetUser (userId planId now : Int) (advance : Bool)
  | adminResetPlan (planId now : Int) (advance : Bool)
  | expireDue (limit now : Int)
  | invalidate (sub now : Int)
  | delete (sub now : Int)

inductive OpResult
  | done
  | failed (err : String)
  | diverges
deriving DecidableEq

namespace SubOp

/-- When the call is made. -/
def time : SubOp → Int
  | create _ _ _ now => now
  | preConsume _ _ _ now => now
  | adjust _ _ _ now => now
  | refund _ now => now
  | resetDue _ now => now
  | adminResetUser _ _ now _ => now
  | adminResetPlan _ now _ => now
  | expireDue _ now => now
  | invalidate _ now => now
  | delete _ now => now

/-- The call runs `maybeResetUserSubscriptionWithPlanTx`. -/
def mayReset : SubOp → Bool
  | preConsume .. => true
  | resetDue .. => true
  | _ => false

/-- The `advanceResetTime` argument of an administrative reset. -/
def advances : SubOp → Option Bool
  | adminResetUser _ _ _ advance => some advance
  | adminResetPlan _ _ advance => some advance
  | _ => none

/-- The subscriptions that an administrative reset is meant for. -/
def targets : SubOp → UserSubscription → Bool
  | adminResetUser userId planId _ _, sub => sub.userId = userId && sub.planId = planId
  | adminResetPlan planId _ _, sub => sub.planId = planId
  | _, _ => false

end SubOp

/-- The store and the result of a call that is one transaction. -/
def ofTx {α : Type} (σ : Store) (t : Tx Store α) : Store × OpResult :=
  (t.after σ, match t with
    | .commit _ _ => .done
    | .rollback e => .failed e
    | .diverge => .diverges)

/-- Run a call: the store it leaves and what it returns. -/
def SubOp.outcome (zone : Int) (σ : Store) : SubOp → Store × OpResult
  | .create userId planId source now =>
    match getSubscriptionPlanByIdTx σ planId with
    | .error e => (σ, .failed e)
    | .ok plan => ofTx σ (createUserSubscriptionFromPlanTx zone σ userId plan source now)
  | .preConsume request userId amount now =>
    ofTx σ (preConsumeUserSubscription zone σ request userId amount now)
  | .adjust sub request delta _ =>
    ofTx σ (postConsumeUserSubscriptionDelta σ sub delta (.adjusted sub request delta))
  | .refund request _ => ofTx σ (refundSubscriptionPreConsume σ request)
  | .resetDue limit now =>
    match resetDueSubscriptions zone σ limit now with
    | (σ', some _) => (σ', .done)
    | (σ', none) => (σ', .diverges)
  | .adminResetUser userId planId now advance =>
    ofTx σ (adminResetUserSubscriptionsByPlan zone σ userId planId now advance)
  | .adminResetPlan planId now advance =>
    ofTx σ (adminResetPlanSubscriptions zone σ planId now advance)
  | .expireDue limit now => (expireDueSubscriptions σ limit now, .done)
  | .invalidate sub now => ofTx σ (adminInvalidateUserSubscription σ sub now)
  | .delete sub now => ofTx σ (adminDeleteUserSubscription σ sub now)

/-- A store and the time of the last call. -/
structure World where
  store : Store
  clock : Int

namespace World

def step (zone : Int) (w : World) (op : SubOp) : World := ⟨(op.outcome zone w.store).1, op.time⟩

/-- No subscription has been bought yet. -/
def Fresh (w : World) : Prop := w.store.subs.rows = [] ∧ w.store.log = []

/-- One user, in the given group, and some plans. -/
def opening (group : String) (plans : Table SubscriptionPlan.id) : World :=
  { store :=
      { users := Table.empty.insert (fun id => ⟨id, 1, 0, 0, 0, group⟩) fun _ => rfl
        tokens := Table.empty
        plans
        subs := Table.empty
        records := Table.empty
        log := [] }
    clock := 1 }

theorem fresh_opening (group : String) (plans : Table SubscriptionPlan.id) :
    (opening group plans).Fresh := ⟨rfl, rfl⟩

/-- Calls are made at non-decreasing times. -/
def InOrder (w : World) (op : SubOp) : Prop := w.clock ≤ op.time
deriving Decidable

end World

/-! ### What a call can do to one row -/

namespace SubEvent

/-- The subscription an entry is about. -/
def sub : SubEvent → Int
  | reset k _ => k
  | adminReset k _ _ => k
  | consumed k _ _ => k
  | adjusted k _ _ => k
  | refunded k _ _ => k

end SubEvent

/-- The history of subscription `k`. -/
def about (k : Int) (log : List SubEvent) : List SubEvent := log.filter fun e => e.sub = k

/-- A row with its history. -/
structure RowState where
  history : List SubEvent
  row : UserSubscription

/-- One change of a row by the call `op` that began in the store `σ`. -/
inductive Change (zone : Int) (σ : Store) : SubOp → RowState → RowState → Prop
  | scheduled {op h sub plan sub'} (hop : op.mayReset = true) (hactive : sub.status = .active)
      (hplan : σ.plans.find? sub.planId = some plan)
      (hout : maybeResetUserSubscriptionWithPlanTx zone sub plan op.time = .scheduled sub') :
      Change zone σ op ⟨h, sub⟩ ⟨h, sub'⟩
  | reset {op h sub plan sub'} (hop : op.mayReset = true) (hactive : sub.status = .active)
      (hplan : σ.plans.find? sub.planId = some plan)
      (hout : maybeResetUserSubscriptionWithPlanTx zone sub plan op.time = .reset sub') :
      Change zone σ op ⟨h, sub⟩ ⟨.reset sub.id op.time :: h, sub'⟩
  | consumed {h request userId amount now stored plan sub} (hnew : σ.findRecord request = none)
    (hpos : 0 < amount)
      (hstored : σ.subs.find? stored.id = some stored) (huser : stored.userId = userId)
      (hlive : isLive now stored = true) (hplan : σ.plans.find? stored.planId = some plan)
      (hsub : sub = afterReset zone now plan stored)
      (hroom : ¬ (0 < sub.amountTotal ∧ wrap64 (sub.amountTotal - sub.amountUsed) < amount)) :
      Change zone σ (.preConsume request userId amount now) ⟨h, sub⟩
        ⟨.consumed sub.id request amount :: h,
          { sub with amountUsed := wrap64 (sub.amountUsed + amount) }⟩
  | adjusted {request delta now sub sub'} (hsub : σ.subs.find? sub.id = some sub)
      (hdelta : applyDelta sub delta = .ok sub') :
      Change zone σ (.adjust sub.id request delta now) ⟨about sub.id σ.log, sub⟩
        ⟨.adjusted sub.id request delta :: about sub.id σ.log, sub'⟩
  | refunded {request now record sub sub'} (hsub : σ.subs.find? sub.id = some sub)
      (hrecord : σ.findRecord request = some record) (hopen : record.status ≠ .refunded)
      (hpos : 0 < record.preConsumed) (hid : record.userSubscriptionId = sub.id)
      (hdelta : applyDelta sub (-record.preConsumed) = .ok sub') :
      Change zone σ (.refund request now) ⟨about sub.id σ.log, sub⟩
        ⟨.refunded sub.id request record.preConsumed :: about sub.id σ.log, sub'⟩
  | adminReset {op h sub plan advance} (hop : op.advances = some advance)
      (hsub : σ.subs.find? sub.id = some sub) (htarget : op.targets sub = true)
      (hlive : isLive op.time sub = true) (hplan : σ.plans.find? sub.planId = some plan) :
      Change zone σ op ⟨h, sub⟩ ⟨.adminReset sub.id op.time advance :: h,
        resetUserSubscriptionTx zone sub plan op.time advance⟩
  | expired {h limit now sub} : Change zone σ (.expireDue limit now) ⟨h, sub⟩ ⟨h, expire sub⟩
  | cancelled {h now sub} : Change zone σ (.invalidate sub.id now) ⟨h, sub⟩ ⟨h, cancel sub now⟩

variable {a b : RowState} {l : List SubEvent} {zone : Int} {σ : Store} {op : SubOp}

theorem Change.id_eq (h : Change zone σ op a b) : b.row.id = a.row.id := by
  cases h with
  | scheduled _ _ _ hout =>
    obtain ⟨-, -, -, rfl⟩ := maybeReset_scheduled hout
    rfl
  | reset _ _ _ hout =>
    obtain ⟨-, -, -, _, _, -, rfl⟩ := maybeReset_reset hout
    rfl
  | consumed => rfl
  | adjusted _ hdelta => exact applyDelta_id hdelta
  | refunded _ _ _ _ _ hdelta => exact applyDelta_id hdelta
  | adminReset => exact resetUserSubscriptionTx_id ..
  | expired => rfl
  | cancelled => rfl

/-- A change adds entries about its own row. -/
theorem Change.history (h : Change zone σ op a b) :
    ∃ new, b.history = new ++ a.history ∧ ∀ e ∈ new, e.sub = a.row.id := by
  cases h with
  | scheduled => exact ⟨[], rfl, by simp⟩
  | reset => exact ⟨[_], rfl, by simp [SubEvent.sub]⟩
  | consumed => exact ⟨[_], rfl, by simp [SubEvent.sub]⟩
  | adjusted => exact ⟨[_], rfl, by simp [SubEvent.sub]⟩
  | refunded => exact ⟨[_], rfl, by simp [SubEvent.sub]⟩
  | adminReset => exact ⟨[_], rfl, by simp [SubEvent.sub]⟩
  | expired => exact ⟨[], rfl, by simp⟩
  | cancelled => exact ⟨[], rfl, by simp⟩

/-- The state of a row in a store. -/
def Store.rowState (σ : Store) (sub : UserSubscription) : RowState := ⟨about sub.id σ.log, sub⟩

theorem about_append (k : Int) (l' : List SubEvent) : about k (l ++ l') = about k l ++ about k l' :=
  filter_append ..

theorem about_eq_self {k : Int} (h : ∀ e ∈ l, e.sub = k) :
    about k l = l := filter_eq_self.mpr fun e he => decide_eq_true (h e he)

theorem about_eq_nil {k : Int} (h : ∀ e ∈ l, e.sub ≠ k) : about k l = [] :=
  filter_eq_nil_iff.mpr fun e he => by simpa using h e he

/-! ### What a call can do to the store -/

/-- From `σ` to `σ'` every row went through a chain of changes of the call `op`
that began in `σ₀`. -/
structure Evolves (zone : Int) (σ₀ : Store) (op : SubOp) (σ σ' : Store) : Prop where
  plans : σ'.plans = σ.plans
  seq : σ'.subs.seq = σ.subs.seq
  log : ∃ new, σ'.log = new ++ σ.log ∧ ∀ e ∈ new, e.sub < σ.subs.seq
  rows : ∀ x' ∈ σ'.subs.rows, ∃ x ∈ σ.subs.rows,
    x.id = x'.id ∧ ReflTransGen (Change zone σ₀ op) (σ.rowState x) (σ'.rowState x')

variable {σ₀ σ' : Store} {sub sub' : UserSubscription}

section Evolves

variable {σ'' : Store}

theorem Evolves.refl (σ : Store) : Evolves zone σ₀ op σ σ where
  plans := rfl
  seq := rfl
  log := ⟨[], rfl, by simp⟩
  rows x hx := ⟨x, hx, rfl, .refl⟩

theorem Evolves.trans (h : Evolves zone σ₀ op σ σ') (h' : Evolves zone σ₀ op σ' σ'') :
    Evolves zone σ₀ op σ σ'' where
  plans := h'.plans.trans h.plans
  seq := h'.seq.trans h.seq
  log := by
    obtain ⟨new, hlog, hnew⟩ := h.log
    obtain ⟨new', hlog', hnew'⟩ := h'.log
    refine ⟨new' ++ new, by rw [hlog', hlog, append_assoc], fun e he => ?_⟩
    rcases mem_append.mp he with he | he
    · rw [← h.seq]; exact hnew' e he
    · exact hnew e he
  rows x'' hx'' := by
    obtain ⟨x', hx', hid', hc'⟩ := h'.rows x'' hx''
    obtain ⟨x, hx, hid, hc⟩ := h.rows x' hx'
    exact ⟨x, hx, hid.trans hid', hc.trans hc'⟩

/-- Saving a changed row. -/
theorem Evolves.save {new : List SubEvent} (hsub : σ.subs.find? sub.id = some sub)
    (hc : Change zone σ₀ op (σ.rowState sub) ⟨new ++ about sub.id σ.log, sub'⟩) :
    Evolves zone σ₀ op σ (σ.saveSub sub' new) := by
  have hid : sub'.id = sub.id := hc.id_eq
  have hnew : ∀ e ∈ new, e.sub = sub.id := by
    obtain ⟨new', heq, hnew'⟩ := hc.history
    rwa [append_cancel_right heq]
  refine ⟨rfl, rfl, ⟨new, rfl, fun e he => ?_⟩, fun x' hx' => ?_⟩
  · rw [hnew e he]
    exact σ.subs.below sub (mem_of_find? hsub)
  · rcases Table.mem_save hx' with ⟨hx, hne⟩ | rfl
    · -- the new entries are about another row
      have hother : about x'.id new = [] := about_eq_nil fun e he => by
        rw [hnew e he, ← hid]
        exact fun h => hne h.symm
      have hstate : (σ.saveSub sub' new).rowState x' = σ.rowState x' := by
        rw [rowState, rowState, saveSub, about_append, hother, nil_append]
      exact ⟨x', hx, rfl, hstate ▸ .refl⟩
    · have hstate : (σ.saveSub x' new).rowState x' = ⟨new ++ about sub.id σ.log, x'⟩ := by
        rw [rowState, saveSub, about_append, hid, about_eq_self hnew]
      exact ⟨sub, mem_of_find? hsub, hid.symm, hstate ▸ .single hc⟩

/-- Statements on other tables. -/
theorem Evolves.of_eq (hplans : σ'.plans = σ.plans) (hsubs : σ'.subs = σ.subs)
    (hlog : σ'.log = σ.log) : Evolves zone σ₀ op σ σ' where
  plans := hplans
  seq := by rw [hsubs]
  log := ⟨[], hlog, by simp⟩
  rows x hx := ⟨x, hsubs ▸ hx, rfl, by rw [rowState, rowState, hlog]⟩

end Evolves

/-- The rows of `l` are different rows of the table, as it stands in `σ`. -/
structure Current (σ : Store) (l : List UserSubscription) : Prop where
  nodup : (l.map UserSubscription.id).Nodup
  found : ∀ sub ∈ l, σ.subs.find? sub.id = some sub

namespace Current

variable {l l' : List UserSubscription}

theorem rows (σ : Store) : Current σ σ.subs.rows :=
  ⟨σ.subs.nodup, fun _ h => find?_eq_some.mpr ⟨h, rfl⟩⟩

theorem sublist (h : Current σ l) (hl : l'.Sublist l) : Current σ l' :=
  ⟨(hl.map _).nodup h.nodup, fun s hs => h.found s (hl.subset hs)⟩

theorem perm (h : Current σ l) (hl : l'.Perm l) : Current σ l' :=
  ⟨(hl.map _).nodup_iff.mpr h.nodup, fun s hs => h.found s (hl.subset hs)⟩

section

variable (h : Current σ (sub :: l))

include h

theorem head : σ.subs.find? sub.id = some sub := h.found sub (by simp)

/-- Saving a change of the first row leaves the list current, with the row in it. -/
theorem cons_save (hid : sub'.id = sub.id) (new : List SubEvent) :
    Current (σ.saveSub sub' new) (sub' :: l) := by
  have hnodup := h.nodup
  refine ⟨by rwa [map_cons, hid], fun s hs => ?_⟩
  rcases mem_cons.mp hs with rfl | hs
  · exact Table.find?_save_self (hid ▸ h.head)
  · rw [map_cons, nodup_cons] at hnodup
    have hne : s.id ≠ sub'.id := by
      rw [hid]
      exact fun heq => hnodup.1 (heq ▸ mem_map_of_mem hs)
    rw [saveSub, Table.find?_save_ne hne]
    exact h.found s (mem_cons_of_mem _ hs)

theorem tail : Current σ l := h.sublist (sublist_cons_self ..)

end

theorem subsByEnd (σ : Store) (p : UserSubscription → Bool) : Current σ (subsByEnd σ p) :=
  ((rows σ).sublist filter_sublist).perm (perm_insertionSort ..)

end Current

section Calls

variable {l : List UserSubscription} {plan : SubscriptionPlan} {now userId limit : Int}
  {r : SubscriptionPreConsumeResult} {advance : Bool}

/-- A reset that the call runs on the first row of a current list. -/
theorem applyReset_evolves (hop : op.mayReset = true) (hcur : Current σ (sub :: l))
    (hactive : sub.status = .active) (hplan : σ₀.plans.find? sub.planId = some plan)
    (h : applyReset σ sub op.time (maybeResetUserSubscriptionWithPlanTx zone sub plan op.time)
      = some (sub', σ')) :
    Evolves zone σ₀ op σ σ' ∧ Current σ' (sub' :: l) ∧ sub' = afterReset zone op.time plan sub := by
  unfold afterReset
  rcases applyReset_eq_some h with ⟨hr, rfl, rfl⟩ | ⟨hr, rfl⟩ | ⟨hr, rfl⟩
  · rw [hr]
    exact ⟨.refl _, hcur, rfl⟩
  · have hc : Change zone σ₀ op (σ.rowState sub) ⟨about sub.id σ.log, sub'⟩ :=
      .scheduled hop hactive hplan hr
    rw [hr]
    exact ⟨.save hcur.head hc, hcur.cons_save hc.id_eq [], rfl⟩
  · have hc : Change zone σ₀ op (σ.rowState sub)
        ⟨.reset sub.id op.time :: about sub.id σ.log, sub'⟩ := .reset hop hactive hplan hr
    have hid : sub'.id = sub.id := hc.id_eq
    rw [hr, hid]
    exact ⟨.save hcur.head hc, hcur.cons_save hid _, rfl⟩

variable {requestId : String} {amount : Int}

theorem preConsumeFrom_evolves (hnew : σ₀.findRecord requestId = none) (hpos : 0 < amount)
    (hcur : Current σ l) (hl : ∀ s ∈ l, s ∈ candidates σ₀ userId now) (hplans : σ.plans = σ₀.plans)
    (h : preConsumeFrom zone now requestId userId amount none l σ = .commit r σ') :
    Evolves zone σ₀ (.preConsume requestId userId amount now) σ σ' := by
  induction l generalizing σ with
  | nil => cases h
  | cons candidate rest ih =>
    obtain ⟨hcandidate, hrest⟩ := forall_mem_cons.mp hl
    obtain ⟨hmem, huser, hlive⟩ := mem_candidates.mp hcandidate
    unfold preConsumeFrom at h
    split at h
    · cases h
    · rename_i plan hplan
      have hplan : σ₀.plans.find? candidate.planId = some plan :=
        hplans ▸ getSubscriptionPlanByIdTx_ok hplan
      split at h
      · cases h
      · rename_i sub σ₁ happly
        have hreset : Evolves zone σ₀ (.preConsume requestId userId amount now) σ σ₁ ∧
            Current σ₁ (sub :: rest) ∧ sub = afterReset zone now plan candidate :=
          applyReset_evolves rfl hcur (isLive_active hlive) hplan happly
        obtain ⟨hev, hcur₁, hsub⟩ := hreset
        -- without room the next candidate is tried, with the reset kept
        split_ifs at h with hroom
        · exact hev.trans (ih hcur₁.tail hrest (hev.plans.trans hplans) h)
        · injection h with _ h
          have hc : Change zone σ₀ (.preConsume requestId userId amount now) (σ₁.rowState sub)
              ⟨[.consumed sub.id requestId amount] ++ about sub.id σ₁.log,
                { sub with amountUsed := wrap64 (sub.amountUsed + amount) }⟩ :=
            .consumed hnew hpos (find?_eq_some.mpr ⟨hmem, rfl⟩) huser hlive hplan hsub hroom
          refine hev.trans ((Evolves.save hcur₁.head hc).trans ?_)
          exact .of_eq (by rw [← h]; rfl) (by rw [← h]; rfl) (by rw [← h]; rfl)

theorem preConsume_evolves
    (h : preConsumeUserSubscription zone σ requestId userId amount now = .commit r σ') :
    Evolves zone σ (.preConsume requestId userId amount now) σ σ' := by
  unfold preConsumeUserSubscription preConsumeUserSubscriptionWith at h
  split_ifs at h with _ _ hamount
  split at h
  · -- the request has a record: nothing is written
    split_ifs at h
    split at h
    · cases h
    · injection h with _ h
      exact h ▸ .refl σ
  · rename_i hnew
    split at h
    · cases h
    · exact preConsumeFrom_evolves hnew (not_le.mp hamount) (.subsByEnd σ _) (fun s hs => hs) rfl h

variable {request : String}

theorem adjust_evolves {sub delta : Int} {u : Unit}
    (h : postConsumeUserSubscriptionDelta σ sub delta (.adjusted sub request delta)
      = .commit u σ') : Evolves zone σ (.adjust sub request delta now) σ σ' := by
  obtain ⟨-, ⟨-, rfl⟩ | ⟨-, row, row', hrow, happly, rfl⟩⟩ :=
    postConsumeUserSubscriptionDelta_commit h
  · exact .refl _
  · obtain rfl := key_of_find? hrow
    exact .save hrow (.adjusted hrow happly)

theorem refund_evolves {u : Unit} (h : refundSubscriptionPreConsume σ request = .commit u σ') :
    Evolves zone σ (.refund request now) σ σ' := by
  obtain ⟨record, hrecord, ⟨-, rfl⟩ | ⟨-, -, rfl⟩ | ⟨hopen, hpos, row, row', hrow, happly, rfl⟩⟩ :=
    refundSubscriptionPreConsume_commit h
  · exact .refl _
  · exact .of_eq rfl rfl rfl
  · have hid := key_of_find? hrow
    rw [← hid] at hrow ⊢
    have hc : Change zone σ (.refund request now) (σ.rowState row)
        ⟨[.refunded row.id request record.preConsumed] ++ about row.id σ.log, row'⟩ :=
      .refunded hrow hrecord hopen hpos hid.symm happly
    refine (Evolves.save hrow hc).trans ?_
    exact .of_eq rfl rfl rfl

theorem resetAll_evolves (hop : op.advances = some advance) (hcur : Current σ l)
    (hl : ∀ s ∈ l, σ₀.subs.find? s.id = some s ∧ op.targets s = true ∧
      isLive op.time s = true ∧ σ₀.plans.find? s.planId = some plan) :
    Evolves zone σ₀ op σ (resetAll zone plan op.time advance l σ) := by
  induction l generalizing σ with
  | nil => exact .refl σ
  | cons sub rest ih =>
    obtain ⟨⟨hsub, htarget, hlive, hplan⟩, hrest⟩ := forall_mem_cons.mp hl
    have hc : Change zone σ₀ op (σ.rowState sub)
        ⟨.adminReset sub.id op.time advance :: about sub.id σ.log,
          resetUserSubscriptionTx zone sub plan op.time advance⟩ :=
      .adminReset hop hsub htarget hlive hplan
    exact (Evolves.save hcur.head hc).trans (ih (hcur.cons_save hc.id_eq _).tail hrest)

variable {planId : Int}

theorem adminResetUser_evolves {r : SubscriptionResetResult}
    (h : adminResetUserSubscriptionsByPlan zone σ userId planId now advance = .commit r σ') :
    Evolves zone σ (.adminResetUser userId planId now advance) σ σ' := by
  unfold adminResetUserSubscriptionsByPlan at h
  split_ifs at h
  split at h
  · cases h
  · rename_i plan hplan
    have hplan := getSubscriptionPlanByIdTx_ok hplan
    split at h
    · cases h
    · injection h with _ h
      rw [← h]
      -- only live subscriptions of this user and plan are listed
      refine resetAll_evolves rfl (.subsByEnd σ _) fun s hs => ?_
      obtain ⟨hmem, hp⟩ := mem_subsByEnd.mp hs
      simp only [Bool.and_eq_true, decide_eq_true_eq, key_of_find? hplan] at hp
      obtain ⟨⟨huser, hid⟩, hlive⟩ := hp
      exact ⟨find?_eq_some.mpr ⟨hmem, rfl⟩, by simp [SubOp.targets, huser, hid], hlive, hid ▸ hplan⟩

theorem adminResetPlan_evolves {r : SubscriptionResetResult}
    (h : adminResetPlanSubscriptions zone σ planId now advance = .commit r σ') :
    Evolves zone σ (.adminResetPlan planId now advance) σ σ' := by
  unfold adminResetPlanSubscriptions at h
  split_ifs at h
  split at h
  · cases h
  · rename_i plan hplan
    have hplan := getSubscriptionPlanByIdTx_ok hplan
    injection h with _ h
    rw [← h]
    -- sorting by user keeps the rows as they are stored
    have hcur := (Current.subsByEnd σ fun s => s.planId = plan.id && isLive now s).perm
      (perm_insertionSort (fun a b => a.userId ≤ b.userId) _)
    refine resetAll_evolves rfl hcur fun s hs => ?_
    obtain ⟨hmem, hp⟩ := mem_subsByEnd.mp ((mem_insertionSort _).mp hs)
    simp only [Bool.and_eq_true, decide_eq_true_eq, key_of_find? hplan] at hp
    obtain ⟨hid, hlive⟩ := hp
    exact ⟨find?_eq_some.mpr ⟨hmem, rfl⟩, by simp [SubOp.targets, hid], hlive, hid ▸ hplan⟩

theorem resetDueFrom_evolves {count : Nat} (hop : op.mayReset = true)
    (hcur : Current σ l) (hactive : ∀ s ∈ l, s.status = .active) (hplans : σ.plans = σ₀.plans) :
    Evolves zone σ₀ op σ (resetDueFrom zone op.time l σ count).1 := by
  induction l generalizing σ count with
  | nil => exact .refl σ
  | cons sub rest ih =>
    obtain ⟨hsub, hrest⟩ := forall_mem_cons.mp hactive
    unfold resetDueFrom
    split
    · exact ih hcur.tail hrest hplans
    · rename_i plan hplan
      have hplan := hplans ▸ getSubscriptionPlanByIdTx_ok hplan
      rw [hcur.head]
      dsimp only
      split_ifs
      · -- a reset that fails ends the pass
        split
        · exact .refl σ
        · rename_i sub' σ₁ happly
          obtain ⟨hev, hcur₁, -⟩ := applyReset_evolves hop hcur hsub hplan happly
          exact hev.trans (ih hcur₁.tail hrest (hev.plans.trans hplans))
      · exact ih hcur.tail hrest hplans

theorem resetDue_evolves :
    Evolves zone σ (.resetDue limit now) σ (resetDueSubscriptions zone σ limit now).1 := by
  refine resetDueFrom_evolves rfl ?_ ?_ rfl
  · refine Current.sublist (Current.perm ?_ (perm_insertionSort ..)) (take_sublist ..)
    exact (Current.rows σ).sublist filter_sublist
  · intro s hs
    have hs := (mem_filter.mp ((mem_insertionSort _).mp (mem_of_mem_take hs))).2
    simp only [Bool.and_eq_true, decide_eq_true_eq] at hs
    exact hs.2

theorem downgrade_evolves {target : String}
    (h : downgradeUserGroupForSubscriptionTx σ sub now = .ok (target, σ')) :
    Evolves zone σ₀ op σ σ' := by
  obtain ⟨users, rfl⟩ := downgradeUserGroupForSubscriptionTx_users h
  exact .of_eq rfl rfl rfl

theorem invalidate_evolves {id : Int} {r : String}
    (h : adminInvalidateUserSubscription σ id now = .commit r σ') :
    Evolves zone σ (.invalidate id now) σ σ' := by
  obtain ⟨sub, target, hsub, hdown⟩ := adminInvalidateUserSubscription_commit h
  obtain rfl := key_of_find? hsub
  exact (Evolves.save hsub .cancelled).trans (downgrade_evolves hdown)

theorem delete_evolves {id : Int} {r : String}
    (h : adminDeleteUserSubscription σ id now = .commit r σ') :
    Evolves zone σ (.delete id now) σ σ' := by
  obtain ⟨sub, target, σ₁, -, hdown, rfl⟩ := adminDeleteUserSubscription_commit h
  refine (downgrade_evolves hdown).trans ?_
  exact
    { plans := rfl
      seq := rfl
      log := ⟨[], rfl, by simp⟩
      rows := fun x hx => ⟨x, mem_of_mem_filter hx, rfl, .refl⟩ }

theorem expireUser_evolves :
    Evolves zone σ₀ (.expireDue limit now) σ (expireUser σ userId now) := by
  unfold expireUser
  obtain ⟨users, hgroup⟩ := expireGroup_users (expireRows σ userId now) userId now
  rw [hgroup]
  refine
    { plans := rfl
      seq := rfl
      log := ⟨[], rfl, by simp⟩
      rows := fun x' hx' => ?_ }
  obtain ⟨x, hx, rfl⟩ := mem_expireRows.mp hx'
  split_ifs
  · exact ⟨x, hx, rfl, .single .expired⟩
  · exact ⟨x, hx, rfl, .refl⟩

theorem expireDue_evolves :
    Evolves zone σ (.expireDue limit now) σ (expireDueSubscriptions σ limit now) := by
  unfold expireDueSubscriptions
  generalize overdueUsers σ limit now = users
  suffices h : ∀ σ₁, Evolves zone σ (.expireDue limit now) σ₁
      (users.foldl (fun σ userId => expireUser σ userId now) σ₁) from h σ
  induction users with
  | nil => exact fun σ₁ => .refl σ₁
  | cons userId rest ih => exact fun σ₁ => expireUser_evolves.trans (ih _)

end Calls

/-! ### Every call -/

/-- `x` is the row that the call `op` created. -/
def Created (zone : Int) (σ : Store) (op : SubOp) (x : UserSubscription) : Prop :=
  ∃ userId planId source now plan endUnix, op = .create userId planId source now ∧
    σ.plans.find? planId = some plan ∧ calcPlanEndTime zone now plan = .ok endUnix ∧
    x = newSubscription zone userId plan source (σ.userGroup userId) now endUnix σ.subs.seq

/-- The rows changed, or one row was added to them. -/
theorem outcome_evolves : Evolves zone σ op σ (op.outcome zone σ).1 ∨ ∃ x, Created zone σ op x ∧
      (op.outcome zone σ).1.subs.rows = σ.subs.rows ++ [x] ∧
      (op.outcome zone σ).1.subs.seq = σ.subs.seq + 1 ∧
      (op.outcome zone σ).1.plans = σ.plans ∧ (op.outcome zone σ).1.log = σ.log := by
  -- a transaction that does not commit leaves the store as it was
  have htx : ∀ {α : Type} (t : Tx Store α), (∀ a σ', t = .commit a σ' → Evolves zone σ op σ σ') →
      Evolves zone σ op σ (ofTx σ t).1 := fun t ht => Tx.after_invariant (.refl σ) ht
  cases op with
  | create userId planId source now =>
    rcases hplan : getSubscriptionPlanByIdTx σ planId with e | plan
    · simp only [SubOp.outcome, hplan]
      exact .inl (.refl σ)
    · simp only [SubOp.outcome, hplan]
      rcases ht : createUserSubscriptionFromPlanTx zone σ userId plan source now with
        ⟨sub, σ'⟩ | e | _
      · right
        obtain ⟨-, ⟨endUnix, hend, hsubs⟩, hplans, hlog, -⟩ :=
          createUserSubscriptionFromPlanTx_commit ht
        have hcreated : Created zone σ (.create userId planId source now) _ :=
          ⟨userId, planId, source, now, plan, endUnix, rfl, getSubscriptionPlanByIdTx_ok hplan,
            hend, rfl⟩
        exact ⟨_, hcreated, congrArg Table.rows hsubs, congrArg Table.seq hsubs, hplans, hlog⟩
      · exact .inl (.refl σ)
      · exact .inl (.refl σ)
  | preConsume => exact .inl (htx _ fun _ _ h => preConsume_evolves h)
  | adjust => exact .inl (htx _ fun _ _ h => adjust_evolves h)
  | refund => exact .inl (htx _ fun _ _ h => refund_evolves h)
  | resetDue limit now =>
    have h : Evolves zone σ (.resetDue limit now) σ (resetDueSubscriptions zone σ limit now).1 :=
      resetDue_evolves
    left
    unfold SubOp.outcome
    dsimp only
    split
    · rename_i heq
      rwa [heq] at h
    · rename_i heq
      rwa [heq] at h
  | adminResetUser => exact .inl (htx _ fun _ _ h => adminResetUser_evolves h)
  | adminResetPlan => exact .inl (htx _ fun _ _ h => adminResetPlan_evolves h)
  | expireDue => exact .inl expireDue_evolves
  | invalidate => exact .inl (htx _ fun _ _ h => invalidate_evolves h)
  | delete => exact .inl (htx _ fun _ _ h => delete_evolves h)

namespace World

theorem step_plans (w : World) : (w.step zone op).store.plans = w.store.plans := by
  rcases outcome_evolves with hev | ⟨_, -, -, -, hplans, -⟩
  · exact hev.plans
  · exact hplans

/-- Every row satisfies `Inv` with the clock and its own history, and the history
is about rows that have been created. -/
structure Rows (Inv : Int → RowState → Prop) (w : World) : Prop where
  log : ∀ e ∈ w.store.log, e.sub < w.store.subs.seq
  rows : ∀ x ∈ w.store.subs.rows, Inv w.clock (w.store.rowState x)

variable {Inv : Int → RowState → Prop} {w : World}

theorem rows_of_fresh (hw : w.Fresh) : Rows Inv w where
  log e he := by rw [hw.2] at he; cases he
  rows x hx := by rw [hw.1] at hx; cases hx

/-- **The row rule.**  A property of a row and its history that holds of new
rows, as time passes and through every single change, is kept by every call. -/
theorem rows_step (htime : ∀ s, Inv w.clock s → Inv op.time s)
    (hcreate : ∀ x, Created zone w.store op x → Inv op.time ⟨[], x⟩)
    (hchange : ∀ a b, Inv op.time a → Change zone w.store op a b → Inv op.time b)
    (hw : Rows Inv w) : Rows Inv (w.step zone op) := by
  obtain ⟨hlog, hrows⟩ := hw
  rcases outcome_evolves with hev | ⟨x, hx, hxrows, hseq, -, hlog'⟩
  · refine ⟨fun e he => ?_, fun x' hx' => ?_⟩
    · obtain ⟨new, heq, hnew⟩ := hev.log
      show e.sub < (op.outcome zone w.store).1.subs.seq
      rw [hev.seq]
      rcases mem_append.mp (heq ▸ he) with he | he
      · exact hnew e he
      · exact hlog e he
    · obtain ⟨x, hx, -, hc⟩ := hev.rows x' hx'
      show Inv op.time ((op.outcome zone w.store).1.rowState x')
      -- the row went through a chain of single changes
      generalize (op.outcome zone w.store).1.rowState x' = s' at hc
      induction hc with
      | refl => exact htime _ (hrows x hx)
      | tail _ hstep ih => exact hchange _ _ ih hstep
  · refine ⟨fun e he => ?_, fun x' hx' => ?_⟩
    · show e.sub < (op.outcome zone w.store).1.subs.seq
      rw [hseq]
      have := hlog e (hlog' ▸ he)
      omega
    · have hstate : ∀ y, (w.step zone op).store.rowState y = w.store.rowState y := fun y => by
        show RowState.mk _ _ = _
        rw [step, hlog']
        rfl
      rw [hstate]
      rcases mem_append.mp (hxrows ▸ hx') with hx' | hx'
      · exact htime _ (hrows x' hx')
      · -- nothing has been noted about the new row yet
        obtain rfl := mem_singleton.mp hx'
        have hnil : about x'.id w.store.log = [] := about_eq_nil fun e he => by
          have := hlog e he
          obtain ⟨_, _, _, _, _, _, -, -, -, rfl⟩ := hx
          exact ne_of_lt this
        rw [rowState, hnil]
        exact hcreate x' hx

end World
