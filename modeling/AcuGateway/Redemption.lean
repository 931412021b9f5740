/-
Redemption codes.

A call reads the code, checks it, marks it as used and credits its user, in one transaction.  The
calls run at the same time: where the database has row locks, reading the code locks its row; on
SQLite it does not, and the row that was read may be out of date.  Marking the code is a
compare-and-swap on its status, so that of all calls that saw it unused only one gets further.

* `Redeem.step` — the statements of a call, any of which may fail;
* `Redeem.Inv`, `Redeem.Own` — a code is as it was in the beginning, or used and credited once; a
  call that has marked a code holds its row;
* `redeemed_exactly_once` — in every run.
-/
import AcuGateway.Lib.Account
import AcuGateway.Lib.Threads
import AcuGateway.Store

open List Table

/-! ### Codes -/

inductive RedemptionCodeStatus
  | enabled
  | disabled
  | used
  | other (value : Int)
deriving DecidableEq

structure Redemption where
  id : Int
  key : String
  status : RedemptionCodeStatus
  quota : Int
  redeemedTime : Int
  usedUserId : Int
  deleted : Bool
  expiredTime : Int

/-- The code has run out; a code with time 0 never does. -/
def Redemption.Expired (redemption : Redemption) (now : Int) : Prop :=
  redemption.expiredTime ≠ 0 ∧ redemption.expiredTime < now
deriving Decidable

structure RedeemDB where
  codes : Table Redemption.id
  users : Users

variable (db : RedeemDB)

/-- The code with a key; a deleted one is not found. -/
def RedeemDB.codeByKey (key : String) : Option Redemption :=
  db.codes.rows.find? fun redemption => redemption.key = key ∧ redemption.deleted = false

/-- Rows of a code that is still enabled. -/
def isEnabledCode (id : Int) (redemption : Redemption) : Bool :=
  redemption.id = id ∧ redemption.deleted = false ∧ redemption.status = .enabled

def RedeemDB.markUsed (id userId redeemedTime : Int) : RedeemDB :=
  { db with
    codes := db.codes.update (isEnabledCode id)
      (fun redemption => { redemption with redeemedTime, status := .used, usedUserId := userId })
        fun _ _ => rfl }

def RedeemDB.credit (userId quota : Int) : RedeemDB :=
  { db with users := addUserQuota db.users userId quota }

/-! ### Calls -/

namespace Redeem

/-- That a user got the quota of a code, which the call had checked at `checkedAt`. -/
structure Credit where
  code : Int
  userId : Int
  quota : Int
  checkedAt : Int
deriving DecidableEq

/-- What the calls share: the committed rows, the earlier ones that a read without a lock may still
see, the row locks on codes, and the credits that were committed. -/
structure World where
  db : RedeemDB
  past : List RedeemDB
  locks : Locks Int
  credits : List Credit

/-- How far a call has come.  What it wrote since its transaction began is seen by no one else. -/
inductive Call
  | idle
  | begun (key : String) (userId : Int)
  | checked (redemption : Redemption) (userId checkedAt : Int)
  | marked (redemption : Redemption) (userId checkedAt redeemedTime : Int)
  | credited (redemption : Redemption) (userId checkedAt redeemedTime : Int)
  | returned (result : Except String Int)

inductive Act
  | call (key : String) (userId : Int)
  | read (version : Nat) (now : Int)
  | mark (now : Int)
  | credit
  | commit
  | fail

/-- A transaction ends without effect. -/
def rollback (i : Nat) (w : World) : World × Call :=
  ({ w with locks := w.locks.release i }, .returned (.error "redeem.failed"))

/-- The rows that a call reads: the committed ones where rows are locked, and else any that were
committed before. -/
def World.seen (w : World) (locking : Bool) (version : Nat) : RedeemDB :=
  if locking then w.db else w.past.getD version w.db

/-- `locking` says whether the database has row locks.  A statement that has to wait for a lock
leaves everything as it is. -/
def step (locking : Bool) (i : Nat) (w : World) : Call → Act → World × Call
  | .idle, .call key userId =>
    if key = "" then (w, .returned (.error "未提供兑换码"))
    else if userId = 0 then (w, .returned (.error "无效的 user id"))
    else (w, .begun key userId)
  | .begun key userId, .read version now =>
    match (w.seen locking version).codeByKey key with
    | none => rollback i w
    | some redemption =>
      if locking = true ∧ ¬ w.locks.Free i redemption.id then (w, .begun key userId)
      else if redemption.status ≠ .enabled then rollback i w
      else if redemption.Expired now then rollback i w
      else
        (if locking then { w with locks := w.locks.take i redemption.id }
          else w, .checked redemption userId now)
  | .checked redemption userId checkedAt, .mark now =>
    if ¬ w.locks.Free i redemption.id then (w, .checked redemption userId checkedAt)
    -- no row is affected: another call was faster
    else if w.db.codes.affected (isEnabledCode redemption.id) = 0 then rollback i w
    else ({ w with locks := w.locks.take i redemption.id }, .marked redemption userId checkedAt now)
  | .marked redemption userId checkedAt redeemedTime, .credit =>
    (w, .credited redemption userId checkedAt redeemedTime)
  | .credited redemption userId checkedAt redeemedTime, .commit =>
    ({ db := (w.db.markUsed redemption.id userId redeemedTime).credit userId redemption.quota
       past := w.past ++ [w.db]
       locks := w.locks.release i
       credits :=
        if (w.db.users.find? userId).isSome then
          ⟨redemption.id, userId, redemption.quota, checkedAt⟩ :: w.credits
        else w.credits },
      .returned (.ok redemption.quota))
  | .begun .., .fail => rollback i w
  | .checked .., .fail => rollback i w
  | .marked .., .fail => rollback i w
  | .credited .., .fail => rollback i w
  | call, _ => (w, call)

/-! ### What holds at all times -/

variable (credits : List Credit)

/-- What a user was credited in all. -/
def creditedTo (userId : Int) : Int :=
  Account.total ((credits.filter fun credit => credit.userId = userId).map fun credit =>
    (credit.code, credit.quota))

/-- The credits of a code. -/
def creditsOf (code : Int) : List Credit := credits.filter fun credit => credit.code = code

/-- A code is as it was, or it was enabled and one user has been credited for it. -/
def CodeState (redemption₀ redemption : Redemption) : Prop :=
  redemption = redemption₀ ∧ creditsOf credits redemption₀.id = [] ∨
    redemption₀.status = .enabled ∧ ∃ credit redeemedTime, creditsOf credits redemption₀.id =
      [credit] ∧ credit.quota = redemption₀.quota ∧ ¬ redemption₀.Expired credit.checkedAt ∧
      redemption = { redemption₀ with redeemedTime, status := .used, usedUserId := credit.userId }

/-- The state of all rows, compared with the database in the beginning. -/
structure Inv (db₀ : RedeemDB) (w : World) : Prop where
  codes : ∀ id, Option.Rel (CodeState w.credits) (db₀.codes.find? id) (w.db.codes.find? id)
  past : ∀ db ∈ w.past, ∀ redemption ∈ db.codes.rows, redemption.status = .enabled →
    db₀.codes.find? redemption.id = some redemption
  users : ∀ userId, (w.db.users.find? userId).isSome = (db₀.users.find? userId).isSome
  quotas : ∀ userId, getUserQuota w.db.users userId =
    getUserQuota db₀.users userId + creditedTo w.credits userId

/-- A code that a call may use: enabled in the beginning, and not expired when it was checked. -/
structure Usable (db₀ : RedeemDB) (redemption : Redemption) (userId checkedAt : Int) : Prop where
  user : (db₀.users.find? userId).isSome = true
  code : db₀.codes.find? redemption.id = some redemption
  enabled : redemption.status = .enabled
  unexpired : ¬ redemption.Expired checkedAt

/-- A call that has marked a code holds its row, and nobody else has used the code. -/
structure Holding (i : Nat) (w : World) (redemption : Redemption) : Prop where
  lock : w.locks redemption.id = some i
  unused : w.db.codes.find? redemption.id = some redemption
  enabled : isEnabledCode redemption.id redemption = true

def Own (db₀ : RedeemDB) (i : Nat) (w : World) : Call → Prop
  | .begun _ userId => (db₀.users.find? userId).isSome = true
  | .checked redemption userId checkedAt => Usable db₀ redemption userId checkedAt
  | .marked redemption userId checkedAt _ =>
    Usable db₀ redemption userId checkedAt ∧ Holding i w redemption
  | .credited redemption userId checkedAt _ =>
    Usable db₀ redemption userId checkedAt ∧ Holding i w redemption
  | _ => True

/-- Only users that exist redeem codes. -/
def ByUser (db₀ : RedeemDB) (_ : Nat) (_ : World) (_ : Call) : Act → Prop
  | .call _ userId => (db₀.users.find? userId).isSome = true
  | _ => True

section Steps

variable {db₀ : RedeemDB} {locking : Bool} {i j : Nat} {w : World}

variable {redemption : Redemption} {checkedAt redeemedTime userId : Int} {credits : List Credit}

/-- A row that is seen enabled is the one of the beginning. -/
theorem Inv.of_enabled (h : Inv db₀ w) (hmem : redemption ∈ w.db.codes.rows)
    (henabled : redemption.status = .enabled) :
    db₀.codes.find? redemption.id = some redemption := by
  have hrel := h.codes redemption.id
  rw [find?_eq_some.mpr ⟨hmem, rfl⟩] at hrel
  obtain ⟨redemption₀, hrow⟩ : ∃ redemption₀, db₀.codes.find? redemption.id = some redemption₀ := by
    cases hrow : db₀.codes.find? redemption.id with
    | none => rw [hrow] at hrel; cases hrel
    | some redemption₀ => exact ⟨redemption₀, rfl⟩
  rw [hrow] at hrel ⊢
  cases hrel with
  | some hstate =>
    rcases hstate with ⟨hsame, -⟩ | ⟨-, credit, redeemedTime, -, -, -, hused⟩
    · rw [hsame]
    · rw [hused] at henabled
      cases henabled

theorem Inv.read (h : Inv db₀ w) {version : Nat} {key : String}
    (hread : (w.seen locking version).codeByKey key = some redemption)
    (henabled : redemption.status = .enabled) :
    db₀.codes.find? redemption.id = some redemption := by
  have hmem : redemption ∈ (w.seen locking version).codes.rows := mem_of_find?_eq_some hread
  rw [World.seen] at hmem
  split at hmem
  · exact h.of_enabled hmem henabled
  · rw [getD_eq_getElem?_getD] at hmem
    cases hversion : w.past[version]? with
    | none =>
      rw [hversion] at hmem
      exact h.of_enabled hmem henabled
    | some db =>
      rw [hversion] at hmem
      exact h.past db (mem_of_getElem? hversion) redemption hmem henabled

/-- Another call keeps the rows it holds. -/
def LocksKept (i : Nat) (locks locks' : Locks Int) : Prop :=
  ∀ j id, j ≠ i → locks id = some j → locks' id = some j

/-- The state after a commit. -/
def World.committed (w : World) (i : Nat) (redemption : Redemption)
    (userId checkedAt redeemedTime : Int) : World where
  db := (w.db.markUsed redemption.id userId redeemedTime).credit userId redemption.quota
  past := w.past ++ [w.db]
  locks := w.locks.release i
  credits :=
    if (w.db.users.find? userId).isSome then
      ⟨redemption.id, userId, redemption.quota, checkedAt⟩ :: w.credits
    else w.credits

/-- A step commits, or it changes locks only. -/
theorem step_cases (call : Call) (a : Act) :
    (∃ locks, (step locking i w call a).1 = { w with locks } ∧ LocksKept i w.locks locks) ∨
      ∃ redemption userId checkedAt redeemedTime,
        call = .credited redemption userId checkedAt redeemedTime ∧
        (step locking i w call a).1 = w.committed i redemption userId checkedAt redeemedTime ∧
        ∃ quota, (step locking i w call a).2 = .returned (.ok quota) := by
  have hsame : ∃ locks, w = { w with locks } ∧ LocksKept i w.locks locks :=
    ⟨w.locks, rfl, fun _ _ _ h => h⟩
  have hrollback : ∃ locks, (rollback i w).1 = { w with locks } ∧ LocksKept i w.locks locks :=
    ⟨w.locks.release i, rfl, fun j id hj h => Locks.release_of_ne hj h⟩
  have htake : ∀ id, w.locks.Free i id →
      ∃ locks, { w with locks := w.locks.take i id } = { w with locks } ∧
          LocksKept i w.locks locks := by
    intro id hfree
    exact ⟨w.locks.take i id, rfl, fun j k hj h => Locks.take_of_ne hfree hj h⟩
  unfold step
  split
  -- the call begins
  · left
    split_ifs <;> exact hsame
  -- the code is read
  · left
    split
    · exact hrollback
    split_ifs with hwait
    · exact hsame
    · exact hrollback
    · exact hrollback
    · exact htake _ (by simpa [*] using hwait)
    · exact hsame
  -- the code is marked
  · left
    split_ifs with hfree
    · exact hrollback
    · exact htake _ hfree
    · exact hsame
  · exact .inl hsame
  · exact .inr ⟨_, _, _, _, rfl, rfl, _, rfl⟩
  all_goals first | exact .inl hrollback | exact .inl hsame

/-- What a call knows after a step of its own. -/
theorem step_own (h : Inv db₀ w) {call : Call} {a : Act} (hown : Own db₀ i w call)
    (hby : ByUser db₀ i w call a) :
    Own db₀ i (step locking i w call a).1 (step locking i w call a).2 := by
  unfold step
  split
  · split_ifs
    · trivial
    · trivial
    · exact hby
  · rename_i key userId version now
    split
    · trivial
    rename_i redemption hread
    split_ifs with hwait henabled hexpired
    · exact hown
    · trivial
    · trivial
    · exact ⟨hown, h.read hread (not_not.mp henabled), not_not.mp henabled, hexpired⟩
    · exact ⟨hown, h.read hread (not_not.mp henabled), not_not.mp henabled, hexpired⟩
  · rename_i redemption userId checkedAt now
    have husable : Usable db₀ redemption userId checkedAt := hown
    split_ifs with hfree haffected
    · trivial
    · -- the row that is affected is enabled, so it is the one that was read
      obtain ⟨row, hmem, hrow⟩ := countP_pos_iff.mp (Nat.pos_of_ne_zero haffected)
      obtain ⟨hid, -, henabled⟩ := of_decide_eq_true hrow
      have hfound := h.of_enabled hmem henabled
      rw [hid, husable.code] at hfound
      rw [← Option.some.inj hfound] at hmem hrow
      exact ⟨husable, Locks.take_self _ _ _, find?_eq_some.mpr ⟨hmem, rfl⟩, hrow⟩
    · exact husable
  · exact hown
  all_goals trivial

/-- The rows after a commit. -/
theorem find?_committed (id : Int) :
    (w.committed i redemption userId checkedAt redeemedTime).db.codes.find? id =
      (w.db.codes.find? id).map fun row =>
        if isEnabledCode redemption.id row then
          { row with redeemedTime, status := .used, usedUserId := userId } else row := by
  show (w.db.markUsed redemption.id userId redeemedTime).codes.find? id = _
  rw [RedeemDB.markUsed, find?_update]

/-- A commit leaves the rows of other codes. -/
theorem find?_committed_of_ne {id : Int} (hne : id ≠ redemption.id) :
    (w.committed i redemption userId checkedAt redeemedTime).db.codes.find? id =
      w.db.codes.find? id := by
  rw [find?_committed]
  cases hrow : w.db.codes.find? id with
  | none => rfl
  | some row =>
    have hother : isEnabledCode redemption.id row = false := by
      refine decide_eq_false fun h => hne ?_
      rw [← h.1, key_of_find? hrow]
    simp [hother]

theorem find?_committed_self (hholding : Holding i w redemption) :
    (w.committed i redemption userId checkedAt redeemedTime).db.codes.find? redemption.id =
      some { redemption with redeemedTime, status := .used, usedUserId := userId } := by
  rw [find?_committed, hholding.unused]
  simp [hholding.enabled]

theorem creditsOf_cons_of_ne {credit : Credit} {code : Int} (hne : credit.code ≠ code) :
    creditsOf (credit :: credits) code = creditsOf credits code := by
  rw [creditsOf, filter_cons_of_neg (by simpa using hne)]
  rfl

theorem creditsOf_cons_self (credit : Credit) :
    creditsOf (credit :: credits) credit.code = credit :: creditsOf credits credit.code := by
  rw [creditsOf, filter_cons_of_pos (by simp)]
  rfl

theorem creditedTo_cons (credit : Credit) :
    creditedTo (credit :: credits) userId =
      creditedTo credits userId + if userId = credit.userId then credit.quota else 0 := by
  unfold creditedTo
  by_cases huser : credit.userId = userId
  · rw [filter_cons_of_pos (by simpa using huser), if_pos huser.symm, map_cons, Account.total_cons]
    omega
  · rw [filter_cons_of_neg (by simpa using huser), if_neg (Ne.symm huser)]
    omega

/-- A commit uses up a code that was enabled, and credits the user of the call. -/
theorem Inv.commit (h : Inv db₀ w)
    (husable : Usable db₀ redemption userId checkedAt) (hholding : Holding i w redemption) :
    Inv db₀ (w.committed i redemption userId checkedAt redeemedTime) := by
  obtain ⟨user, huser⟩ : ∃ user, w.db.users.find? userId = some user := by
    rw [← Option.isSome_iff_exists, h.users, husable.user]
  have hcredits : (w.committed i redemption userId checkedAt redeemedTime).credits =
      ⟨redemption.id, userId, redemption.quota, checkedAt⟩ :: w.credits := by
    simp [World.committed, huser]
  refine ⟨fun id => ?_, ?_, fun k => ?_, fun k => ?_⟩
  · rw [hcredits]
    by_cases hid : id = redemption.id
    · subst hid
      rw [find?_committed_self hholding, husable.code]
      refine Option.Rel.some
        (.inr ⟨husable.enabled, ⟨redemption.id, userId, redemption.quota, checkedAt⟩, redeemedTime,
          ?_, rfl,
        husable.unexpired, rfl⟩)
      -- nobody was credited before, since the row is still the one of the beginning
      have hrel := h.codes redemption.id
      rw [husable.code, hholding.unused] at hrel
      cases hrel with
      | some hstate =>
        rcases hstate with ⟨-, hnone⟩ | ⟨-, credit, time, -, -, -, hused⟩
        · rw [creditsOf_cons_self _, hnone]
        · have hstatus := congrArg Redemption.status hused
          rw [husable.enabled] at hstatus
          cases hstatus
    · rw [find?_committed_of_ne hid]
      have hrel := h.codes id
      cases hrow₀ : db₀.codes.find? id with
      | none =>
        rw [hrow₀] at hrel
        cases hrow : w.db.codes.find? id with
        | none => exact .none
        | some row => rw [hrow] at hrel; cases hrel
      | some row₀ =>
        have hother : creditsOf (⟨redemption.id, userId, redemption.quota, checkedAt⟩ :: w.credits)
            row₀.id = creditsOf w.credits row₀.id := by
          rw [key_of_find? hrow₀]
          exact creditsOf_cons_of_ne (Ne.symm hid)
        rw [hrow₀] at hrel
        cases hrow : w.db.codes.find? id with
        | none => rw [hrow] at hrel; cases hrel
        | some row =>
          rw [hrow] at hrel
          cases hrel with
          | some hstate =>
            refine .some ?_
            rw [CodeState, hother]
            exact hstate
  · intro db hdb row hrow henabled
    rcases mem_append.mp hdb with hdb | hdb
    · exact h.past db hdb row hrow henabled
    · rw [mem_singleton.mp hdb] at hrow
      exact h.of_enabled hrow henabled
  · show ((addUserQuota w.db.users userId redemption.quota).find? k).isSome = _
    rw [find?_addUserQuota, Option.isSome_map, h.users]
  · show getUserQuota (addUserQuota w.db.users userId redemption.quota) k = _
    rw [getUserQuota_addUserQuota huser, hcredits, creditedTo_cons, h.quotas]
    exact Int.add_assoc ..

theorem kept : Threads.Kept (step locking) (ByUser db₀) (Inv db₀) (Own db₀) where
  inv := by
    intro i w call a h hown hby
    rcases step_cases call
      a with ⟨locks, hw, -⟩ | ⟨redemption, userId, checkedAt, redeemedTime, rfl, hw, -⟩
    · rw [hw]
      exact ⟨h.codes, h.past, h.users, h.quotas⟩
    · rw [hw]
      exact h.commit hown.1 hown.2
  own := fun h hown hby => step_own h hown hby
  others := by
    intro i j w call call' a hj h hown hby hother
    -- a call that holds a row keeps it, as the others cannot use its code
    have hholding : ∀ redemption, Holding j w redemption →
        Holding j (step locking i w call a).1 redemption := by
      intro redemption hheld
      rcases step_cases call
        a with ⟨locks, hw, hlocks⟩ | ⟨redemption', userId, checkedAt, redeemedTime, rfl, hw, -⟩
      · rw [hw]
        exact ⟨hlocks j _ hj hheld.lock, hheld.unused, hheld.enabled⟩
      · have hne : redemption.id ≠ redemption'.id := by
          intro heq
          have hlock := hown.2.lock
          rw [← heq] at hlock
          exact hj (Locks.owner_unique hlock hheld.lock)
        rw [hw]
        exact ⟨Locks.release_of_ne hj hheld.lock,
          by rw [find?_committed_of_ne hne, hheld.unused], hheld.enabled⟩
    cases call' with
    | marked redemption userId checkedAt redeemedTime =>
      exact ⟨hother.1, hholding redemption hother.2⟩
    | credited redemption userId checkedAt redeemedTime =>
      exact ⟨hother.1, hholding redemption hother.2⟩
    | idle => trivial
    | begun key userId => exact hother
    | checked redemption userId checkedAt => exact hother
    | returned result => trivial

/-- No call has begun. -/
def start (db : RedeemDB) : Threads World Call where
  shared := { db, past := [], locks := .none, credits := [] }
  thread := fun _ => .idle

theorem start_holds (db : RedeemDB) : Threads.Holds (Inv db) (Own db) (start db) where
  inv := by
    refine ⟨fun id => ?_, by simp [start], fun _ => rfl, fun k => ?_⟩
    · show Option.Rel _ (db.codes.find? id) (db.codes.find? id)
      cases db.codes.find? id with
      | none => exact .none
      | some row => exact .some (.inl ⟨rfl, rfl⟩)
    · show getUserQuota db.users k = getUserQuota db.users k + 0
      omega
  own := fun _ => trivial

/-- The state after a run. -/
def after (locking : Bool) (db : RedeemDB) (run : List (Nat × Act)) : World :=
  (Run.exec (Threads.step (step locking)) (start db) run).shared

theorem after_inv {db : RedeemDB} {run : List (Nat × Act)}
    (husers : ∀ i key userId, (i, Act.call key userId) ∈ run →
      (db.users.find? userId).isSome = true) :
    Inv db (after locking db run) := by
  refine (kept.exec_holds (start_holds db) (Run.along_of_forall_mem (fun a ha c => ?_) _)).inv
  obtain ⟨i, a⟩ := a
  cases a with
  | call key userId => exact husers i key userId ha
  | read | mark | credit | commit | fail => trivial

/-- What happened to one code. -/
structure SpentOnce (redemption₀ redemption : Redemption) (credits : List Credit) : Prop where
  used_iff : redemption₀.status ≠ .used → (redemption.status = .used ↔
    ∃ credit, credits = [credit] ∧ credit.quota = redemption₀.quota ∧
      credit.userId = redemption.usedUserId)
  not_enabled : redemption₀.status ≠ .enabled → credits = []
  unexpired : ∀ credit ∈ credits, ¬ redemption₀.Expired credit.checkedAt

theorem CodeState.spentOnce {redemption₀ : Redemption}
    (h : CodeState credits redemption₀ redemption) :
    SpentOnce redemption₀ redemption (creditsOf credits redemption₀.id) := by
  rcases h with ⟨rfl, hnone⟩ | ⟨henabled, credit, redeemedTime, hone, hquota, hexpired, rfl⟩
  · rw [hnone]
    refine ⟨fun hused => ?_, fun _ => rfl, fun credit hcredit => by cases hcredit⟩
    refine iff_of_false hused ?_
    rintro ⟨credit, hcredit, -⟩
    cases hcredit
  · rw [hone]
    refine ⟨fun _ => ?_, fun hne => absurd henabled hne, fun credit' hcredit => ?_⟩
    · exact iff_of_true rfl ⟨credit, rfl, hquota, rfl⟩
    · rw [mem_singleton.mp hcredit]
      exact hexpired

end Steps

end Redeem

open Redeem

/-- A code that was not used before a run is used after it exactly if one user was credited, once
and with its quota, and this is the user whom the code names; a code that was not enabled, or had
expired when the call checked it, is not credited; and the users have what they had and were
credited. -/
theorem redeemed_exactly_once (locking : Bool) (db : RedeemDB) (run : List (Nat × Redeem.Act))
    (husers : ∀ i key userId, (i, Redeem.Act.call key userId) ∈ run →
      (db.users.find? userId).isSome = true) :
    (∀ redemption₀ ∈ db.codes.rows, ∃ redemption ∈ (after locking db run).db.codes.rows,
      redemption.id = redemption₀.id ∧
      Redeem.SpentOnce redemption₀ redemption
        (creditsOf (after locking db run).credits redemption₀.id)) ∧
    ∀ userId, getUserQuota (after locking db run).db.users userId =
      getUserQuota db.users userId + creditedTo (after locking db run).credits userId := by
  have h : Redeem.Inv db (after locking db run) := after_inv husers
  refine ⟨fun redemption₀ hmem => ?_, h.quotas⟩
  have hrel := h.codes redemption₀.id
  rw [find?_eq_some.mpr ⟨hmem, rfl⟩] at hrel
  cases hrow : (after locking db run).db.codes.find? redemption₀.id with
  | none => rw [hrow] at hrel; cases hrel
  | some redemption =>
    rw [hrow] at hrel
    cases hrel with
    | some hstate =>
      obtain ⟨hfound, hid⟩ := find?_eq_some.mp hrow
      exact ⟨redemption, hfound, hid, hstate.spentOnce⟩

namespace Redeem

/-- A code of 500 units, and two users. -/
def oneCode : RedeemDB where
  codes := Table.empty.insert (fun id => ⟨id, "code", .enabled, 500, 0, 0, false, 100⟩) fun _ => rfl
  users := (Table.empty.insert (fun id => ⟨id, 1, 0, 0, 0, "default"⟩) fun _ => rfl).insert
    (fun id => ⟨id, 1, 0, 0, 0, "default"⟩) fun _ => rfl

/-- Both users read the code before one of them marks it. -/
def race : List (Nat × Act) :=
  [(0, .call "code" 1), (1, .call "code" 2), (0, .read 0 50), (1, .read 0 50), (1, .mark 51),
    (0, .mark 52), (1, .credit), (1, .commit), (0, .mark 53)]

end Redeem

theorem redeemed_exactly_once_race : (after false oneCode race).credits = [⟨1, 2, 500, 50⟩] ∧
      ∀ userId, getUserQuota (after false oneCode race).db.users userId =
        getUserQuota oneCode.users userId +
          creditedTo (after false oneCode race).credits userId := by
  refine ⟨by decide, (redeemed_exactly_once false oneCode race ?_).2⟩
  intro i key userId hcall
  simp only [race, mem_cons, Prod.mk.injEq, Act.call.injEq, not_mem_nil, reduceCtorEq] at hcall
  have huser : userId = 1 ∨ userId = 2 := by tauto
  rcases huser with rfl | rfl <;> decide
