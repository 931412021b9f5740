/-
Asynchronous tasks: their rows, the queries of the poller, and the statements
that bill them.

A task is charged when it is submitted; `quota` is what was charged.  The poller
moves its row on and, once the task is over, either gives the charge back or
settles the difference to the real cost.

* `getTimedOutUnfinishedTasks`, `getAllUnFinishSyncTasks` — the two queries;
* `updateWithStatus` — a write of the whole row, guarded by the status;
* `taskBulkUpdateByID` — an unguarded write of the status;
* `taskAdjustFunding`, `taskAdjustTokenQuota` — the statements of a refund or of a
  settlement.
-/
import AcuGateway.BillingSession

open List

/-! ### Rows -/

/-- The statuses the program knows. -/
def taskStatusNames : List String :=
  ["NOT_START", "SUBMITTED", "QUEUED", "IN_PROGRESS", "FAILURE", "SUCCESS", "UNKNOWN"]

/-- The status column, which may hold any text an upstream reports. -/
inductive TaskStatus
  | notStart
  | submitted
  | queued
  | inProgress
  | failure
  | success
  | unknown
  | other (text : String) (fresh : text ∉ taskStatusNames)
deriving DecidableEq

namespace TaskStatus

def ofText (text : String) : TaskStatus :=
  if h₁ : text = "NOT_START" then notStart
  else if h₂ : text = "SUBMITTED" then submitted
  else if h₃ : text = "QUEUED" then queued
  else if h₄ : text = "IN_PROGRESS" then inProgress
  else if h₅ : text = "FAILURE" then failure
  else if h₆ : text = "SUCCESS" then success
  else if h₇ : text = "UNKNOWN" then unknown
  else other text (by simp [taskStatusNames, h₁, h₂, h₃, h₄, h₅, h₆, h₇])

def text : TaskStatus → String
  | notStart => "NOT_START"
  | submitted => "SUBMITTED"
  | queued => "QUEUED"
  | inProgress => "IN_PROGRESS"
  | failure => "FAILURE"
  | success => "SUCCESS"
  | unknown => "UNKNOWN"
  | other text _ => text

/-- The task is over. -/
def terminal : TaskStatus → Bool
  | failure | success => true
  | _ => false

variable {s : TaskStatus}

@[simp] theorem terminal_eq_true : s.terminal = true ↔ s = failure ∨ s = success := by
  cases s <;> simp [terminal]

@[simp] theorem terminal_eq_false : s.terminal = false ↔ s ≠ failure ∧ s ≠ success := by
  cases s <;> simp [terminal]

end TaskStatus

inductive TaskPlatform
  | suno
  | midjourney
  | video (name : String)
deriving DecidableEq

/-- A row of the task table, with the parts of its private data that polling and
billing read. -/
structure TaskRow where
  id : Int
  taskId : String
  platform : TaskPlatform
  userId : Int
  channelId : Int
  quota : Int
  status : TaskStatus
  failReason : String := ""
  submitTime : Int
  startTime : Int := 0
  finishTime : Int := 0
  progress : String
  data : String := ""
  upstreamTaskId : String := ""
  resultURL : String := ""
  billingSource : Option BillingSource := none
  subscriptionId : Int := 0
  tokenId : Int := 0
  perCallBilling : Bool := false
deriving DecidableEq

abbrev Tasks := Table TaskRow.id

/-- Tasks submitted before this time are not refunded when they time out. -/
def taskRefundLegacyCutoff : Int := 1771718400

/-- A time that the sweep takes for one of the old system. -/
def isLegacyTime (submitTime : Int) : Bool := 0 < submitTime && submitTime < taskRefundLegacyCutoff

variable {t : TaskRow}

namespace TaskRow

def getUpstreamTaskID (t : TaskRow) : String :=
  if t.upstreamTaskId ≠ "" then t.upstreamTaskId else t.taskId

def isLegacy (t : TaskRow) : Bool := isLegacyTime t.submitTime

/-- `progress != '100%' AND status NOT IN ('FAILURE', 'SUCCESS')`. -/
def unfinished (t : TaskRow) : Bool := t.progress ≠ "100%" && !t.status.terminal

theorem unfinished_iff : t.unfinished = true ↔ t.progress ≠ "100%" ∧ t.status.terminal = false := by
  simp [unfinished]

end TaskRow

/-! ### Queries and writes -/

/-- `LIMIT limit`; a negative limit is none. -/
def limitRows {α : Type} (limit : Int) (l : List α) : List α :=
  if limit < 0 then l else l.take limit.toNat

variable {limit : Int}

theorem mem_of_mem_limitRows {α : Type} {l : List α} {a : α} (h : a ∈ limitRows limit l) :
    a ∈ l := by
  unfold limitRows at h
  split_ifs at h
  · exact h
  · exact mem_of_mem_take h

variable (tasks : Tasks)

def getTimedOutUnfinishedTasks (cutoffUnix limit : Int) : List TaskRow :=
  limitRows limit
    ((tasks.rows.filter fun t => t.unfinished && decide (t.submitTime < cutoffUnix)).insertionSort
      fun a b => a.submitTime ≤ b.submitTime)

def getAllUnFinishSyncTasks (limit : Int) : List TaskRow :=
  limitRows limit ((tasks.rows.filter TaskRow.unfinished).insertionSort fun a b => a.id ≤ b.id)

section Queries

variable {tasks : Tasks} {cutoffUnix : Int}

theorem mem_getTimedOutUnfinishedTasks (h : t ∈ getTimedOutUnfinishedTasks tasks cutoffUnix limit) :
    t ∈ tasks.rows ∧ t.unfinished = true := by
  have h := mem_of_mem_limitRows h
  rw [mem_insertionSort, mem_filter, Bool.and_eq_true] at h
  exact ⟨h.1, h.2.1⟩

theorem mem_getAllUnFinishSyncTasks (h : t ∈ getAllUnFinishSyncTasks tasks limit) :
    t ∈ tasks.rows ∧ t.unfinished = true := by
  have h := mem_of_mem_limitRows h
  rwa [mem_insertionSort, mem_filter] at h

/-- Without a limit every unfinished row is selected. -/
theorem mem_getAllUnFinishSyncTasks_unlimited :
    t ∈ getAllUnFinishSyncTasks tasks (-1) ↔ t ∈ tasks.rows ∧ t.unfinished = true := by
  rw [getAllUnFinishSyncTasks, limitRows, if_pos (by omega), mem_insertionSort, mem_filter]

theorem mem_getTimedOutUnfinishedTasks_unlimited :
    t ∈ getTimedOutUnfinishedTasks tasks cutoffUnix (-1) ↔
      t ∈ tasks.rows ∧ t.unfinished = true ∧ t.submitTime < cutoffUnix := by
  rw [getTimedOutUnfinishedTasks, limitRows, if_pos (by omega), mem_insertionSort,
    mem_filter, Bool.and_eq_true, decide_eq_true_eq]

end Queries

/-- Write all columns of `t` if the stored status is still `fromStatus`; the answer
says whether a row was written. -/
def updateWithStatus (t : TaskRow) (fromStatus : TaskStatus) : Tasks × Bool :=
  match tasks.find? t.id with
  | none => (tasks, false)
  | some row => if row.status = fromStatus then (tasks.save t, true) else (tasks, false)

theorem updateWithStatus_cases (t : TaskRow) (fromStatus : TaskStatus) :
    (updateWithStatus tasks t fromStatus = (tasks, false) ∧
      ∀ row, tasks.find? t.id = some row → row.status ≠ fromStatus) ∨
    (updateWithStatus tasks t fromStatus = (tasks.save t, true) ∧
      ∃ row, tasks.find? t.id = some row ∧ row.status = fromStatus) := by
  unfold updateWithStatus
  rcases tasks.find? t.id with _ | row
  · simp
  · by_cases h : row.status = fromStatus
    · simp [h]
    · simp [h]

/-- `UPDATE … SET status = 'FAILURE', progress = '100%' WHERE id IN ids`, with a
reason if the caller gives one. -/
def taskBulkUpdateByID (ids : List Int) (failReason : Option String) : Tasks :=
  tasks.update (fun t => decide (t.id ∈ ids))
    (fun t => { t with
      status := .failure
      progress := "100%"
      failReason := failReason.getD t.failReason }) fun _ _ => rfl

/-- `UPDATE … SET quota = quota WHERE id = id`. -/
def updateQuota (id quota : Int) : Tasks :=
  tasks.update (fun t => t.id = id) (fun t => { t with quota }) fun _ _ => rfl

section Writes

variable {tasks : Tasks} {ids : List Int} {failReason : Option String} {quota : Int}

/-- A row after a bulk update is an old one, or an old one that has failed. -/
theorem mem_taskBulkUpdateByID (h : t ∈ (taskBulkUpdateByID tasks ids failReason).rows) :
    t ∈ tasks.rows ∨ ∃ row ∈ tasks.rows, t = { row with
      status := .failure
      progress := "100%"
      failReason := failReason.getD row.failReason } := by
  obtain ⟨row, hrow, rfl⟩ := Table.mem_update.mp h
  split_ifs
  · exact .inr ⟨row, hrow, rfl⟩
  · exact .inl hrow

/-- The status of a row after a bulk update. -/
theorem status_taskBulkUpdateByID (id : Int) :
    ((taskBulkUpdateByID tasks ids failReason).find? id).map TaskRow.status =
      if id ∈ ids then ((tasks.find? id).map TaskRow.status).map fun _ => .failure
      else (tasks.find? id).map TaskRow.status := by
  rw [taskBulkUpdateByID, Table.find?_update]
  rcases hrow : tasks.find? id with _ | row
  · simp
  · by_cases hid : id ∈ ids
    · simp [Table.key_of_find? hrow, hid]
    · simp [Table.key_of_find? hrow, hid]

/-- A row after a write of a quota is an old one, or one with the new quota. -/
theorem mem_updateQuota {id : Int} (h : t ∈ (updateQuota tasks id quota).rows) :
    t ∈ tasks.rows ∨ ∃ row ∈ tasks.rows, row.id = id ∧ t = { row with quota } := by
  obtain ⟨row, hrow, rfl⟩ := Table.mem_update.mp h
  split_ifs with hid
  · exact .inr ⟨row, hrow, of_decide_eq_true hid, rfl⟩
  · exact .inl hrow

theorem status_updateQuota (id k : Int) :
    ((updateQuota tasks id quota).find? k).map TaskRow.status =
      (tasks.find? k).map TaskRow.status := by
  rw [updateQuota, Table.find?_update, Option.map_map]
  congr 1
  funext row
  by_cases hid : row.id = id
  · simp [hid]
  · simp [hid]

end Writes

/-! ### Billing -/

def taskIsSubscription (task : TaskRow) : Bool :=
  task.billingSource = some .subscription && decide (0 < task.subscriptionId)

/-- A positive `delta` is charged, a negative one is given back. -/
def taskAdjustFunding (σ : Store) (task : TaskRow) (delta : Int) : Tx Store Unit :=
  if taskIsSubscription task then
    postConsumeUserSubscriptionDelta σ task.subscriptionId delta
      (.adjusted task.subscriptionId task.taskId delta)
  else
    match (if 0 < delta then decreaseUserQuota σ.users task.userId delta
      else increaseUserQuota σ.users task.userId (wrap64 (-delta))) with
    | .error e => .rollback e
    | .ok users => .commit () { σ with users }

/-- The key of the token, empty if the token is gone. -/
def resolveTokenKey (σ : Store) (tokenId : Int) : String :=
  ((σ.tokens.find? tokenId).map Token.key).getD ""

/-- Errors are only logged. -/
def taskAdjustTokenQuota (σ : Store) (task : TaskRow) (delta now : Int) : Store :=
  if task.tokenId ≤ 0 ∨ delta = 0 then σ
  else if resolveTokenKey σ task.tokenId = "" then σ
  else
    match (if 0 < delta then decreaseTokenQuota σ.tokens task.tokenId delta now
      else increaseTokenQuota σ.tokens task.tokenId (wrap64 (-delta)) now) with
    | .error _ => σ
    | .ok tokens => { σ with tokens }

/-- What was charged for a task: a subscription, or the wallet of a user. -/
inductive TaskFunding
  | wallet (userId : Int)
  | subscription (subscriptionId : Int)
deriving DecidableEq

def TaskRow.funding (t : TaskRow) : TaskFunding :=
  if taskIsSubscription t then .subscription t.subscriptionId else .wallet t.userId
