/-
One update of one task: by the timeout sweep, by the items of a Suno reply, and by
a reply of a video upstream.

Each update works on the copy of the row that its poller loaded.  It changes the
copy, writes it back under the guard of the status the copy had, and may leave
billing to do.

* `sweepTimedOutTask`, `updateSunoTask`, `updateVideoSingleTask` — the three updates;
* `updateSunoTasks` — the items of a reply about a task, one after the other on one copy;
* `leaves_polling_set_iff` — a row that a reply takes out of the polling set is over,
  unless a video upstream reports the progress of a finished task with the status of a
  running one, or a Suno reply reopens a copy whose progress is that of a finished task;
* `video_left_behind` — such a reply of a video upstream.
-/
import AcuGateway.Task

open TaskStatus

/-! ### Billing left to do -/

/-- The next statement of a refund or of a settlement of `task`. -/
inductive TaskBilling
  | refund (task : TaskRow)
  | refundToken (task : TaskRow)
  | clearQuota (task : TaskRow)
  | settle (task : TaskRow) (actualQuota : Int)
  | settleToken (task : TaskRow) (actualQuota : Int)
  | writeQuota (task : TaskRow) (actualQuota : Int)

variable (task : TaskRow)

/-- `RefundTaskQuota`, up to its first statement. -/
def refundTaskQuota : Option TaskBilling := if task.quota = 0 then none else some (.refund task)

/-- `RecalculateTaskQuota`, up to its first statement. -/
def recalculateTaskQuota (actualQuota : Int) : Option TaskBilling :=
  if actualQuota ≤ 0 then none
  else if wrap64 (actualQuota - task.quota) = 0 then none
  else some (.settle task actualQuota)

/-- The task table and the copy after an update, and the billing it leaves. -/
structure TaskUpdated where
  tasks : Tasks
  copy : TaskRow
  billing : Option TaskBilling

/-! ### The timeout sweep -/

/-- What the sweep makes of a copy; a task of the old system loses its quota. -/
def timedOut (timeoutMinutes now : Int) : TaskRow :=
  if task.isLegacy then
    { task with
      status := .failure
      progress := "100%"
      finishTime := now
      failReason := "任务超时（旧系统遗留任务，不进行退款，请联系管理员）"
      quota := 0 }
  else
    { task with
      status := .failure
      progress := "100%"
      finishTime := now
      failReason := "任务超时（" ++ toString timeoutMinutes ++ "分钟）" }

def sweepTimedOutTask (tasks : Tasks) (task : TaskRow) (timeoutMinutes now : Int) : TaskUpdated :=
  let task' := timedOut task timeoutMinutes now
  let written := updateWithStatus tasks task' task.status
  { tasks := written.1
    copy := task'
    billing := if written.2 && !task.isLegacy && task'.quota ≠ 0 then refundTaskQuota task'
      else none }

/-! ### Suno -/

/-- What a Suno reply says about one task. -/
structure SunoDataResponse where
  taskID : String
  status : String
  failReason : String
  submitTime : Int
  startTime : Int
  finishTime : Int
  data : String
deriving DecidableEq

/-- The bytes of a marshalled value, sorted. -/
def sortedBytes (data : String) : List UInt8 := data.toUTF8.toList.insertionSort (· ≤ ·)

/-- The data of a row and of an item are given as they are marshalled. -/
def taskNeedsUpdate (oldTask : TaskRow) (newTask : SunoDataResponse) : Bool :=
  oldTask.submitTime ≠ newTask.submitTime ||
  oldTask.startTime ≠ newTask.startTime ||
  oldTask.finishTime ≠ newTask.finishTime ||
  oldTask.status.text ≠ newTask.status ||
  oldTask.failReason ≠ newTask.failReason ||
  (oldTask.status.terminal && oldTask.progress ≠ "100%") ||
  sortedBytes oldTask.data ≠ sortedBytes newTask.data

variable (item : SunoDataResponse)

/-- The status an item reports; an empty one keeps the status of the copy. -/
def sunoStatus : TaskStatus := if item.status ≠ "" then .ofText item.status else task.status

def sunoIsFailure : Bool := item.failReason ≠ "" || sunoStatus task item = .failure

/-- What an item makes of a copy. -/
def applySunoItem : TaskRow :=
  { task with
    status := if sunoIsFailure task item then .failure else sunoStatus task item
    failReason := if item.failReason ≠ "" then item.failReason else task.failReason
    submitTime := if item.submitTime ≠ 0 then item.submitTime else task.submitTime
    startTime := if item.startTime ≠ 0 then item.startTime else task.startTime
    finishTime := if item.finishTime ≠ 0 then item.finishTime else task.finishTime
    progress := if sunoIsFailure task item || item.status = "SUCCESS" then "100%" else task.progress
    data := item.data }

/-- The update of a task by one item of a reply. -/
def updateSunoTask (tasks : Tasks) (task : TaskRow) (item : SunoDataResponse) : TaskUpdated :=
  if taskNeedsUpdate task item then
    let task' := applySunoItem task item
    let written := updateWithStatus tasks task' task.status
    { tasks := written.1
      copy := task'
      billing :=
        if written.2 && sunoIsFailure task item && task.status ≠ .failure && task'.quota ≠ 0 then
          refundTaskQuota task'
        else none }
  else { tasks, copy := task, billing := none }

/-- The task table and the copy a reply works on. -/
structure SunoState where
  tasks : Tasks
  copy : TaskRow

/-- The update by one item, with the refund it may leave; `e.2` says whether the funding
takes the refund back, after which the quota of the row and of the copy is cleared. -/
def sunoStep (s : SunoState) (e : SunoDataResponse × Bool) : SunoState :=
  let u := updateSunoTask s.tasks s.copy e.1
  if u.billing.isSome && e.2 then
    { tasks := updateQuota u.tasks u.copy.id 0, copy := { u.copy with quota := 0 } }
  else { tasks := u.tasks, copy := u.copy }

/-- The items of one reply that are about one task. -/
def updateSunoTasks (s : SunoState) (items : List (SunoDataResponse × Bool)) : SunoState :=
  items.foldl sunoStep s

/-! ### Video -/

/-- The result of a poll, read off the body of the reply. -/
structure TaskInfo where
  status : String
  url : String := ""
  progress : String := ""
  reason : String := ""
  totalTokens : Int := 0

def failTaskInfo (reason : String) : TaskInfo := { status := "FAILURE", reason }

/-- How a body reads as an error response; a code is kept if it is a text. -/
inductive ErrorBody
  | unreadable
  | openAIError (code : Option String)
  | unrecognized

/-- A reply of a video upstream.  `result` is empty if the request failed or its
body cannot be parsed; the last two fields are the quota of the adaptor for a
finished task and the one that follows from its tokens. -/
structure VideoReply where
  body : String
  result : Option TaskInfo
  error : ErrorBody := .unreadable
  adaptorQuota : Int := 0
  tokenQuota : Option Int := none

variable (info : TaskInfo)

/-- A result without a status is read as an error; `none` leaves the task alone. -/
def resolveEmptyStatus (error : ErrorBody) : Option TaskInfo :=
  if info.status ≠ "" then some info
  else
    match error with
    | .unreadable => some info
    | .openAIError code =>
      if code = some "429" then none else some (failTaskInfo "upstream returned error")
    | .unrecognized => some (failTaskInfo "upstream returned unrecognized message")

def buildProxyURL (serverAddress taskId : String) : String :=
  serverAddress ++ "/v1/videos/" ++ taskId ++ "/content"

variable (serverAddress : String)

/-- A `data:` URI stays in the data of the row. -/
def videoResultURL (task : TaskRow) (info : TaskInfo) : String :=
  if info.url.startsWith "data:" then buildProxyURL serverAddress task.taskId
  else if info.url ≠ "" then info.url
  else buildProxyURL serverAddress task.taskId

/-- The switch on the reported status; `none` is an unknown one. -/
def applyVideoStatus (task : TaskRow) (info : TaskInfo) (now : Int) : Option TaskRow :=
  match ofText info.status with
  | .submitted => some { task with status := .submitted, progress := "10%" }
  | .queued => some { task with status := .queued, progress := "20%" }
  | .inProgress =>
    some { task with
      status := .inProgress
      progress := "30%"
      startTime := if task.startTime = 0 then now else task.startTime }
  | .success =>
    some { task with
      status := .success
      progress := "100%"
      finishTime := if task.finishTime = 0 then now else task.finishTime
      resultURL := videoResultURL serverAddress task info }
  | .failure =>
    some { task with
      status := .failure
      progress := "100%"
      finishTime := if task.finishTime = 0 then now else task.finishTime
      failReason := info.reason }
  | .notStart | .unknown | .other _ _ => none

/-- The progress an upstream reports stands over the one of the switch, unless the
task failed. -/
def reportedProgress : TaskRow :=
  if task.status = .failure then task
  else if info.progress ≠ "" then { task with progress := info.progress } else task

/-- Whether two versions of a copy have the same snapshot. -/
def sameSnapshot (a b : TaskRow) : Bool :=
  a.status = b.status && a.progress = b.progress && a.startTime = b.startTime &&
  a.finishTime = b.finishTime && a.failReason = b.failReason && a.resultURL = b.resultURL &&
  a.data = b.data

def settleTaskBillingOnComplete (reply : VideoReply) : Option TaskBilling :=
  if task.perCallBilling then none
  else if 0 < reply.adaptorQuota then recalculateTaskQuota task reply.adaptorQuota
  else if 0 < info.totalTokens then reply.tokenQuota.bind (recalculateTaskQuota task)
  else none

/-- `shouldSettle` and `shouldRefund`. -/
def videoBilling (reply : VideoReply) : Option TaskBilling :=
  match task.status with
  | .success => settleTaskBillingOnComplete task info reply
  | .failure => refundTaskQuota task
  | _ => none

/-- The write and the billing of a copy that a reply has moved from `task` to
`task'`. -/
def persistVideo (tasks : Tasks) (task task' : TaskRow) (info : TaskInfo) (reply : VideoReply) :
    TaskUpdated :=
  if task'.status.terminal ∧ task.status ≠ task'.status then
    let written := updateWithStatus tasks task' task.status
    { tasks := written.1
      copy := task'
      billing := if written.2 then videoBilling task' info reply else none }
  else
    { tasks := if sameSnapshot task task' then tasks
      else (updateWithStatus tasks task' task.status).1
      copy := task'
      billing := videoBilling task' info reply }

def updateVideoSingleTask (tasks : Tasks) (task : TaskRow)
    (reply : VideoReply) (now : Int) : TaskUpdated :=
  match reply.result with
  | none => { tasks, copy := task, billing := none }
  | some info =>
    let task₁ := { task with data := reply.body }
    match resolveEmptyStatus info reply.error with
    | none => { tasks, copy := task₁, billing := none }
    | some info =>
      match applyVideoStatus serverAddress task₁ info now with
      -- the copy keeps the unknown status, which is not written
      | none =>
        { tasks, copy := { task₁ with status := .ofText info.status }, billing := none }
      | some task₂ => persistVideo tasks task (reportedProgress task₂ info) info reply

/-! ### Leaving the polling set -/

variable {row : TaskRow} {tasks : Tasks} {now : Int} {serverAddress : String} {info : TaskInfo}
  {error : ErrorBody}

theorem find?_updateWithStatus {t : TaskRow} (s : TaskStatus) (h : tasks.find? t.id = some row) :
    (updateWithStatus tasks t s).1.find? t.id = some (if row.status = s then t else row) := by
  rcases updateWithStatus_cases tasks t s with ⟨hw, hne⟩ | ⟨hw, row', hrow', hs⟩
  · rw [hw, if_neg (hne row h), h]
  · rw [h, Option.some_inj] at hrow'
    rw [hw, if_pos (hrow' ▸ hs), Table.find?_save_self h]

variable {reply : VideoReply}

/-- Whatever is billed, a reply writes the copy if its snapshot has changed. -/
theorem persistVideo_tasks (task' : TaskRow) :
    (persistVideo tasks task task' info reply).tasks =
      if sameSnapshot task task' then tasks else (updateWithStatus tasks task' task.status).1 := by
  unfold persistVideo
  by_cases h : task'.status.terminal ∧ task.status ≠ task'.status
  · rw [if_pos h, if_neg (by simp [sameSnapshot, h.2])]
  · rw [if_neg h]

variable {task' : TaskRow}

theorem find?_persistVideo (info : TaskInfo)
    (reply : VideoReply) (h : tasks.find? task'.id = some row) :
    (persistVideo tasks task task' info reply).tasks.find? task'.id =
      some (if row.status = task.status ∧ sameSnapshot task task' = false then task' else row) := by
  rw [persistVideo_tasks]
  by_cases hs : sameSnapshot task task' = true
  · rw [if_pos hs, h, if_neg (by simp [hs])]
  · rw [if_neg hs, find?_updateWithStatus task.status h]
    simp [hs]

/-- The row is over or in the polling set. -/
def TaskRow.Tracked (row : TaskRow) : Prop := row.unfinished = true ∨ row.status.terminal = true
deriving Decidable

theorem TaskRow.tracked_iff :
    row.Tracked ↔ (row.progress = "100%" → row.status.terminal = true) := by
  unfold Tracked
  rw [unfinished_iff]
  cases row.status.terminal <;> simp

/-- A row that neither query selects is over; so a row is over or within reach of
the timeout sweep. -/
def LeavesWhenOver (tasks : Tasks) (id : Int) : Prop :=
  ∀ row, tasks.find? id = some row → ((∀ limit, row ∉ getAllUnFinishSyncTasks tasks limit) →
      (∀ cutoffUnix limit, row ∉ getTimedOutUnfinishedTasks tasks cutoffUnix limit) →
      row.status = .success ∨ row.status = .failure) ∧
    (row.status.terminal = true ∨
      ∃ cutoffUnix limit, row ∈ getTimedOutUnfinishedTasks tasks cutoffUnix limit)

theorem leavesWhenOver_iff {id : Int} (h : tasks.find? id = some row) :
    LeavesWhenOver tasks id ↔ row.Tracked := by
  constructor
  · intro hl
    -- a row that is neither unfinished nor over is in no query
    by_cases hu : row.unfinished = true
    · exact .inl hu
    · have hover := (hl row h).1 (fun _ hm => hu (mem_getAllUnFinishSyncTasks hm).2)
        fun _ _ hm => hu (mem_getTimedOutUnfinishedTasks hm).2
      exact .inr (terminal_eq_true.mpr hover.symm)
  · intro ht row' h'
    rw [h, Option.some_inj] at h'
    subst h'
    rcases ht with hu | ht
    · have hrow := Table.mem_of_find? h
      refine ⟨fun hall => ?_, .inr ⟨row.submitTime + 1, -1, ?_⟩⟩
      · exact absurd (mem_getAllUnFinishSyncTasks_unlimited.mpr ⟨hrow, hu⟩) (hall (-1))
      · exact mem_getTimedOutUnfinishedTasks_unlimited.mpr ⟨hrow, hu, by omega⟩
    · exact ⟨fun _ _ => (terminal_eq_true.mp ht).symm, .inl ht⟩

/-- The statuses a video upstream reports while it works. -/
def TaskStatus.running : TaskStatus → Bool
  | submitted | queued | inProgress => true
  | _ => false

/-- The upstream is still working and reports the progress of a finished task. -/
def VideoReply.finishedWhileRunning (reply : VideoReply) : Bool :=
  match reply.result with
  | none => false
  | some info => (ofText info.status).running && info.progress = "100%"

variable {task : TaskRow}

/-- The reply says of the copy what it already says. -/
def VideoReply.repeats (reply : VideoReply) (task : TaskRow) (now : Int) : Bool :=
  match reply.result with
  | none => false
  | some info =>
    task.status = ofText info.status && task.progress = info.progress && task.data = reply.body &&
      (task.status ≠ .inProgress || task.startTime ≠ 0 || now = 0)

/-- What an item makes of a copy is tracked, unless the copy has the progress of a
finished task and the item is about a running one. -/
theorem tracked_applySunoItem : (applySunoItem task item).Tracked ↔
    ¬ (task.progress = "100%" ∧ sunoIsFailure task item = false ∧
      sunoStatus task item ≠ .success) := by
  rw [TaskRow.tracked_iff]
  unfold applySunoItem
  by_cases hf : sunoIsFailure task item = true
  · simp [hf]
  · have hne : sunoStatus task item ≠ .failure := by
      simp only [sunoIsFailure, Bool.or_eq_true, decide_eq_true_eq, not_or] at hf
      exact hf.2
    by_cases hs : item.status = "SUCCESS"
    · simp [hf, sunoStatus, hs, ofText]
    · simp [hf, hs, hne]

theorem applyVideoStatus_id (h : applyVideoStatus serverAddress task info now = some task') :
    task'.id = task.id := by
  unfold applyVideoStatus at h
  split at h <;> cases h <;> rfl

theorem reportedProgress_id : (reportedProgress task info).id = task.id := by
  unfold reportedProgress
  split_ifs <;> rfl

/-- What a reply with a known status makes of a copy is tracked, except for the
progress of a finished task. -/
theorem tracked_reportedProgress (h : applyVideoStatus serverAddress task info now = some task') :
    (reportedProgress task' info).Tracked ↔
      ¬ ((ofText info.status).running = true ∧ info.progress = "100%") := by
  rw [TaskRow.tracked_iff]
  unfold applyVideoStatus at h
  unfold reportedProgress
  -- a terminal status is tracked with any progress; otherwise the progress decides
  split at h <;> cases h <;> by_cases hp : info.progress = "" <;>
    simp [running, TaskStatus.terminal, *]

theorem running_of_applyVideoStatus_none (h : applyVideoStatus serverAddress task info now = none) :
    (ofText info.status).running = false := by
  unfold applyVideoStatus at h
  split at h <;> simp_all [running]

/-- An error is read for a result without a status only, as a failed task. -/
theorem resolveEmptyStatus_cases {info' : TaskInfo}
    (h : resolveEmptyStatus info error = some info') :
    info' = info ∨
      (ofText info.status).running = false ∧ (ofText info'.status).running = false := by
  unfold resolveEmptyStatus at h
  -- only an empty status is replaced, by that of a failure
  by_cases he : info.status = ""
  · have hempty : (ofText info.status).running = false := by rw [he]; rfl
    rw [if_neg (not_not.mpr he)] at h
    split at h
    · cases h
      exact .inl rfl
    · split_ifs at h
      cases h
      exact .inr ⟨hempty, rfl⟩
    · cases h
      exact .inr ⟨hempty, rfl⟩
  · rw [if_pos he] at h
    cases h
    exact .inl rfl

theorem resolveEmptyStatus_none (h : resolveEmptyStatus info error = none) : info.status = "" := by
  by_contra he
  unfold resolveEmptyStatus at h
  rw [if_pos he] at h
  cases h

/-- A reply that is not read, or has an unknown status, writes nothing. -/
theorem updateVideoSingleTask_cases :
    ((updateVideoSingleTask serverAddress tasks task reply now).tasks = tasks ∧
      reply.finishedWhileRunning = false) ∨
    ∃ info task', applyVideoStatus serverAddress { task with data := reply.body } info now =
      some task' ∧ updateVideoSingleTask serverAddress tasks task reply now =
        persistVideo tasks task (reportedProgress task' info) info reply ∧
      (reply.finishedWhileRunning = true ↔
        (ofText info.status).running = true ∧ info.progress = "100%") ∧
      ((ofText info.status).running = true → reply.result = some info) := by
  unfold updateVideoSingleTask VideoReply.finishedWhileRunning
  rcases reply.result with _ | info
  · exact .inl ⟨rfl, rfl⟩
  -- an empty status is settled by the error of the reply
  rcases hr : resolveEmptyStatus info reply.error with _ | info'
  · have hempty : (ofText info.status).running = false := by
      rw [resolveEmptyStatus_none hr]; rfl
    exact .inl ⟨by simp only [hr], by simp [hempty]⟩
  · have hcases := resolveEmptyStatus_cases hr
    rcases ha : applyVideoStatus serverAddress { task with data := reply.body } info'
      now with _ | task'
    · refine .inl ⟨by simp only [hr, ha], ?_⟩
      have hrun := running_of_applyVideoStatus_none ha
      rcases hcases with rfl | ⟨hnot, -⟩
      · simp [hrun]
      · simp [hnot]
    · refine .inr ⟨info', task', ha, by simp only [hr, ha], ?_⟩
      rcases hcases with rfl | ⟨hnot, hnot'⟩
      · simp
      · simp [hnot, hnot']

/-- A reply about a running task moves the status, the progress, the data and the start
of the copy. -/
theorem sameSnapshot_running (hrun : (ofText info.status).running = true)
    (hp : info.progress = "100%") (hresult : reply.result = some info)
    (ha : applyVideoStatus serverAddress { task with data := reply.body } info now = some task') :
    sameSnapshot task (reportedProgress task' info) = reply.repeats task now := by
  unfold VideoReply.repeats
  rw [hresult]
  unfold applyVideoStatus at ha
  unfold reportedProgress sameSnapshot
  -- the switch has a case for each running status, and no other case applies
  split at ha <;> cases ha <;> simp_all only [running, Bool.false_eq_true, reduceCtorEq] <;> grind

/-- A video reply keeps the stored row tracked unless it writes the progress of a
finished task. -/
theorem updateVideoSingleTask_tracked (hrow : tasks.find? task.id = some row) (ht : row.Tracked) :
    LeavesWhenOver (updateVideoSingleTask serverAddress tasks task reply now).tasks task.id ↔
      ¬ (reply.finishedWhileRunning = true ∧ row.status = task.status ∧
        reply.repeats task now = false) := by
  rcases updateVideoSingleTask_cases with
    ⟨htasks, hfin⟩ | ⟨info, task', ha, heq, hfin, hresult⟩
  · rw [htasks, leavesWhenOver_iff hrow, hfin]
    simp [ht]
  · have hid : (reportedProgress task' info).id = task.id := by
      rw [reportedProgress_id, applyVideoStatus_id ha]
    have hfind := find?_persistVideo task info reply (hid.symm ▸ hrow)
    rw [hid] at hfind
    rw [heq, leavesWhenOver_iff hfind, hfin]
    -- progress 100% while running takes the row out of the queries
    by_cases hover : (ofText info.status).running = true ∧ info.progress = "100%"
    · have hsnapshot := sameSnapshot_running hover.1 hover.2 (hresult hover.1) ha
      have huntracked : ¬ (reportedProgress task' info).Tracked :=
        fun h => (tracked_reportedProgress ha).mp h hover
      rw [hsnapshot]
      by_cases hwrite : row.status = task.status ∧ reply.repeats task now = false
      · rw [if_pos hwrite]
        simp [huntracked, hover, hwrite]
      · rw [if_neg hwrite]
        simp [ht, hover, hwrite]
    · have htracked := (tracked_reportedProgress ha).mpr hover
      simp only [hover, false_and, not_false_eq_true, iff_true]
      split_ifs
      · exact htracked
      · exact ht

/-! ### The items of a Suno reply -/

namespace SunoState

variable (s : SunoState) (e : SunoDataResponse × Bool)

/-- The item is written over the stored row, and leaves it with the progress of a
finished task and the status of a running one. -/
def Opens (item : SunoDataResponse) : Prop :=
  taskNeedsUpdate s.copy item = true ∧
  (s.tasks.find? s.copy.id).map TaskRow.status = some s.copy.status ∧
  s.copy.progress = "100%" ∧
  sunoIsFailure s.copy item = false ∧
  sunoStatus s.copy item ≠ .success

/-- Some item opens the row again, and every later item is skipped. -/
def LeftOpen (s : SunoState) : List (SunoDataResponse × Bool) → Prop
  | [] => False
  | e :: after =>
    (s.Opens e.1 ∧ ∀ later ∈ after, taskNeedsUpdate (sunoStep s e).copy later.1 = false) ∨
    LeftOpen (sunoStep s e) after

variable {s e}

theorem sunoStep_skipped (h : taskNeedsUpdate s.copy e.1 = false) : sunoStep s e = s := by
  simp [sunoStep, updateSunoTask, h]

/-- An item that is not skipped moves the copy; a refund clears its quota. -/
theorem sunoStep_copy (h : taskNeedsUpdate s.copy e.1 = true) :
    ∃ quota, (sunoStep s e).copy = { applySunoItem s.copy e.1 with quota } := by
  have hcopy : (updateSunoTask s.tasks s.copy e.1).copy = applySunoItem s.copy e.1 := by
    rw [updateSunoTask, if_pos h]
  unfold sunoStep
  by_cases hb : ((updateSunoTask s.tasks s.copy e.1).billing.isSome && e.2) = true
  · exact ⟨0, by simp only [hb, if_true, hcopy]⟩
  · exact ⟨_, by simp only [hb, hcopy]; rfl⟩

/-- The stored row after an item that is not skipped. -/
theorem sunoStep_row (h : taskNeedsUpdate s.copy e.1 = true)
    (hrow : s.tasks.find? s.copy.id = some row) :
    ∃ quota, (sunoStep s e).tasks.find? s.copy.id = some
      { (if row.status = s.copy.status then applySunoItem s.copy e.1 else row) with quota } := by
  have hwritten : (updateSunoTask s.tasks s.copy e.1).tasks.find? s.copy.id =
      some (if row.status = s.copy.status then applySunoItem s.copy e.1 else row) := by
    rw [updateSunoTask, if_pos h]
    exact find?_updateWithStatus (t := applySunoItem s.copy e.1) s.copy.status hrow
  have hid : (updateSunoTask s.tasks s.copy e.1).copy.id = s.copy.id := by
    rw [updateSunoTask, if_pos h]
    rfl
  unfold sunoStep
  by_cases hb : ((updateSunoTask s.tasks s.copy e.1).billing.isSome && e.2) = true
  · refine ⟨0, ?_⟩
    simp only [hb, if_true]
    rw [updateQuota, Table.find?_update, hwritten, Option.map_some,
      if_pos (by rw [hid]; exact decide_eq_true (Table.key_of_find? hwritten))]
  · exact ⟨_, by simp only [hb]; exact hwritten⟩

/-- The row a reply leaves is out of the polling set and not over exactly if it was so
before and every item is skipped, or if some item opens it and stays the last. -/
theorem updateSunoTasks_untracked (s : SunoState) (items : List (SunoDataResponse × Bool))
    (hrow : s.tasks.find? s.copy.id = some row)
    (hopen : ¬ row.Tracked → row.status = s.copy.status) :
    ∃ row', (updateSunoTasks s items).tasks.find? s.copy.id = some row' ∧
      (¬ row'.Tracked ↔
        (¬ row.Tracked ∧ ∀ e ∈ items, taskNeedsUpdate s.copy e.1 = false) ∨ LeftOpen s items) := by
  -- the induction is on the items left; an untracked row has the status of the copy
  induction items generalizing s row with
  | nil => exact ⟨row, hrow, by simp [LeftOpen]⟩
  | cons e after ih =>
    rcases hn : taskNeedsUpdate s.copy e.1 with _ | _
    · -- a skipped item changes nothing
      have hskip := sunoStep_skipped hn
      obtain ⟨row', hrow', htracked⟩ := ih s hrow hopen
      refine ⟨row', by simpa only [updateSunoTasks, List.foldl_cons, hskip] using hrow', ?_⟩
      simp [htracked, LeftOpen, hskip, Opens, hn]
    · obtain ⟨quota, hcopy⟩ := sunoStep_copy hn
      obtain ⟨quota', hnew⟩ := sunoStep_row hn hrow
      have hid : (sunoStep s e).copy.id = s.copy.id := by rw [hcopy]; rfl
      by_cases hs : row.status = s.copy.status
      · -- the item is written: the row is now what the copy is
        rw [if_pos hs] at hnew
        obtain ⟨row', hrow', htracked⟩ := ih (sunoStep s e) (hid ▸ hnew) fun _ => by rw [hcopy]
        refine ⟨row', by rwa [hid] at hrow', ?_⟩
        have hopens : ¬ TaskRow.Tracked { applySunoItem s.copy e.1 with quota := quota' } ↔
            s.Opens e.1 := by
          rw [show TaskRow.Tracked { applySunoItem s.copy e.1 with quota := quota' } ↔
            (applySunoItem s.copy e.1).Tracked from Iff.rfl, tracked_applySunoItem, not_not]
          simp [Opens, hn, hrow, hs]
        rw [htracked, hopens]
        simp [LeftOpen, hn]
      · -- the write is refused: the row stays, and it is tracked
        have ht : row.Tracked := not_not.mp fun h => hs (hopen h)
        rw [if_neg hs] at hnew
        have ht' : TaskRow.Tracked { row with quota := quota' } := ht
        obtain ⟨row', hrow', htracked⟩ := ih (sunoStep s e) (hid ▸ hnew) fun h => absurd ht' h
        refine ⟨row', by rwa [hid] at hrow', ?_⟩
        rw [htracked]
        simp [LeftOpen, hn, ht, ht', Opens, hrow, hs]

end SunoState

/-! ### A reply -/

/-- What a poller learns about a task. -/
inductive PollReply
  | suno (items : List (SunoDataResponse × Bool))
  | video (reply : VideoReply)

/-- The task table after a reply, which is read into the copy `task`. -/
def updateTask (serverAddress : String) (tasks : Tasks) (task : TaskRow) (now : Int) :
    PollReply → Tasks
  | .suno items => (updateSunoTasks ⟨tasks, task⟩ items).tasks
  | .video reply => (updateVideoSingleTask serverAddress tasks task reply now).tasks

/-- The replies that take a task out of the polling set before it is over.  A reply that
repeats what the copy says is not written. -/
def PollReply.LeavesBehind (tasks : Tasks) (task row : TaskRow) (now : Int) : PollReply → Prop
  | .suno items => SunoState.LeftOpen ⟨tasks, task⟩ items
  | .video reply =>
    reply.finishedWhileRunning = true ∧ row.status = task.status ∧ reply.repeats task now = false

/-- A task leaves the polling set only when it is over, unless the reply leaves it
behind. -/
theorem leaves_polling_set_iff (serverAddress : String) (tasks : Tasks) (task row : TaskRow)
    (reply : PollReply) (now : Int) (hrow : tasks.find? task.id = some row) (ht : row.Tracked) :
    LeavesWhenOver (updateTask serverAddress tasks task now reply) task.id ↔
      ¬ reply.LeavesBehind tasks task row now := by
  cases reply with
  | suno items =>
    obtain ⟨row', hrow', htracked⟩ :=
      SunoState.updateSunoTasks_untracked ⟨tasks, task⟩ items hrow fun h => absurd ht h
    rw [updateTask, leavesWhenOver_iff hrow', PollReply.LeavesBehind, ← not_not (a := row'.Tracked),
      htracked]
    simp [ht]
  | video reply => exact updateVideoSingleTask_tracked hrow ht

/-- The only task of a table, half-way done. -/
def renderingTasks : Tasks :=
  (Table.empty : Tasks).insert (fun id =>
    { id
      taskId := "task_1"
      platform := .video "50"
      userId := 1
      channelId := 3
      quota := 500
      status := .inProgress
      submitTime := 1771718500
      startTime := 1771718510
      progress := "50%"
      upstreamTaskId := "video_1" }) fun _ => rfl

theorem leaves_polling_set_rendering : ∃ task, renderingTasks.find? 1 = some task ∧
      LeavesWhenOver (updateTask "" renderingTasks task 1771718600
        (.video { body := "", result := some { status := "IN_PROGRESS", progress := "70%" } }))
        task.id := by
  refine ⟨_, rfl, (leaves_polling_set_iff "" renderingTasks _ _ _ 1771718600 rfl
    (by decide +kernel)).mpr ?_⟩
  rintro ⟨hfin, -⟩
  revert hfin
  decide +kernel

/-- The upstream is still working at 100%: the row leaves the polling set, and neither
a poll nor the sweep will find it again. -/
theorem video_left_behind : ∃ task, renderingTasks.find? 1 = some task ∧ task.unfinished = true ∧
      ¬ LeavesWhenOver (updateTask "" renderingTasks task 1771718600
        (.video { body := "", result := some { status := "IN_PROGRESS", progress := "100%" } }))
        task.id := by
  refine ⟨_, rfl, by decide +kernel, ?_⟩
  rw [leavesWhenOver_iff rfl]
  decide +kernel

-- a Suno reply that names the task twice: over at first, then running again
example : ∃ row, (updateSunoTasks ⟨renderingTasks, (renderingTasks.find? 1).get rfl⟩
      [(⟨"task_1", "SUCCESS", "", 0, 0, 1771718590, "\x7b\x7d"⟩, true),
       (⟨"task_1", "IN_PROGRESS", "", 0, 0, 0, "\x7b\x7d"⟩, true)]).tasks.find? 1 = some row ∧
    ¬ row.Tracked := by
  refine ⟨_, rfl, ?_⟩
  decide +kernel
