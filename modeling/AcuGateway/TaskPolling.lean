/-
Pollers of asynchronous tasks, as a system of interleaved statements.

A pass of `RunTaskPollingOnce` sweeps the tasks that have timed out, loads the
unfinished ones and goes through their platforms: first it fails the tasks
without an upstream id, then it polls Suno channel by channel, or the channels of
a video platform in parallel.  The goroutines of a pass share the copies it
loaded.  Any number of passes run at once; a step is one database statement of
one goroutine, with the computation that leads to it.

* `PollWorld` — the task table, the accounts, the passes and their goroutines, with
  the rows as they were created and the refunds that were made;
* `poll` — the steps;
* `pendingRefund`, `dues` — the refunds of a task, made or about to be made.
-/
import AcuGateway.Lib.Run
import AcuGateway.TaskUpdate

/-! ### The state -/

/-- Where a goroutine stands. -/
inductive PollWork
  /-- in `sweepTimedOutTasks`, with the tasks left -/
  | sweep (todo : List TaskRow) (timeoutMinutes : Int)
  /-- in `RunTaskPollingOnce`, with the platforms left -/
  | platforms (todo : List TaskPlatform)
  /-- in `UpdateSunoTasks`, with the channels left -/
  | sunoChannels (todo : List Int) (rest : List TaskPlatform)
  /-- in `updateSunoTasks`, with the items left -/
  | sunoItems (items : List SunoDataResponse) (todo : List Int) (rest : List TaskPlatform)
  /-- at the start of `updateVideoTasks` -/
  | videoChannel (platform : TaskPlatform) (channelId : Int)
  /-- in `updateVideoTasks`, with the upstream ids left -/
  | videoTasks (platform : TaskPlatform) (ids : List String)
  | done
deriving DecidableEq

/-- A goroutine; `pass` is the number of the memory it works on, once its pass has
loaded the unfinished tasks. -/
structure PollThread where
  pass : Option Nat := none
  work : PollWork
  billing : Option TaskBilling := none

/-- The quota of a failed task, given back. -/
structure TaskRefund where
  taskId : Int
  funding : TaskFunding
  amount : Int
deriving DecidableEq

/-- The database, the running passes, and two histories that no step reads. -/
structure PollWorld where
  tasks : Tasks
  store : Store
  passes : List (List TaskRow)
  threads : List PollThread
  created : Tasks
  refunds : List TaskRefund

def PollWorld.init (store : Store) : PollWorld where
  tasks := .empty
  store := store
  passes := []
  threads := []
  created := .empty
  refunds := []

/-! ### The memory of a pass -/

/-- The tasks of a platform, by upstream id: the last one wins. -/
def taskM (memory : List TaskRow) (platform : TaskPlatform) (upstreamID : String) :
    Option TaskRow :=
  (memory.filter fun t => t.platform = platform ∧ t.getUpstreamTaskID = upstreamID).getLast?

def nullTaskIds (memory : List TaskRow) (platform : TaskPlatform) : List Int :=
  (memory.filter fun t => t.platform = platform ∧ t.getUpstreamTaskID = "").map TaskRow.id

/-- The tasks of a platform that have an upstream id. -/
def polledTasks (memory : List TaskRow) (platform : TaskPlatform) : List TaskRow :=
  memory.filter fun t => t.platform = platform ∧ t.getUpstreamTaskID ≠ ""

def taskChannels (memory : List TaskRow) (platform : TaskPlatform) : List Int :=
  ((polledTasks memory platform).map TaskRow.channelId).dedup

def taskChannelM (memory : List TaskRow) (platform : TaskPlatform) (channelId : Int) :
    List String :=
  ((polledTasks memory platform).filter fun t => t.channelId = channelId).map
    TaskRow.getUpstreamTaskID

/-- The row ids a bulk update collects for the upstream ids of a channel. -/
def failedIDs (memory : List TaskRow) (platform : TaskPlatform) (upstreamIDs : List String) :
    List Int :=
  upstreamIDs.filterMap fun id => (taskM memory platform id).map TaskRow.id

/-- Change the copies of task `id`. -/
def modifyCopies (memory : List TaskRow) (id : Int) (f : TaskRow → TaskRow) : List TaskRow :=
  memory.map fun t => if t.id = id then f t else t

/-- Change the copies of task `id` in one memory; the sweep works on copies of its
own. -/
def modifyMemory (passes : List (List TaskRow)) (pass : Option Nat) (id : Int)
    (f : TaskRow → TaskRow) : List (List TaskRow) :=
  match pass with
  | none => passes
  | some p => passes.modify p (modifyCopies · id f)

variable (w : PollWorld) (i : Nat) (t : PollThread)

namespace PollWorld

def memory (pass : Option Nat) : List TaskRow := (pass.bind (w.passes[·]?)).getD []

def setThread : PollWorld := { w with threads := w.threads.set i t }

/-- Thread `i` has updated a copy and goes on with `work`. -/
def updated (u : TaskUpdated) (work : PollWork) : PollWorld :=
  { w with
    tasks := u.tasks
    passes := modifyMemory w.passes t.pass u.copy.id fun _ => u.copy
    threads := w.threads.set i { t with work, billing := u.billing } }

/-- `UPDATE` of the quota column, and of the copy. -/
def writeQuota (task : TaskRow) (quota : Int) : PollWorld :=
  { w with
    tasks := updateQuota w.tasks task.id quota
    passes := modifyMemory w.passes t.pass task.id fun c => { c with quota }
    threads := w.threads.set i { t with billing := none } }

/-- Thread `i` has failed the tasks `ids` at once and goes on with `work`. -/
def bulkUpdated (ids : List Int) (failReason : Option String) (work : PollWork) : PollWorld :=
  { w with
    tasks := taskBulkUpdateByID w.tasks ids failReason
    threads := w.threads.set i { t with work } }

/-- Thread `i` has loaded the memory of its pass and goes on with `work`. -/
def loaded (allTasks : List TaskRow) (work : PollWork) : PollWorld :=
  { w with
    passes := w.passes ++ [allTasks]
    threads := w.threads.set i { pass := some w.passes.length, work } }

/-- The other goroutines of the pass are done. -/
def othersDone (pass : Option Nat) : Bool :=
  w.threads.zipIdx.all fun (t, j) => j = i || t.pass ≠ pass || (t.work = .done && t.billing = none)

end PollWorld

/-! ### Steps -/

/-- What `updateSunoTasks` meets on a channel. -/
inductive SunoFetch
  | noChannel
  /-- the adaptor, the request or its reply is of no use -/
  | failed
  | items (items : List SunoDataResponse)

/-- The next statement of a goroutine, with what it receives. -/
inductive PollAction
  | sweep (now : Int)
  | load (limit : Int)
  | platform (platform : TaskPlatform)
  | sunoChannel (channelId : Int) (fetch : SunoFetch)
  | sunoItem
  | videoChannel (found : Bool)
  | videoTask (serverAddress : String) (reply : VideoReply) (now : Int)
  /-- the context of the pass is cancelled -/
  | stop

inductive PollLabel
  /-- a task is submitted -/
  | create (row : TaskRow)
  /-- other requests move the accounts -/
  | traffic (store : Store)
  /-- a pass begins; without a timeout it does not sweep -/
  | start (timeoutMinutes now : Int)
  | bill (i : Nat) (now : Int)
  | act (i : Nat) (action : PollAction)

/-- The row of a submitted task. -/
def initTask (row : TaskRow) (id : Int) : TaskRow :=
  { row with id, status := .notStart, progress := "0%" }

theorem initTask_id (row : TaskRow) (id : Int) : (initTask row id).id = id := rfl

def PollWorld.submitted (row : TaskRow) : PollWorld :=
  { w with
    tasks := w.tasks.insert (initTask row) (initTask_id row)
    created := w.created.insert (initTask row) (initTask_id row) }

/-- The refund that `RefundTaskQuota` asks for. -/
def refundOf (task : TaskRow) : TaskRefund where
  taskId := task.id
  funding := task.funding
  amount := -(wrap64 (-task.quota))

namespace PollWorld

/-- The next statement of a refund or a settlement. -/
def bill (now : Int) : TaskBilling → PollWorld
  | .refund task =>
    match taskAdjustFunding w.store task (wrap64 (-task.quota)) with
    | .commit _ store =>
      { w with
        store
        refunds := refundOf task :: w.refunds
        threads := w.threads.set i { t with billing := some (.refundToken task) } }
    | _ => w.setThread i { t with billing := none }
  | .refundToken task =>
    { w with
      store := taskAdjustTokenQuota w.store task (wrap64 (-task.quota)) now
      threads := w.threads.set i { t with billing := some (.clearQuota task) } }
  | .clearQuota task => w.writeQuota i t task 0
  | .settle task actualQuota =>
    match taskAdjustFunding w.store task (wrap64 (actualQuota - task.quota)) with
    | .commit _ store =>
      { w with
        store
        threads := w.threads.set i { t with billing := some (.settleToken task actualQuota) } }
    | _ => w.setThread i { t with billing := none }
  | .settleToken task actualQuota =>
    { w with
      store := taskAdjustTokenQuota w.store task (wrap64 (actualQuota - task.quota)) now
      threads := w.threads.set i { t with billing := some (.writeQuota task actualQuota) } }
  | .writeQuota task actualQuota => w.writeQuota i t task actualQuota

/-- The dispatch of a platform: its tasks without an upstream id are failed, then
the goroutine turns to the channels of Suno or starts one goroutine for each channel
of a video platform. -/
def platform (w : PollWorld) (i : Nat) (t : PollThread) (platform : TaskPlatform)
    (rest : List TaskPlatform) : PollWorld :=
  let memory := w.memory t.pass
  let channels := taskChannels memory platform
  let ids := nullTaskIds memory platform
  match platform with
  | .midjourney => w.bulkUpdated i t ids none (.platforms rest)
  | .suno => w.bulkUpdated i t ids none (.sunoChannels channels rest)
  | .video _ =>
    let w' := w.bulkUpdated i t ids none (.platforms rest)
    { w' with
      threads := w'.threads ++
        channels.map fun channelId => { pass := t.pass, work := .videoChannel platform channelId } }

def sunoChannel (channelId : Int) (todo : List Int) (rest : List TaskPlatform) :
    SunoFetch → PollWorld
  | .noChannel =>
    let memory := w.memory t.pass
    w.bulkUpdated i t (failedIDs memory .suno (taskChannelM memory .suno channelId))
      (some ("获取渠道信息失败，请联系管理员，渠道ID：" ++ toString channelId)) (.sunoChannels todo rest)
  | .failed => w.setThread i { t with work := .sunoChannels todo rest }
  | .items items => w.setThread i { t with work := .sunoItems items todo rest }

def videoChannel (platform : TaskPlatform) (channelId : Int) (found : Bool) : PollWorld :=
  let memory := w.memory t.pass
  let ids := taskChannelM memory platform channelId
  if found then w.setThread i { t with work := .videoTasks platform ids }
  else
    w.bulkUpdated i t (failedIDs memory platform ids)
      (some ("Failed to get channel info, channel ID: " ++ toString channelId)) .done

/-- The next statement of thread `i`, if it stands where the action belongs. -/
def threadStep : PollAction → PollWorld
  | .sweep now =>
    match t.work with
    | .sweep (task :: todo) timeoutMinutes =>
      w.updated i t (sweepTimedOutTask w.tasks task timeoutMinutes now) (.sweep todo timeoutMinutes)
    | _ => w
  | .load limit =>
    match t.work with
    | .sweep [] _ =>
      let allTasks := getAllUnFinishSyncTasks w.tasks limit
      w.loaded i allTasks (.platforms (allTasks.map TaskRow.platform).dedup)
    | _ => w
  | .platform platform =>
    match t.work with
    | .platforms todo =>
      if platform ∈ todo ∧ w.othersDone i t.pass then w.platform i t platform (todo.erase platform)
      else w
    | _ => w
  | .sunoChannel channelId fetch =>
    match t.work with
    | .sunoChannels todo rest =>
      if channelId ∈ todo then w.sunoChannel i t channelId (todo.erase channelId) rest fetch
      else if todo = [] then w.setThread i { t with work := .platforms rest }
      else w
    | _ => w
  | .sunoItem =>
    match t.work with
    | .sunoItems [] todo rest => w.setThread i { t with work := .sunoChannels todo rest }
    | .sunoItems (item :: items) todo rest =>
      match taskM (w.memory t.pass) .suno item.taskID with
      | none => w.setThread i { t with work := .sunoItems items todo rest }
      | some task => w.updated i t (updateSunoTask w.tasks task item) (.sunoItems items todo rest)
    | _ => w
  | .videoChannel found =>
    match t.work with
    | .videoChannel platform channelId => w.videoChannel i t platform channelId found
    | _ => w
  | .videoTask serverAddress reply now =>
    match t.work with
    | .videoTasks _ [] => w.setThread i { t with work := .done }
    | .videoTasks platform (id :: ids) =>
      match taskM (w.memory t.pass) platform id with
      | none => w.setThread i { t with work := .videoTasks platform ids }
      | some task =>
        w.updated i t (updateVideoSingleTask serverAddress w.tasks task reply now)
          (.videoTasks platform ids)
    | _ => w
  -- the sweep does not look at the context
  | .stop =>
    match t.work with
    | .sweep _ _ => w
    | _ => w.setThread i { t with work := .done }

end PollWorld

/-- A goroutine that has billing to do does it first. -/
def poll (label : PollLabel) : PollWorld :=
  match label with
  | .create row => if IsInt64 row.quota then w.submitted row else w
  | .traffic store => { w with store }
  | .start timeoutMinutes now =>
    let todo :=
      if timeoutMinutes ≤ 0 then []
      else getTimedOutUnfinishedTasks w.tasks (now - timeoutMinutes * 60) 100
    { w with threads := w.threads ++ [{ work := .sweep todo timeoutMinutes }] }
  | .bill i now =>
    match w.threads[i]? with
    | some t => t.billing.elim w (w.bill i t now)
    | none => w
  | .act i action =>
    match w.threads[i]? with
    | some t => if t.billing = none then w.threadStep i t action else w
    | none => w

/-! ### Refunds -/

/-- The refund that is the next statement. -/
def TaskBilling.refund? : TaskBilling → Option TaskRefund
  | refund task => some (refundOf task)
  | _ => none

/-- The refund a goroutine is about to make. -/
def PollThread.pendingRefund : Option TaskRefund := t.billing.bind TaskBilling.refund?

namespace PollWorld

/-- The refunds of task `id`, made or about to be made. -/
def dues (id : Int) : List TaskRefund :=
  (w.refunds ++ w.threads.filterMap PollThread.pendingRefund).filter fun r => r.taskId = id

end PollWorld
