/-
What an update does to a task that is not over.

An update works on a copy of the row.  If the copy was not over, the update leaves
the table alone, or it writes the copy over a row that still has the status the copy
had, and then the billing that follows is the one of the new status.

* `Advances` — this, with what the copy keeps of the charge;
* `sweepTimedOutTask_advances`, `updateSunoTask_advances`,
  `updateVideoSingleTask_advances` — the three updates advance a copy.
-/
import AcuGateway.TaskUpdate

/-! ### Billing -/

/-- The copy a refund or a settlement works on. -/
def TaskBilling.task : TaskBilling → TaskRow
  | refund task | refundToken task | clearQuota task => task
  | settle task _ | settleToken task _ | writeQuota task _ => task

/-- The billing that belongs to the move of `task` to the copy of `u`. -/
structure TaskUpdated.Bills (u : TaskUpdated) (task : TaskRow) : Prop where
  failed : u.copy.status = .failure → task.isLegacy = false → u.billing = refundTaskQuota u.copy
  success : u.copy.status = .success → ∀ c, u.billing ≠ some (.refund c)
  unfinished : u.copy.status.terminal = false → u.billing = none
  task_eq : ∀ b, u.billing = some b → b.task = u.copy

/-- An update of the unfinished copy `task`. -/
structure Advances (tasks : Tasks) (task : TaskRow) (u : TaskUpdated) : Prop where
  id : u.copy.id = task.id
  funding : u.copy.funding = task.funding
  quota : task.isLegacy = false ∨ u.copy.status.terminal = false → u.copy.quota = task.quota
  recent : u.copy.status.terminal = false → task.isLegacy = false → u.copy.isLegacy = false
  effect : (u.tasks = tasks ∧ u.billing = none) ∨ (u.tasks = tasks.save u.copy ∧
      (∃ row, tasks.find? task.id = some row ∧ row.status = task.status) ∧ u.Bills task)

variable {b : TaskBilling} {info : TaskInfo} {u : TaskUpdated} {tasks : Tasks} {task : TaskRow}

theorem refundTaskQuota_task (h : refundTaskQuota task = some b) : b.task = task := by
  unfold refundTaskQuota at h
  split_ifs at h
  cases h
  rfl

theorem recalculateTaskQuota_eq_some {actualQuota : Int}
    (h : recalculateTaskQuota task actualQuota = some b) : b = .settle task actualQuota := by
  unfold recalculateTaskQuota at h
  split_ifs at h
  cases h
  rfl

variable {reply : VideoReply}

theorem settleTaskBillingOnComplete_eq_some
    (h : settleTaskBillingOnComplete task info reply = some b) :
    ∃ actualQuota, b = .settle task actualQuota := by
  unfold settleTaskBillingOnComplete at h
  split_ifs at h
  · exact ⟨_, recalculateTaskQuota_eq_some h⟩
  · obtain ⟨q, -, h⟩ := Option.bind_eq_some_iff.mp h
    exact ⟨q, recalculateTaskQuota_eq_some h⟩

/-- A guarded write either finds the row moved on, or writes the copy. -/
theorem updateWithStatus_effect (hid : u.copy.id = task.id)
    (htasks : u.tasks = (updateWithStatus tasks u.copy task.status).1)
    (hlost : (updateWithStatus tasks u.copy task.status).2 = false → u.billing = none)
    (hwon : (updateWithStatus tasks u.copy task.status).2 = true → u.Bills task) :
    (u.tasks = tasks ∧ u.billing = none) ∨ (u.tasks = tasks.save u.copy ∧
        (∃ row, tasks.find? task.id = some row ∧ row.status = task.status) ∧ u.Bills task) := by
  rcases updateWithStatus_cases tasks u.copy task.status with ⟨hw, -⟩ | ⟨hw, hrow⟩
  · rw [hw] at htasks hlost
    exact .inl ⟨htasks, hlost rfl⟩
  · rw [hw] at htasks hwon
    exact .inr ⟨htasks, hid ▸ hrow, hwon rfl⟩

theorem sweepTimedOutTask_advances (tasks : Tasks) (task : TaskRow) (timeoutMinutes now : Int) :
    Advances tasks task (sweepTimedOutTask tasks task timeoutMinutes now) := by
  have hstatus : (timedOut task timeoutMinutes now).status = .failure := by
    unfold timedOut; split_ifs <;> rfl
  have hid : (timedOut task timeoutMinutes now).id = task.id := by
    unfold timedOut; split_ifs <;> rfl
  have hquota : task.isLegacy = false → (timedOut task timeoutMinutes now).quota = task.quota := by
    intro h; unfold timedOut; rw [if_neg (by simp [h])]
  refine ⟨hid, ?_, ?_, ?_, updateWithStatus_effect hid rfl ?_ ?_⟩
  · show (timedOut task timeoutMinutes now).funding = _
    unfold timedOut; split_ifs <;> rfl
  · -- a legacy task loses its quota, but it is over
    rintro (h | h)
    · exact hquota h
    · rw [sweepTimedOutTask, hstatus] at h
      cases h
  · intro h
    rw [sweepTimedOutTask, hstatus] at h
    cases h
  · intro hlost
    simp only [sweepTimedOutTask] at hlost ⊢
    rw [hlost]
    rfl
  · intro hwon
    simp only [sweepTimedOutTask] at hwon ⊢
    rw [hwon]
    refine ⟨fun _ hl => ?_, fun h => ?_, fun h => ?_, fun b hb => ?_⟩
    · simp only [hl, refundTaskQuota]
      split_ifs <;> simp_all
    · rw [hstatus] at h; cases h
    · rw [hstatus] at h; cases h
    · dsimp only at hb
      split_ifs at hb
      exact refundTaskQuota_task hb

theorem updateSunoTask_advances {item : SunoDataResponse} (tasks : Tasks)
    (ht : task.status.terminal = false) (hl : isLegacyTime item.submitTime = false) :
    Advances tasks task (updateSunoTask tasks task item) := by
  unfold updateSunoTask
  by_cases hn : taskNeedsUpdate task item = true
  swap
  · rw [if_neg hn]
    exact ⟨rfl, rfl, fun _ => rfl, fun _ h => h, .inl ⟨rfl, rfl⟩⟩
  rw [if_pos hn]
  -- whether the item fails the task is read off its new status
  have hfail : (applySunoItem task item).status = .failure ↔ sunoIsFailure task item = true := by
    unfold applySunoItem
    by_cases hf : sunoIsFailure task item = true
    · simp [hf]
    · simp only [hf, Bool.false_eq_true, if_false, iff_false]
      intro hs
      simp [sunoIsFailure, hs] at hf
  have hne : decide (task.status ≠ .failure) = true :=
    decide_eq_true (TaskStatus.terminal_eq_false.mp ht).1
  refine ⟨rfl, rfl, fun _ => rfl, fun _ h => ?_, updateWithStatus_effect rfl rfl ?_ ?_⟩
  · show isLegacyTime (if item.submitTime ≠ 0 then item.submitTime else task.submitTime) = false
    split_ifs
    · exact hl
    · exact h
  · intro hlost
    simp [hlost]
  · intro hwon
    simp only [hwon, hne, Bool.true_and, Bool.and_true]
    refine ⟨fun hf _ => ?_, fun hs => ?_, fun hu => ?_, fun b hb => ?_⟩
    · simp only [hfail.mp hf, Bool.true_and, refundTaskQuota]
      split_ifs <;> simp_all
    · have hf : sunoIsFailure task item = false := by
        rw [← Bool.not_eq_true, ← hfail, hs]; simp
      simp [hf]
    · have hf : sunoIsFailure task item = false := by
        rw [← Bool.not_eq_true, ← hfail]; exact (TaskStatus.terminal_eq_false.mp hu).1
      simp [hf]
    · dsimp only at hb
      split_ifs at hb
      exact refundTaskQuota_task hb

/-- Two versions of a row that were charged alike. -/
structure SameCharge (a b : TaskRow) : Prop where
  id : b.id = a.id
  funding : b.funding = a.funding
  quota : b.quota = a.quota
  submitTime : b.submitTime = a.submitTime

theorem SameCharge.advances (h : SameCharge task u.copy)
    (heffect : (u.tasks = tasks ∧ u.billing = none) ∨ (u.tasks = tasks.save u.copy ∧
      (∃ row, tasks.find? task.id = some row ∧ row.status = task.status) ∧ u.Bills task)) :
    Advances tasks task u where
  id := h.id
  funding := h.funding
  quota := fun _ => h.quota
  recent := by
    intro _ hl
    rw [TaskRow.isLegacy, h.submitTime]
    exact hl
  effect := heffect

variable {task' : TaskRow}

theorem sameCharge_reportedProgress {serverAddress body : String} {now : Int}
    (h : applyVideoStatus serverAddress { task with data := body } info now = some task') :
    SameCharge task (reportedProgress task' info) := by
  have htask' : SameCharge task task' := by
    unfold applyVideoStatus at h
    split at h <;> cases h <;> exact ⟨rfl, rfl, rfl, rfl⟩
  unfold reportedProgress
  split_ifs
  · exact htask'
  · exact ⟨htask'.id, htask'.funding, htask'.quota, htask'.submitTime⟩
  · exact htask'

theorem videoBilling_bills (tasks : Tasks) (task copy : TaskRow) :
    TaskUpdated.Bills ⟨tasks, copy, videoBilling copy info reply⟩ task := by
  refine ⟨fun h _ => ?_, fun h c hb => ?_, fun h => ?_, fun b hb => ?_⟩
  · simp only at h
    simp only [videoBilling, h]
  · simp only at h
    simp only [videoBilling, h] at hb
    obtain ⟨q, hq⟩ := settleTaskBillingOnComplete_eq_some hb
    cases hq
  · simp only at h
    unfold videoBilling
    split <;> simp_all
  · simp only [videoBilling] at hb
    split at hb
    · obtain ⟨q, rfl⟩ := settleTaskBillingOnComplete_eq_some hb
      rfl
    · exact refundTaskQuota_task hb
    · cases hb

theorem persistVideo_advances (ht : task.status.terminal = false) (h : SameCharge task task') :
    Advances tasks task (persistVideo tasks task task' info reply) := by
  unfold persistVideo
  by_cases hdone : task'.status.terminal = true
  · -- the copy is over and the task was not, so the status has changed
    have hne : task.status ≠ task'.status := by
      intro heq
      rw [heq, hdone] at ht
      cases ht
    rw [if_pos ⟨hdone, hne⟩]
    refine h.advances (updateWithStatus_effect h.id rfl (fun hlost => ?_) fun hwon => ?_)
    · simp [hlost]
    · simp only [hwon, if_true]
      exact videoBilling_bills _ _ _
  · have hnone : videoBilling task' info reply = none :=
      (videoBilling_bills tasks task task').unfinished (Bool.eq_false_iff.mpr hdone)
    rw [if_neg (fun hc => hdone hc.1), hnone]
    refine h.advances ?_
    -- an unchanged task is not written
    by_cases hs : sameSnapshot task task' = true
    · simp [hs]
    · refine updateWithStatus_effect h.id (by simp only [hs]; rfl) (fun _ => rfl) fun _ => ?_
      rw [← hnone]
      exact videoBilling_bills _ _ _

theorem updateVideoSingleTask_advances (serverAddress : String) (tasks : Tasks)
    (reply : VideoReply) (now : Int) (ht : task.status.terminal = false) :
    Advances tasks task (updateVideoSingleTask serverAddress tasks task reply now) := by
  unfold updateVideoSingleTask
  have hkept (c : TaskRow) (h : SameCharge task c) : Advances tasks task ⟨tasks, c, none⟩ :=
    h.advances (.inl ⟨rfl, rfl⟩)
  split
  · exact hkept _ ⟨rfl, rfl, rfl, rfl⟩
  · dsimp only
    split
    · exact hkept _ ⟨rfl, rfl, rfl, rfl⟩
    · split
      · exact hkept _ ⟨rfl, rfl, rfl, rfl⟩
      · rename_i h
        exact persistVideo_advances ht (sameCharge_reportedProgress h)
