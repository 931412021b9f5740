/-
Polled tasks are settled once.

* `Charged`, `Refunded` — the invariant: what a row or a copy says about the charge of
  its task, and one refund, made or about to be made, for every failed task;
* `Store.balance`, `refundMoves` — what a funding source holds, and what the refunds of a
  task have added to it in a run;
* `tasks_settled_once` — in every run in which bulk updates meet only tasks that are
  not to be refunded, no pass polls a copy again that it has finished, no Suno item
  dates a task back before the cutoff, and the funding source of a refund is still there
  and has been charged that much (`Orderly`), the quota of a failed task is added to its
  funding source exactly once, that of a successful one never, and no terminal status is
  overwritten;
* `channel_deleted` — a failed task whose quota is kept.
-/
import AcuGateway.TaskAdvance
import AcuGateway.TaskPolling

open List PollThread Table TaskBilling Run PollWorld

/-! ### The invariant -/

/-- What a row or a copy `c` still says about the task that was created as `r`. -/
structure Carries (r c : TaskRow) : Prop where
  id : c.id = r.id
  funding : c.funding = r.funding
  quota : c.status.terminal = false → c.quota = r.quota
  recent : c.status.terminal = false → r.isLegacy = false → c.isLegacy = false

variable {r task : TaskRow} {w : PollWorld} {u : TaskUpdated}

theorem Advances.carries {tasks : Tasks}
    (ht : task.status.terminal = false) (h : Advances tasks task u) (hc : Carries r task) :
    Carries r u.copy where
  id := h.id.trans hc.id
  funding := h.funding.trans hc.funding
  quota := fun hu => (h.quota (.inr hu)).trans (hc.quota ht)
  recent := fun hu hl => h.recent hu (hc.recent ht hl)

variable {c : TaskRow}

/-- A copy that is over carries nothing but whose task it is. -/
theorem Carries.over {c' : TaskRow} (hc : Carries r c) (hid : c'.id = c.id)
    (hfunding : c'.funding = c.funding) (hover : c'.status.terminal = true) : Carries r c' where
  id := hid.trans hc.id
  funding := hfunding.trans hc.funding
  quota := fun h => by rw [hover] at h; cases h
  recent := fun h => by rw [hover] at h; cases h

variable {id : Int}

namespace PollWorld

/-- The row or copy `c` carries the charge of its task. -/
def Knows (w : PollWorld) (c : TaskRow) : Prop := ∃ r, w.created.find? c.id = some r ∧ Carries r c

/-- The stored status of task `id`. -/
def statusOf (w : PollWorld) (id : Int) : Option TaskStatus := (w.tasks.find? id).map TaskRow.status

/-- The stored task `id` is over. -/
def Over (w : PollWorld) (id : Int) : Prop := ∃ s, w.statusOf id = some s ∧ s.terminal = true

theorem statusOf_eq_some {s : TaskStatus} :
    w.statusOf id = some s ↔ ∃ row, w.tasks.find? id = some row ∧ row.status = s :=
  Option.map_eq_some_iff

end PollWorld

def PollWork.isSweep : PollWork → Bool
  | .sweep .. => true
  | _ => false

/-- The tasks that `t` is going to sweep are as they were loaded. -/
def Sweeps (w : PollWorld) (t : PollThread) : Prop :=
  ∀ todo timeoutMinutes, t.work = .sweep todo timeoutMinutes →
    t.pass = none ∧ ∀ c ∈ todo, c.status.terminal = false ∧ w.Knows c

theorem Sweeps.of_work {t : PollThread} (h : t.work.isSweep = false) : Sweeps w t := by
  intro todo timeoutMinutes hwork
  rw [hwork] at h
  cases h

/-- What holds of a goroutine; a task it bills is over, in the table and in its memory. -/
structure ThreadSound (w : PollWorld) (t : PollThread) : Prop where
  swept : Sweeps w t
  loaded : ∀ p, t.pass = some p → p < w.passes.length
  billed : ∀ b, t.billing = some b → w.Over b.task.id ∧
    ∀ c ∈ w.memory t.pass, c.id = b.task.id → c.status.terminal = true

/-- Every row and every copy carries the charge of its task. -/
structure Charged (w : PollWorld) : Prop where
  created : w.created.seq = w.tasks.seq ∧ ∀ r ∈ w.created.rows, IsInt64 r.quota
  rows : ∀ row ∈ w.tasks.rows, w.Knows row
  memory : ∀ m ∈ w.passes, ∀ c ∈ m, w.Knows c
  threads : ∀ t ∈ w.threads, ThreadSound w t

/-- A failed task has one refund, made or about to be made, and no other task has any. -/
structure Refunded (w : PollWorld) : Prop where
  undue : ∀ id, w.statusOf id ≠ some .failure → w.dues id = []
  due : ∀ r ∈ w.created.rows, 0 < r.quota → r.isLegacy = false →
    w.statusOf r.id = some .failure → w.dues r.id = [refundOf r]

variable {s : PollThread} {w' : PollWorld}

/-- What a goroutine has noted stays true when terminal statuses stay, in the table and
in its memory. -/
theorem ThreadSound.mono (h : ThreadSound w s)
    (hknows : ∀ c, w.Knows c → w'.Knows c) (hpasses : w'.passes.length ≥ w.passes.length)
    (hkept : ∀ id st, w.statusOf id = some st → st.terminal = true → w'.statusOf id = some st)
    (hmem : ∀ c ∈ w'.memory s.pass,
      (∀ c₀ ∈ w.memory s.pass, c₀.id = c.id → c₀.status.terminal = true) →
      c.status.terminal = true) : ThreadSound w' s where
  swept todo n hwork :=
    let ⟨hpass, htodo⟩ := h.swept todo n hwork
    ⟨hpass, fun c hc => ⟨(htodo c hc).1, hknows c (htodo c hc).2⟩⟩
  loaded p hp := lt_of_lt_of_le (h.loaded p hp) hpasses
  billed b hb :=
    let ⟨⟨st, hst, hover⟩, hcopies⟩ := h.billed b hb
    ⟨⟨st, hkept _ st hst hover, hover⟩, fun c hc hid => hmem c hc (hid ▸ hcopies)⟩

/-- The accounts and the other goroutines do not matter to it. -/
theorem ThreadSound.frame (h : ThreadSound w s) (store : Store) (refunds : List TaskRefund)
    (threads : List PollThread) : ThreadSound { w with store, refunds, threads } s :=
  ⟨h.swept, h.loaded, h.billed⟩

/-! ### Memories and refunds after a step -/

variable {pass : Option Nat} {f : TaskRow → TaskRow}

section Memory

variable {passes : List (List TaskRow)}

theorem length_modifyMemory : (modifyMemory passes pass id f).length = passes.length := by
  unfold modifyMemory
  split <;> simp

theorem mem_modifyCopies {m : List TaskRow} :
    c ∈ modifyCopies m id f ↔ (c ∈ m ∧ c.id ≠ id) ∨ ∃ c₀ ∈ m, c₀.id = id ∧ c = f c₀ := by
  unfold modifyCopies
  rw [mem_map]
  constructor
  · rintro ⟨c₀, hc₀, rfl⟩
    by_cases h : c₀.id = id
    · exact .inr ⟨c₀, hc₀, h, if_pos h⟩
    · rw [if_neg h]
      exact .inl ⟨hc₀, h⟩
  · rintro (⟨hc, h⟩ | ⟨c₀, hc₀, h, rfl⟩)
    · exact ⟨c, hc, if_neg h⟩
    · exact ⟨c₀, hc₀, if_pos h⟩

end Memory

variable {i : Nat} {t t' : PollThread} {work : PollWork} {α : Type} {l : List α}

namespace PollWorld

theorem mem_passes_of_memory (h : c ∈ w.memory pass) : ∃ m ∈ w.passes, c ∈ m := by
  unfold memory at h
  rcases hm : pass.bind (w.passes[·]?) with _ | m
  · rw [hm] at h; cases h
  · rw [hm] at h
    obtain ⟨p, -, hp⟩ := Option.bind_eq_some_iff.mp hm
    exact ⟨m, mem_iff_getElem?.mpr ⟨p, hp⟩, h⟩

/-- A copy after a change: it is old, or an image of a copy of task `id`. -/
theorem mem_modifyMemory {m' : List TaskRow} (hm' : m' ∈ modifyMemory w.passes pass id f)
    (hc : c ∈ m') :
    (∃ m ∈ w.passes, c ∈ m) ∨ ∃ c₀ ∈ w.memory pass, c₀.id = id ∧ c = f c₀ := by
  unfold modifyMemory at hm'
  split at hm'
  · exact .inl ⟨m', hm', hc⟩
  · rename_i p
    obtain ⟨j, hj⟩ := mem_iff_getElem?.mp hm'
    rw [getElem?_modify] at hj
    rcases hm : w.passes[j]? with _ | m
    · rw [hm] at hj; cases hj
    have hmem := mem_iff_getElem?.mpr ⟨j, hm⟩
    rw [hm, Option.map_eq_map, Option.map_some, Option.some_inj] at hj
    subst hj
    -- the copies of other passes stay as they are
    by_cases hpj : p = j
    · subst hpj
      rw [if_pos rfl] at hc
      rcases mem_modifyCopies.mp hc with ⟨hc, -⟩ | ⟨c₀, hc₀, h⟩
      · exact .inl ⟨m, hmem, hc⟩
      · refine .inr ⟨c₀, ?_, h⟩
        rw [memory, Option.bind_some, hm]
        exact hc₀
    · rw [if_neg hpj] at hc
      exact .inl ⟨m, hmem, hc⟩

/-- The memory of a goroutine after a change in the memory of another. -/
theorem mem_memory_modify {pass' : Option Nat}
    (hw' : w'.passes = modifyMemory w.passes pass id f) (h : c ∈ w'.memory pass') :
    (c ∈ w.memory pass' ∧ (pass' = pass → c.id ≠ id)) ∨
      (pass' = pass ∧ ∃ c₀ ∈ w.memory pass', c₀.id = id ∧ c = f c₀) := by
  unfold memory at h ⊢
  rw [hw'] at h
  rcases pass' with _ | p'
  · cases h
  rcases pass with _ | p
  · exact .inl ⟨h, nofun⟩
  simp only [modifyMemory, Option.bind_some, getElem?_modify] at h ⊢
  -- only the memory of this pass has changed
  by_cases hp : p = p'
  · subst hp
    rcases hm : w.passes[p]? with _ | m
    · simp [hm] at h
    · simp only [hm, if_pos, Option.map_eq_map, Option.map_some, Option.getD_some] at h ⊢
      rcases mem_modifyCopies.mp h with ⟨hc, hne⟩ | hc
      · exact .inl ⟨hc, fun _ => hne⟩
      · exact .inr ⟨trivial, hc⟩
  · refine .inl ⟨by simpa [hp] using h, fun heq => ?_⟩
    exact absurd (Option.some_inj.mp heq).symm hp

/-- When one entry of a list is replaced, so is what it contributes. -/
theorem filterMap_set_perm {β : Type} (f : α → Option β) {a : α} (a' : α) (h : l[i]? = some a) :
    ((f a).toList ++ (l.set i a').filterMap f).Perm ((f a').toList ++ l.filterMap f) := by
  induction l generalizing i with
  | nil => cases h
  | cons b l ih =>
    -- the element that is replaced moves to the front
    have hcons (x : α) (l : List α) : (x :: l).filterMap f = (f x).toList ++ l.filterMap f := by
      rw [filterMap_cons]
      cases f x <;> rfl
    cases i with
    | zero =>
      rw [getElem?_cons_zero, Option.some_inj] at h
      subst h
      rw [set_cons_zero, hcons, hcons]
      exact perm_append_comm_assoc _ _ _
    | succ i =>
      rw [getElem?_cons_succ] at h
      rw [set_cons_succ, hcons, hcons]
      refine (perm_append_comm_assoc _ _ _).trans ?_
      exact ((ih h).append_left _).trans (perm_append_comm_assoc _ _ _)

/-- The refunds of a task after a step of thread `i` that makes the refunds `made`. -/
theorem dues_set (w' : PollWorld) (made : List TaskRefund) (id : Int)
    (ht : w.threads[i]? = some t) (hthreads : w'.threads = w.threads.set i t')
    (hrefunds : w'.refunds = made ++ w.refunds) :
    (t.pendingRefund.toList.filter (fun r => r.taskId = id) ++ w'.dues id).Perm
      ((made ++ t'.pendingRefund.toList).filter (fun r => r.taskId = id) ++ w.dues id) := by
  unfold dues
  rw [← filter_append, ← filter_append, hthreads, hrefunds]
  refine List.Perm.filter _ ?_
  have hset := filterMap_set_perm pendingRefund t' ht
  -- bring the two contributions of the goroutine side by side
  have hleft := perm_append_comm_assoc t.pendingRefund.toList (made ++ w.refunds)
    ((w.threads.set i t').filterMap pendingRefund)
  have hright :=
    perm_append_comm_assoc w.refunds t'.pendingRefund.toList (w.threads.filterMap pendingRefund)
  refine hleft.trans ((hset.append_left _).trans ?_)
  rw [append_assoc, append_assoc]
  exact hright.append_left made

/-- A goroutine that is not about to refund, before or after its step, leaves the
refunds. -/
theorem dues_set_none (ht : w.threads[i]? = some t) (hthreads : w'.threads = w.threads.set i t')
    (hrefunds : w'.refunds = w.refunds) (hpending : t.pendingRefund = none)
    (hpending' : t'.pendingRefund = none) : (w'.dues id).Perm (w.dues id) := by
  have h := dues_set w' [] id ht hthreads hrefunds
  rw [hpending, hpending'] at h
  exact h

end PollWorld

theorem Charged.knows_memory (hc : Charged w) (h : c ∈ w.memory pass) : w.Knows c := by
  obtain ⟨m, hm, hcm⟩ := mem_passes_of_memory h
  exact hc.memory m hm c hcm

theorem Charged.knows_modify (hc : Charged w)
    (hf : ∀ c ∈ w.memory pass, c.id = id → w.Knows (f c)) :
    ∀ m ∈ modifyMemory w.passes pass id f, ∀ c ∈ m, w.Knows c := by
  intro m hm c hcm
  rcases mem_modifyMemory hm hcm with ⟨m, hm, hcm⟩ | ⟨c₀, hc₀, hid, rfl⟩
  · exact hc.memory m hm c hcm
  · exact hf c₀ hc₀ hid

theorem forall_mem_set {P : α → Prop} {a : α} (h : ∀ x ∈ l, P x) (ha : P a) :
    ∀ x ∈ l.set i a, P x := by
  intro x hx
  rcases mem_or_eq_of_mem_set hx with hx | rfl
  · exact h x hx
  · exact ha

/-! ### Updates -/

/-- Goroutine `i` is `t`, and it has nothing to bill. -/
structure Turn (w : PollWorld) (i : Nat) (t : PollThread) : Prop where
  charged : Charged w
  refunded : Refunded w
  thread : w.threads[i]? = some t
  idle : t.billing = none

variable {b : TaskBilling}

theorem PollThread.pendingRefund_none (hb : t.billing = none) : t.pendingRefund = none := by
  rw [pendingRefund, hb]
  rfl

theorem TaskBilling.refund?_eq_some {e : TaskRefund} (h : b.refund? = some e) :
    b = .refund b.task ∧ e = refundOf b.task := by
  cases b with
  | refund c => exact ⟨rfl, (Option.some_inj.mp h).symm⟩
  | _ => cases h

/-- A written copy that has not failed leaves no refund to do. -/
theorem refund?_of_not_failed (hbills : u.Bills task) (hs : u.copy.status ≠ .failure) :
    u.billing.bind refund? = none := by
  rcases hbind : u.billing.bind refund? with _ | e
  · rfl
  obtain ⟨b, hub, he⟩ := Option.bind_eq_some_iff.mp hbind
  have hb := (refund?_eq_some he).1
  by_cases hover : u.copy.status.terminal = true
  · have hsucc := (TaskStatus.terminal_eq_true.mp hover).resolve_left hs
    exact absurd (hb ▸ hub) (hbills.success hsucc _)
  · rw [hbills.unfinished (Bool.eq_false_iff.mpr hover)] at hub
    cases hub

/-- A written copy that has failed is about to be refunded, if it is to be. -/
theorem refund?_of_failed (hbills : u.Bills task) (hs : u.copy.status = .failure)
    (hl : task.isLegacy = false) (hq : u.copy.quota ≠ 0) :
    u.billing.bind refund? = some (refundOf u.copy) := by
  rw [hbills.failed hs hl, refundTaskQuota, if_neg hq]
  rfl

namespace Turn

variable (h : Turn w i t)
include h

theorem sound : ThreadSound w t := h.charged.threads t (mem_of_getElem? h.thread)

/-- What an update adds to the refunds of a task. -/
theorem dues_updated : ((w.updated i t u work).dues id).Perm
      ((u.billing.bind refund?).toList.filter (fun r => r.taskId = id) ++ w.dues id) := by
  have hdues := dues_set (w.updated i t u work) [] id h.thread rfl rfl
  rw [pendingRefund_none h.idle] at hdues
  exact hdues

variable (hadv : Advances w.tasks task u)
include hadv

/-- An update keeps the row of a task with its refunds, or writes the copy over a row
that has the status the copy had. -/
theorem updated_row (id : Int) :
    ((w.updated i t u work).statusOf id = w.statusOf id ∧
      ((w.updated i t u work).dues id).Perm (w.dues id)) ∨
    (id = task.id ∧ (w.updated i t u work).statusOf id = some u.copy.status ∧
      w.statusOf id = some task.status ∧ u.Bills task) := by
  have hdues : ((w.updated i t u work).dues id).Perm _ := h.dues_updated
  -- a lost update changes neither rows nor dues
  rcases hadv.effect with ⟨htasks, hnone⟩ | ⟨htasks, ⟨row, hrow, hs⟩, hbills⟩
  · rw [hnone] at hdues
    exact .inl ⟨by rw [statusOf, updated, htasks, statusOf], hdues⟩
  by_cases hid : id = task.id
  · have hcopy : u.tasks.find? id = some u.copy := by
      rw [hid, htasks, ← hadv.id, Table.find?_save_self (hadv.id ▸ hrow)]
    refine .inr ⟨hid, ?_, ?_, hbills⟩
    · exact statusOf_eq_some.mpr ⟨u.copy, hcopy, rfl⟩
    · exact statusOf_eq_some.mpr ⟨row, hid ▸ hrow, hs⟩
  · refine .inl ⟨?_, ?_⟩
    · rw [statusOf, updated, htasks, Table.find?_save_ne (hadv.id ▸ hid), statusOf]
    · -- a refund of this task is due for no other one
      rcases hbind : u.billing.bind refund? with _ | e
      · rwa [hbind] at hdues
      · obtain ⟨b, hub, he⟩ := Option.bind_eq_some_iff.mp hbind
        obtain ⟨-, rfl⟩ := refund?_eq_some he
        have hother : (refundOf b.task).taskId ≠ id := by
          rw [refundOf, hbills.task_eq b hub, hadv.id]
          exact Ne.symm hid
        simpa [hbind, hother] using hdues

/-- The goroutine that updates. -/
theorem sound_updated_self (hwork : Sweeps w { t with work }) :
    ThreadSound (w.updated i t u work) { t with work, billing := u.billing } := by
  refine ⟨hwork, fun p hp => lt_of_lt_of_le (h.sound.loaded p hp) length_modifyMemory.ge,
    fun b hb => ?_⟩
  · rcases hadv.effect with ⟨-, hn⟩ | ⟨htasks, ⟨row, hrow, -⟩, hbills⟩
    · exact absurd (hb.symm.trans hn) nofun
    have hover : u.copy.status.terminal = true := by
      by_contra hn
      exact absurd (hb.symm.trans (hbills.unfinished (Bool.eq_false_iff.mpr hn))) nofun
    rw [hbills.task_eq b hb]
    refine ⟨⟨u.copy.status, statusOf_eq_some.mpr ⟨u.copy, ?_, rfl⟩, hover⟩, fun c hc hid => ?_⟩
    · show u.tasks.find? u.copy.id = _
      rw [htasks, Table.find?_save_self (hadv.id ▸ hrow)]
    · rcases mem_memory_modify rfl hc with ⟨-, hne⟩ | ⟨-, c₀, -, -, rfl⟩
      · exact absurd hid (hne rfl)
      · exact hover

variable (hu : task.status.terminal = false)
include hu

/-- An update of an unfinished copy writes over no terminal status. -/
theorem statusOf_updated {s : TaskStatus} (hid : w.statusOf id = some s) (hs : s.terminal = true) :
    (w.updated i t u work).statusOf id = some s := by
  rcases h.updated_row hadv id with ⟨hsame, -⟩ | ⟨-, -, hold, -⟩
  · exact hsame.trans hid
  · rw [hid, Option.some_inj] at hold
    rw [hold, hu] at hs
    cases hs

/-- A goroutine other than the one that updates. -/
theorem sound_updated (hs : ThreadSound w s) (hmem : t.pass ≠ none → task ∈ w.memory t.pass) :
    ThreadSound (w.updated i t u work) s := by
  refine hs.mono (fun _ hk => hk) length_modifyMemory.ge (fun _ _ => h.statusOf_updated hadv hu)
    fun c hc hcopies => ?_
  rcases mem_memory_modify rfl hc with ⟨hc, -⟩ | ⟨hpass, c₀, hc₀, -, rfl⟩
  · exact hcopies c hc rfl
  · -- the copies of a billed task in this memory are over, and the updated one is not
    have hpass' : t.pass ≠ none := by
      intro hn
      rw [hpass, hn] at hc₀
      cases hc₀
    have htask := hcopies task (hpass ▸ hmem hpass') hadv.id.symm
    rw [hu] at htask
    cases htask

theorem charged_updated (hk : w.Knows task) (hmem : t.pass ≠ none → task ∈ w.memory t.pass)
    (hwork : Sweeps w { t with work }) : Charged (w.updated i t u work) := by
  obtain ⟨r, hr, hcar⟩ := hk
  have hc := h.charged
  have hknows : w.Knows u.copy := ⟨r, hadv.id ▸ hr, hadv.carries hu hcar⟩
  refine ⟨?_, ?_, ?_, ?_⟩
  · refine ⟨?_, hc.created.2⟩
    -- a save keeps the number of rows
    rcases hadv.effect with ⟨htasks, -⟩ | ⟨htasks, -⟩
    · exact hc.created.1.trans (congrArg seq htasks).symm
    · exact hc.created.1.trans (congrArg seq htasks).symm
  · intro row hrow
    rcases hadv.effect with ⟨htasks, -⟩ | ⟨htasks, -⟩
    · exact hc.rows row (htasks ▸ hrow)
    · have hrow : row ∈ (w.tasks.save u.copy).rows := htasks ▸ hrow
      rcases Table.mem_save hrow with ⟨hrow, -⟩ | rfl
      · exact hc.rows row hrow
      · exact hknows
  · exact hc.knows_modify fun _ _ _ => hknows
  · exact forall_mem_set (fun s hs => h.sound_updated hadv hu (hc.threads s hs) hmem)
      (h.sound_updated_self hadv hwork)

theorem refunded_updated (hk : w.Knows task) : Refunded (w.updated i t u work) := by
  obtain ⟨r, hr, hcar⟩ := hk
  -- a row that an unfinished copy is written over had no refund
  have hold (hst : w.statusOf task.id = some task.status) : w.dues task.id = [] :=
    h.refunded.undue task.id fun hf => by
      rw [hst, Option.some_inj] at hf
      rw [hf] at hu
      cases hu
  constructor
  · intro id hid
    rcases h.updated_row hadv id with ⟨hsame, hdues⟩ | ⟨rfl, hcopy, hst, hbills⟩
    · rw [h.refunded.undue id (hsame ▸ hid)] at hdues
      exact hdues.eq_nil
    · have hdues : ((w.updated i t u work).dues task.id).Perm _ := h.dues_updated
      have hs : u.copy.status ≠ .failure := fun hs => hid (hs ▸ hcopy)
      rw [refund?_of_not_failed hbills hs, hold hst] at hdues
      exact hdues.eq_nil
  · intro r' hr' hq hl hs
    rcases h.updated_row hadv r'.id with ⟨hsame, hdues⟩ | ⟨hid, hcopy, hst, hbills⟩
    · rw [h.refunded.due r' hr' hq hl (hsame ▸ hs)] at hdues
      exact perm_singleton.mp hdues
    · -- the copy was unfinished, so it still says what was charged
      have heq : r' = r := eq_of_key_eq hr' (mem_of_find? hr) (hid.trans (key_of_find? hr).symm)
      subst heq
      rw [hcopy, Option.some_inj] at hs
      have hlt := hcar.recent hu hl
      have hquota : u.copy.quota = r'.quota := (hadv.quota (.inl hlt)).trans (hcar.quota hu)
      have hrefund : refundOf u.copy = refundOf r' := by
        rw [refundOf, refundOf, hadv.id, hid, hadv.funding, hcar.funding, hquota]
      have hdues : ((w.updated i t u work).dues r'.id).Perm _ := h.dues_updated
      rw [refund?_of_failed hbills hs hlt (by omega), hid, hold (hid ▸ hst), hrefund] at hdues
      rw [hid]
      simpa [refundOf, hid] using hdues

end Turn

/-! ### Billing and bulk updates -/

/-- Statuses, creations and refunds are all that `Refunded` is about. -/
theorem Refunded.of_same (h : Refunded w) (hcreated : w'.created = w.created)
    (hstatus : ∀ id, w'.statusOf id = w.statusOf id)
    (hdues : ∀ id, (w'.dues id).Perm (w.dues id)) : Refunded w' := by
  constructor
  · intro id hid
    have hd := hdues id
    rw [h.undue id (hstatus id ▸ hid)] at hd
    exact hd.eq_nil
  · intro r hr hq hl hs
    have hd := hdues r.id
    rw [h.due r (hcreated ▸ hr) hq hl (hstatus r.id ▸ hs)] at hd
    exact perm_singleton.mp hd

/-- A goroutine that bills nothing before and after its step. -/
theorem Turn.refunded_same (h : Turn w i t) (hcreated : w'.created = w.created)
    (hstatus : ∀ id, w'.statusOf id = w.statusOf id) (hthreads : w'.threads = w.threads.set i t')
    (hrefunds : w'.refunds = w.refunds) (hidle : t'.billing = none) : Refunded w' :=
  h.refunded.of_same hcreated hstatus fun _ =>
    dues_set_none h.thread hthreads hrefunds (pendingRefund_none h.idle) (pendingRefund_none hidle)

/-- A step of one goroutine that touches no row and no copy, and refunds what was due. -/
theorem Charged.threadStep (hc : Charged w) (σ : Store) (made : List TaskRefund)
    (ht : w.threads[i]? = some t) (hsound : ThreadSound w t → ThreadSound w t') :
    Charged { w with store := σ, refunds := made ++ w.refunds, threads := w.threads.set i t' } := by
  exact ⟨hc.created, hc.rows, hc.memory, forall_mem_set (fun s hs => (hc.threads s hs).frame ..)
    ((hsound (hc.threads t (mem_of_getElem? ht))).frame ..)⟩

theorem Refunded.threadStep (h : Refunded w) (σ : Store) (made : List TaskRefund)
    (ht : w.threads[i]? = some t)
    (hmade : made ++ t'.pendingRefund.toList = t.pendingRefund.toList) :
    Refunded
      { w with store := σ, refunds := made ++ w.refunds, threads := w.threads.set i t' } := by
  refine h.of_same rfl (fun _ => rfl) fun id => ?_
  have hd := dues_set
    { w with store := σ, refunds := made ++ w.refunds, threads := w.threads.set i t' } made id
      ht rfl rfl
  rw [hmade] at hd
  exact (perm_append_left_iff _).mp hd

/-- The goroutine goes on with billing the same task, or stops billing. -/
theorem ThreadSound.billing {billing : Option TaskBilling} (h : ThreadSound w t)
    (hb : ∀ b', billing = some b' → ∃ b, t.billing = some b ∧ b'.task = b.task) :
    ThreadSound w { t with billing } := by
  refine ⟨h.swept, h.loaded, fun b' hb' => ?_⟩
  obtain ⟨b, htb, htask⟩ := hb b' hb'
  rw [htask]
  exact h.billed b htb

/-- The goroutine turns to other work. -/
theorem ThreadSound.setWork (h : ThreadSound w t) (hwork : work.isSweep = false) :
    ThreadSound w { t with work } :=
  ⟨.of_work hwork, h.loaded, h.billed⟩

theorem statusOf_writeQuota (i : Nat) (task : TaskRow)
    (quota id : Int) : (w.writeQuota i t task quota).statusOf id = w.statusOf id :=
  status_updateQuota task.id id

/-- A write of the quota column; the row and the copies of the task are over. -/
theorem Charged.writeQuota (hc : Charged w) (ht : w.threads[i]? = some t)
    (hb : t.billing = some b) (quota : Int) : Charged (w.writeQuota i t b.task quota) := by
  have hsound := hc.threads t (mem_of_getElem? ht)
  obtain ⟨⟨st, hst, hover⟩, hcopies⟩ := hsound.billed b hb
  refine ⟨hc.created, ?_, ?_, ?_⟩
  · intro row' hrow'
    rcases mem_updateQuota hrow' with hrow | ⟨row, hrow, hid, rfl⟩
    · exact hc.rows row' hrow
    · have hrowst : row.status = st := by
        rw [← hid, statusOf, find?_eq_some.mpr ⟨hrow, rfl⟩] at hst
        exact Option.some_inj.mp hst
      obtain ⟨r, hr, hcar⟩ := hc.rows row hrow
      exact ⟨r, hr, hcar.over rfl rfl (hrowst ▸ hover)⟩
  · refine hc.knows_modify fun c₀ hc₀ hid => ?_
    obtain ⟨r, hr, hcar⟩ := hc.knows_memory hc₀
    exact ⟨r, hr, hcar.over rfl rfl (hcopies c₀ hc₀ hid)⟩
  · -- the other threads see the same statuses, and copies that differ in the quota only
    have hframe (s : PollThread) (h : ThreadSound w s) :
        ThreadSound (w.writeQuota i t b.task quota) s := by
      refine h.mono (fun _ hk => hk) length_modifyMemory.ge
        (fun _ _ hst _ => (statusOf_writeQuota _ _ _ _).trans hst) fun c hcm hcop => ?_
      rcases mem_memory_modify rfl hcm with ⟨hcm, -⟩ | ⟨-, c₀, hc₀, -, rfl⟩
      · exact hcop c hcm rfl
      · exact hcop c₀ hc₀ rfl
    have hself : ThreadSound w { t with billing := none } := hsound.billing fun _ h => by cases h
    exact forall_mem_set (fun s hs => hframe s (hc.threads s hs)) (hframe _ hself)

theorem Refunded.writeQuota (h : Refunded w) (ht : w.threads[i]? = some t)
    (hpend : t.pendingRefund = none) (task : TaskRow) (quota : Int) :
    Refunded (w.writeQuota i t task quota) :=
  h.of_same rfl (statusOf_writeQuota i task quota) fun _ =>
    dues_set_none ht rfl rfl hpend rfl

/-- The tasks `ids` may be failed without a refund: each has failed already, or is not
over and has no quota to give back. -/
def BulkSafe (tasks : Tasks) (ids : List Int) : Prop :=
  ∀ row ∈ tasks.rows, row.id ∈ ids →
    row.status = .failure ∨ (row.status ≠ .success ∧ ¬ (0 < row.quota ∧ row.isLegacy = false))
deriving Decidable

section Bulk

variable {ids : List Int} {failReason : Option String}

theorem statusOf_bulkUpdated : (w.bulkUpdated i t ids failReason work).statusOf id =
      if id ∈ ids then (w.statusOf id).map fun _ => .failure else w.statusOf id :=
  status_taskBulkUpdateByID id

variable (hsafe : BulkSafe w.tasks ids)

include hsafe

/-- A safe bulk update writes over no terminal status. -/
theorem BulkSafe.statusOf {s : TaskStatus}
    (h : w.statusOf id = some s) (hs : s.terminal = true) :
    (w.bulkUpdated i t ids failReason work).statusOf id = some s := by
  rw [statusOf_bulkUpdated]
  split_ifs with hid
  · obtain ⟨row, hrow, rfl⟩ := statusOf_eq_some.mp h
    rcases hsafe row (mem_of_find? hrow) (key_of_find? hrow ▸ hid) with hf | ⟨hne, -⟩
    · rw [h, Option.map_some, hf]
    · have hf := (TaskStatus.terminal_eq_true.mp hs).resolve_right hne
      rw [h, Option.map_some, hf]
  · exact h

theorem Turn.charged_bulkUpdated (h : Turn w i t) (hwork : work.isSweep = false) :
    Charged (w.bulkUpdated i t ids failReason work) := by
  have hc := h.charged
  have hframe (s : PollThread) (h : ThreadSound w s) :
      ThreadSound (w.bulkUpdated i t ids failReason work) s :=
    h.mono (fun _ hk => hk) le_rfl (fun _ _ => hsafe.statusOf) fun c hc hcopies => hcopies c hc rfl
  refine ⟨hc.created, ?_, hc.memory, ?_⟩
  · intro row' hrow'
    rcases mem_taskBulkUpdateByID hrow' with hrow | ⟨row, hrow, rfl⟩
    · exact hc.rows row' hrow
    · obtain ⟨r, hr, hcar⟩ := hc.rows row hrow
      exact ⟨r, hr, hcar.over rfl rfl rfl⟩
  · exact forall_mem_set (fun s hs => hframe s (hc.threads s hs))
      (hframe _ (h.sound.setWork hwork))

theorem Turn.refunded_bulkUpdated (h : Turn w i t) :
    Refunded (w.bulkUpdated i t ids failReason work) := by
  have hdues (id : Int) : ((w.bulkUpdated i t ids failReason work).dues id).Perm (w.dues id) :=
    dues_set_none h.thread rfl rfl (pendingRefund_none h.idle) (pendingRefund_none h.idle)
  constructor
  · intro id hid
    have hd := hdues id
    rw [h.refunded.undue id] at hd
    · exact hd.eq_nil
    · intro hf
      exact hid (hsafe.statusOf hf rfl)
  · intro r hr hq hl hs
    have hd := hdues r.id
    rw [h.refunded.due r hr hq hl] at hd
    · exact perm_singleton.mp hd
    rw [statusOf_bulkUpdated] at hs
    split_ifs at hs with hid
    · obtain ⟨st, hst, -⟩ := Option.map_eq_some_iff.mp hs
      obtain ⟨row, hrow, rfl⟩ := statusOf_eq_some.mp hst
      have hmem := mem_of_find? hrow
      have hkey := key_of_find? hrow
      rcases hsafe row hmem (hkey ▸ hid) with hf | ⟨hne, hkeep⟩
      · rw [hst, hf]
      -- an unfinished row still says what was charged, and that is to be refunded
      by_cases hf : row.status = .failure
      · rw [hst, hf]
      have hun := TaskStatus.terminal_eq_false.mpr ⟨hf, hne⟩
      obtain ⟨r', hr', hcar⟩ := h.charged.rows row hmem
      have heq : r' = r := eq_of_key_eq (mem_of_find? hr') hr ((key_of_find? hr').trans hkey)
      subst heq
      exact absurd ⟨hcar.quota hun ▸ hq, hcar.recent hun hl⟩ hkeep
    · exact hs

end Bulk

/-! ### New tasks and new goroutines -/

section New

variable {new : List PollThread} {allTasks : List TaskRow}

/-- Goroutines that have nothing to bill may be added. -/
theorem Charged.spawn (hc : Charged w)
    (hnew : ∀ t ∈ new, ThreadSound w t) : Charged { w with threads := w.threads ++ new } :=
  ⟨hc.created, hc.rows, hc.memory, forall_mem_append.mpr
    ⟨fun s hs => (hc.threads s hs).frame .., fun s hs => (hnew s hs).frame ..⟩⟩

theorem Refunded.spawn (h : Refunded w)
    (hnew : ∀ t ∈ new, t.billing = none) : Refunded { w with threads := w.threads ++ new } := by
  refine h.of_same rfl (fun _ => rfl) fun id => ?_
  have hnone : new.filterMap pendingRefund = [] :=
    filterMap_eq_nil_iff.mpr fun t ht => pendingRefund_none (hnew t ht)
  rw [dues, filterMap_append, hnone, append_nil]
  exact .rfl

/-- The memories of the other goroutines are still the same. -/
theorem memory_loaded (h : ∀ p, s.pass = some p → p < w.passes.length) :
    (w.loaded i allTasks work).memory s.pass = w.memory s.pass := by
  unfold memory loaded
  rcases hp : s.pass with _ | p
  · rfl
  · rw [Option.bind_some, Option.bind_some, getElem?_append_left (h p hp)]

theorem Charged.loaded (hc : Charged w) (hall : ∀ c ∈ allTasks, w.Knows c)
    (hwork : work.isSweep = false) :
    Charged (w.loaded i allTasks work) := by
  have hlength : (w.loaded i allTasks work).passes.length = w.passes.length + 1 := by
    simp [PollWorld.loaded]
  refine ⟨hc.created, hc.rows, forall_mem_append.mpr ⟨hc.memory, forall_mem_singleton.mpr hall⟩,
    forall_mem_set (fun s hs => ?_) ⟨.of_work hwork, fun p hp => ?_, fun b hb => by cases hb⟩⟩
  · refine (hc.threads s hs).mono (fun _ hk => hk) (by omega) (fun _ _ h _ => h) ?_
    rw [memory_loaded (hc.threads s hs).loaded]
    exact fun c hcm hcopies => hcopies c hcm rfl
  · cases hp
    omega

variable {row : TaskRow}

theorem find?_created_submitted : (w.submitted row).created.find? id =
      if id = w.created.seq then some (initTask row w.created.seq) else w.created.find? id :=
  Table.find?_insert (initTask_id row) id

theorem knows_submitted (h : w.Knows c) : (w.submitted row).Knows c := by
  obtain ⟨r, hr, hcar⟩ := h
  refine ⟨r, ?_, hcar⟩
  have hne : c.id ≠ w.created.seq := by
    rw [← key_of_find? hr]
    exact (w.created.below r (mem_of_find? hr)).ne
  rw [find?_created_submitted, if_neg hne, hr]

theorem statusOf_submitted :
    (w.submitted row).statusOf id = if id = w.tasks.seq then some .notStart else w.statusOf id := by
  have hfind : (w.submitted row).tasks.find? id = _ := Table.find?_insert (initTask_id row) id
  rw [statusOf, hfind]
  split_ifs <;> rfl

theorem statusOf_submitted_of_some {st : TaskStatus}
    (h : w.statusOf id = some st) : (w.submitted row).statusOf id = some st := by
  rw [statusOf_submitted, if_neg, h]
  rintro rfl
  rw [statusOf, Table.find?_seq] at h
  cases h

theorem Charged.submitted (hc : Charged w) (hq : IsInt64 row.quota) :
    Charged (w.submitted row) := by
  refine ⟨⟨congrArg (· + 1) hc.created.1,
    forall_mem_append.mpr ⟨hc.created.2, forall_mem_singleton.mpr hq⟩⟩,
    forall_mem_append.mpr ⟨fun r hr => knows_submitted (hc.rows r hr),
      forall_mem_singleton.mpr ⟨initTask row w.created.seq, ?_, ?_⟩⟩,
    fun m hm c hcm => knows_submitted (hc.memory m hm c hcm), fun s hs => ?_⟩
  · exact find?_created_submitted.trans (if_pos hc.created.1.symm)
  · rw [hc.created.1]
    exact ⟨rfl, rfl, fun _ => rfl, fun _ h => h⟩
  · exact (hc.threads s hs).mono (fun _ => knows_submitted) le_rfl
      (fun _ _ h _ => statusOf_submitted_of_some h) fun c hcm hcopies => hcopies c hcm rfl

theorem Refunded.submitted (h : Refunded w) (hc : Charged w) (row : TaskRow) :
    Refunded (w.submitted row) := by
  constructor
  · intro id hid
    exact h.undue id fun hf => hid (statusOf_submitted_of_some hf)
  · intro r hr hq hl hs
    rw [statusOf_submitted] at hs
    split_ifs at hs with hid
    · cases hs
    · rcases mem_append.mp hr with hr | hr
      · exact h.due r hr hq hl hs
      · rw [mem_singleton.mp hr] at hid
        exact absurd hc.created.1 hid

end New

/-! ### Runs -/

/-- A step kept the invariant and every terminal status. -/
structure Keeps (w w' : PollWorld) : Prop where
  charged : Charged w'
  refunded : Refunded w'
  terminal : ∀ id s, w.statusOf id = some s → s.terminal = true → w'.statusOf id = some s

/-- What a funding source holds; a subscription counts what is used of it. -/
def Store.balance (σ : Store) : TaskFunding → Int
  | .wallet userId => getUserQuota σ.users userId
  | .subscription id => -(((σ.subs.find? id).map UserSubscription.amountUsed).getD 0)

/-- The user of the wallet is still there, or as much of the subscription is used as is
given back. -/
def takesBack (σ : Store) (task : TaskRow) : Bool :=
  match task.funding with
  | .wallet userId => (σ.users.find? userId).isSome
  | .subscription id =>
    (σ.subs.find? id).any fun sub =>
      (refundOf task).amount ≤ sub.amountUsed ∧ IsInt64 sub.amountUsed

def TaskBilling.refunded? : TaskBilling → Option TaskRow
  | refund task => some task
  | _ => none

variable (memory : List TaskRow)

namespace PollWorld

/-- The item that is next updates its copy only if the copy is not over, and it does not
date the task back before the cutoff. -/
def OrderlyItem : PollWork → Prop
  | .sunoItems (item :: _) _ _ =>
    ∀ task ∈ taskM memory .suno item.taskID, taskNeedsUpdate task item = true →
      task.status.terminal = false ∧ isLegacyTime item.submitTime = false
  | _ => True

variable (w : PollWorld)

/-- The tasks of a missing channel may be failed without a refund. -/
def OrderlyChannel (memory : List TaskRow) : PollWork → Prop
  | .videoChannel platform channelId =>
    BulkSafe w.tasks (failedIDs memory platform (taskChannelM memory platform channelId))
  | _ => True

/-- The copy that is polled next is not over. -/
def OrderlyVideo : PollWork → Prop
  | .videoTasks platform (id :: _) =>
    ∀ task ∈ taskM memory platform id, task.status.terminal = false
  | _ => True

def OrderlyAction (t : PollThread) : PollAction → Prop
  | .platform platform => BulkSafe w.tasks (nullTaskIds (w.memory t.pass) platform)
  | .sunoChannel channelId .noChannel =>
    BulkSafe w.tasks
      (failedIDs (w.memory t.pass) .suno (taskChannelM (w.memory t.pass) .suno channelId))
  | .sunoItem => OrderlyItem (w.memory t.pass) t.work
  | .videoChannel false => w.OrderlyChannel (w.memory t.pass) t.work
  | .videoTask _ _ _ => OrderlyVideo (w.memory t.pass) t.work
  | _ => True

/-- The task whose quota the statement of the step gives back to its funding source. -/
def refunding : PollLabel → Option TaskRow
  | .bill i _ => (w.threads[i]?).bind fun t => t.billing.bind TaskBilling.refunded?
  | _ => none

/-- A bulk update meets only tasks that may be failed without a refund, a copy that is
over is not polled again, no Suno item dates a task back before the cutoff, and a refund
meets a funding source that takes it back. -/
def Orderly : PollLabel → Prop
  | .act i action => ∀ t ∈ w.threads[i]?, w.OrderlyAction t action
  | .bill i now => ∀ task ∈ w.refunding (.bill i now), takesBack w.store task = true
  | _ => True

/-- The statement that gives the quota back succeeds. -/
def RefundSucceeds : Option TaskBilling → Prop
  | some (.refund task) =>
    (taskAdjustFunding w.store task (wrap64 (-task.quota))).committed = true
  | _ => True

/-- The statements of the step succeed; only the one of a refund can fail otherwise. -/
def Succeeds : PollLabel → Prop
  | .bill i _ => ∀ t ∈ w.threads[i]?, w.RefundSucceeds t.billing
  | _ => True

instance : DecidablePred (OrderlyItem memory) :=
  fun _ => by unfold OrderlyItem; split <;> infer_instance

instance (w : PollWorld) : DecidablePred (w.OrderlyChannel memory) := fun _ => by
  unfold OrderlyChannel; split <;> infer_instance

instance : DecidablePred (OrderlyVideo memory) :=
  fun _ => by unfold OrderlyVideo; split <;> infer_instance

instance (w : PollWorld) (t : PollThread) : DecidablePred (w.OrderlyAction t) := fun _ => by
  unfold OrderlyAction; split <;> infer_instance

instance (w : PollWorld) : DecidablePred w.Orderly :=
  fun _ => by unfold Orderly; split <;> infer_instance

instance (w : PollWorld) : DecidablePred w.RefundSucceeds :=
  fun _ => by unfold RefundSucceeds; split <;> infer_instance

instance (w : PollWorld) : DecidablePred w.Succeeds :=
  fun _ => by unfold Succeeds; split <;> infer_instance

end PollWorld

theorem Keeps.refl (hc : Charged w) (hr : Refunded w) : Keeps w w := ⟨hc, hr, fun _ _ h _ => h⟩

theorem mem_of_taskM {memory : List TaskRow} {platform : TaskPlatform} {id : String}
    (h : taskM memory platform id = some task) : task ∈ memory :=
  mem_of_mem_filter (mem_of_getLast? h)

namespace Turn

variable (h : Turn w i t)

include h

theorem refl : Keeps w w := .refl h.charged h.refunded

/-- A change of the work of a goroutine that is not billing. -/
theorem setWork (hwork : work.isSweep = false) : Keeps w (w.setThread i { t with work }) :=
  ⟨h.charged.threadStep w.store [] h.thread fun hs => hs.setWork hwork,
    h.refunded.threadStep w.store [] h.thread rfl, fun _ _ h _ => h⟩

theorem updated (hk : w.Knows task) (hu : task.status.terminal = false)
    (hmem : t.pass ≠ none → task ∈ w.memory t.pass) (hadv : Advances w.tasks task u)
    (hwork : Sweeps w { t with work }) : Keeps w (w.updated i t u work) :=
  ⟨h.charged_updated hadv hu hk hmem hwork, h.refunded_updated hadv hu hk,
    fun _ _ => h.statusOf_updated hadv hu⟩

theorem bulkUpdated {ids : List Int} {failReason : Option String}
    (hsafe : BulkSafe w.tasks ids) (hwork : work.isSweep = false) :
    Keeps w (w.bulkUpdated i t ids failReason work) :=
  ⟨h.charged_bulkUpdated hsafe hwork, h.refunded_bulkUpdated hsafe, fun _ _ => hsafe.statusOf⟩

theorem sweep (now : Int) : Keeps w (w.threadStep i t (.sweep now)) := by
  rw [threadStep]
  split
  · rename_i task todo timeoutMinutes hwork
    obtain ⟨hpass, htodo⟩ := h.sound.swept _ _ hwork
    obtain ⟨⟨hun, hk⟩, hrest⟩ := forall_mem_cons.mp htodo
    refine h.updated hk hun (fun hn => absurd hpass hn)
      (sweepTimedOutTask_advances w.tasks task timeoutMinutes now) fun todo' _ hnext => ?_
    cases hnext
    exact ⟨hpass, hrest⟩
  · exact h.refl

theorem load (limit : Int) : Keeps w (w.threadStep i t (.load limit)) := by
  rw [threadStep]
  split
  · exact ⟨h.charged.loaded (fun c hcm => h.charged.rows c (mem_getAllUnFinishSyncTasks hcm).1) rfl,
      h.refunded_same rfl (fun _ => rfl) rfl rfl rfl, fun _ _ h _ => h⟩
  · exact h.refl

theorem platform {platform : TaskPlatform}
    (hsafe : BulkSafe w.tasks (nullTaskIds (w.memory t.pass) platform)) :
    Keeps w (w.threadStep i t (.platform platform)) := by
  rw [threadStep]
  split
  · split_ifs
    · unfold PollWorld.platform
      split
      · exact h.bulkUpdated hsafe rfl
      · exact h.bulkUpdated hsafe rfl
      · -- the new goroutines work on the memory of this one
        obtain ⟨hc', hr', hkept⟩ := @bulkUpdated w i t (.platforms _) h _ none hsafe rfl
        refine ⟨hc'.spawn fun s hs => ?_, hr'.spawn fun s hs => ?_, hkept⟩
        · obtain ⟨channelId, -, rfl⟩ := mem_map.mp hs
          exact ⟨.of_work rfl, h.sound.loaded, fun b hb => (by cases hb)⟩
        · obtain ⟨channelId, -, rfl⟩ := mem_map.mp hs
          rfl
    · exact h.refl
  · exact h.refl

theorem sunoChannel {channelId : Int} {fetch : SunoFetch}
    (hord : w.OrderlyAction t (.sunoChannel channelId fetch)) :
    Keeps w (w.threadStep i t (.sunoChannel channelId fetch)) := by
  rw [threadStep]
  split
  · split_ifs
    · unfold PollWorld.sunoChannel
      cases fetch with
      | noChannel => exact h.bulkUpdated hord rfl
      | failed => exact h.setWork rfl
      | items items => exact h.setWork rfl
    · exact h.setWork rfl
    · exact h.refl
  · exact h.refl

/-- An item that has nothing new about its copy. -/
theorem unchanged (hmem : task ∈ w.memory t.pass) (hwork : work.isSweep = false) :
    Keeps w (w.updated i t ⟨w.tasks, task, none⟩ work) := by
  refine ⟨⟨h.charged.created, h.charged.rows, h.charged.knows_modify fun _ _ _ =>
    h.charged.knows_memory hmem,
    forall_mem_set (fun s hs => ?_) ⟨.of_work hwork, fun p hp => ?_, fun b hb => (by cases hb)⟩⟩,
      ?_,
    fun _ _ h _ => h⟩
  · refine (h.charged.threads s hs).mono (fun _ hk => hk) length_modifyMemory.ge (fun _ _ h _ => h)
      fun c hcm hcopies => ?_
    rcases mem_memory_modify rfl hcm with ⟨hcm, -⟩ | ⟨hpass, c₀, -, -, rfl⟩
    · exact hcopies c hcm rfl
    · exact hcopies c (hpass ▸ hmem) rfl
  · exact lt_of_lt_of_le (h.sound.loaded p hp) length_modifyMemory.ge
  · exact h.refunded_same rfl (fun _ => rfl) rfl rfl rfl

theorem sunoItem (hord : w.OrderlyAction t .sunoItem) : Keeps w (w.threadStep i t .sunoItem) := by
  rw [threadStep]
  split
  · exact h.setWork rfl
  · rename_i item items todo rest hwork
    split
    · exact h.setWork rfl
    · rename_i task htask
      have hmem := mem_of_taskM htask
      have hord : OrderlyItem (w.memory t.pass) t.work := hord
      rw [hwork] at hord
      -- an item that changes nothing is skipped
      by_cases hn : taskNeedsUpdate task item = true
      · obtain ⟨hun, hl⟩ := hord task htask hn
        exact h.updated (h.charged.knows_memory hmem) hun (fun _ => hmem)
          (updateSunoTask_advances w.tasks hun hl)
          (.of_work rfl)
      · rw [updateSunoTask, if_neg hn]
        exact h.unchanged hmem rfl
  · exact h.refl

theorem videoChannel {found : Bool} (hord : w.OrderlyAction t (.videoChannel found)) :
    Keeps w (w.threadStep i t (.videoChannel found)) := by
  rw [threadStep]
  split
  · rename_i platform channelId hwork
    unfold PollWorld.videoChannel
    cases found with
    | true => exact h.setWork rfl
    | false =>
      have hord : w.OrderlyChannel (w.memory t.pass) t.work := hord
      rw [hwork] at hord
      exact h.bulkUpdated hord rfl
  · exact h.refl

theorem videoTask {serverAddress : String} {reply : VideoReply} {now : Int}
    (hord : w.OrderlyAction t (.videoTask serverAddress reply now)) :
    Keeps w (w.threadStep i t (.videoTask serverAddress reply now)) := by
  rw [threadStep]
  split
  · exact h.setWork rfl
  · rename_i platform id ids hwork
    split
    · exact h.setWork rfl
    · rename_i task htask
      have hmem := mem_of_taskM htask
      have hord : OrderlyVideo (w.memory t.pass) t.work := hord
      rw [hwork] at hord
      have hun := hord task htask
      exact h.updated (h.charged.knows_memory hmem) hun (fun _ => hmem)
        (updateVideoSingleTask_advances serverAddress w.tasks reply now hun) (.of_work rfl)
  · exact h.refl

theorem act {action : PollAction} (hord : w.OrderlyAction t action) :
    Keeps w (w.threadStep i t action) := by
  cases action with
  | sweep now => exact h.sweep now
  | load limit => exact h.load limit
  | platform platform => exact h.platform hord
  | sunoChannel channelId fetch => exact h.sunoChannel hord
  | sunoItem => exact h.sunoItem hord
  | videoChannel found => exact h.videoChannel hord
  | videoTask serverAddress reply now => exact h.videoTask hord
  | stop =>
    rw [threadStep]
    split
    · exact h.refl
    · exact h.setWork rfl

end Turn

/-- A step of the billing that touches the accounts only. -/
theorem Keeps.billing {billing : Option TaskBilling} (hc : Charged w) (hr : Refunded w)
    (ht : w.threads[i]? = some t) (σ : Store)
    (hb : ∀ b', billing = some b' → ∃ b, t.billing = some b ∧ b'.task = b.task)
    (hpend : t.pendingRefund = none)
    (hpend' : ({ t with billing } : PollThread).pendingRefund = none) :
    Keeps w { w with store := σ, threads := w.threads.set i { t with billing } } := by
  refine ⟨hc.threadStep σ [] ht fun h => h.billing hb, hr.threadStep σ [] ht ?_, fun _ _ h _ => h⟩
  rw [hpend, hpend']
  rfl

theorem Charged.bill (hc : Charged w) (hr : Refunded w) (ht : w.threads[i]? = some t)
    (hb : t.billing = some b) (hsucc : w.RefundSucceeds (some b)) (now : Int) :
    Keeps w (w.bill i t now b) := by
  have hpend (h : b.refund? = none) : t.pendingRefund = none := by
    rw [pendingRefund, hb]
    exact h
  unfold PollWorld.bill
  -- only a refund of the funding moves what is due
  cases b with
  | refund task =>
    obtain ⟨_, store, hstore⟩ := Tx.committed_iff.mp hsucc
    dsimp only
    rw [hstore]
    refine ⟨hc.threadStep store [refundOf task] ht fun h => h.billing ?_,
      hr.threadStep store [refundOf task] ht ?_, fun _ _ h _ => h⟩
    · intro b' hb'
      cases hb'
      exact ⟨_, hb, rfl⟩
    · rw [pendingRefund, pendingRefund, hb]
      rfl
  | refundToken task =>
    refine .billing hc hr ht _ (fun b' hb' => ?_) (hpend rfl) rfl
    cases hb'
    exact ⟨_, hb, rfl⟩
  | clearQuota task =>
    exact ⟨hc.writeQuota ht hb 0, hr.writeQuota ht (hpend rfl) task 0,
      fun id _ h _ => (statusOf_writeQuota i task 0 id).trans h⟩
  | settle task actualQuota =>
    dsimp only
    split
    · refine .billing hc hr ht _ (fun b' hb' => ?_) (hpend rfl) rfl
      cases hb'
      exact ⟨_, hb, rfl⟩
    · exact .billing hc hr ht w.store (fun b' hb' => by cases hb') (hpend rfl) rfl
  | settleToken task actualQuota =>
    refine .billing hc hr ht _ (fun b' hb' => ?_) (hpend rfl) rfl
    cases hb'
    exact ⟨_, hb, rfl⟩
  | writeQuota task actualQuota =>
    exact ⟨hc.writeQuota ht hb actualQuota, hr.writeQuota ht (hpend rfl) task actualQuota,
      fun id _ h _ => (statusOf_writeQuota i task actualQuota id).trans h⟩

theorem poll_keeps {label : PollLabel} (hc : Charged w) (hr : Refunded w)
    (hsucc : w.Succeeds label) (hord : w.Orderly label) : Keeps w (poll w label) := by
  cases label with
  | create row =>
    rw [poll]
    split_ifs with hq
    · exact ⟨hc.submitted hq, hr.submitted hc row, fun _ _ h _ => statusOf_submitted_of_some h⟩
    · exact .refl hc hr
  | traffic store =>
    exact ⟨⟨hc.created, hc.rows, hc.memory, fun t ht => (hc.threads t ht).frame ..⟩,
      hr.of_same rfl (fun _ => rfl) fun _ => .rfl, fun _ _ h _ => h⟩
  | start timeoutMinutes now =>
    refine ⟨hc.spawn fun t ht => ?_, hr.spawn fun t ht => ?_, fun _ _ h _ => h⟩
    · rw [mem_singleton.mp ht]
      refine ⟨fun todo n h => ⟨rfl, fun c hcm => ?_⟩, fun p hp => (by cases hp),
        fun b hb => (by cases hb)⟩
      cases h
      -- the sweep has loaded rows that are not over
      split_ifs at hcm
      · cases hcm
      · obtain ⟨hrow, hun⟩ := mem_getTimedOutUnfinishedTasks hcm
        exact ⟨(TaskRow.unfinished_iff.mp hun).2, hc.rows c hrow⟩
    · rw [mem_singleton.mp ht]
  | bill i now =>
    rw [poll]
    rcases ht : w.threads[i]? with _ | t
    · exact .refl hc hr
    · have hsucc := hsucc t ht
      show Keeps w (t.billing.elim w (w.bill i t now))
      rcases hb : t.billing with _ | b
      · exact .refl hc hr
      · rw [hb] at hsucc
        exact hc.bill hr ht hb hsucc now
  | act i action =>
    rw [poll]
    rcases ht : w.threads[i]? with _ | t
    · exact .refl hc hr
    · dsimp only
      split_ifs with hb
      · exact Turn.act ⟨hc, hr, ht, hb⟩ (hord t ht)
      · exact .refl hc hr

/-! ### The accounts -/

/-- What the refunds of task `id` add to the balance of `funding` in a run, refund by
refund. -/
def refundMoves (id : Int) (funding : TaskFunding) : PollWorld → List PollLabel → List Int
  | _, [] => []
  | w, label :: l =>
    (if (w.refunding label).any (·.id = id) then
      [(poll w label).store.balance funding - w.store.balance funding] else []) ++
    refundMoves id funding (poll w label) l

/-- The refunds of task `id` that goroutines are about to make. -/
def PollWorld.pendingRefunds (w : PollWorld) (id : Int) : List TaskRefund :=
  (w.threads.filterMap PollThread.pendingRefund).filter fun r => r.taskId = id

/-- The quota of a failed task is given back once, or is about to be, and that of a
successful task never. -/
def RowSettledOnce (store : Store) (l : List PollLabel) (r : TaskRow) : Prop :=
  (0 < r.quota ∧ taskRefundLegacyCutoff ≤ r.submitTime ∧
      (exec poll (.init store) l).statusOf r.id = some .failure →
    (refundMoves r.id r.funding (.init store) l = [r.quota] ∧
        (exec poll (.init store) l).pendingRefunds r.id = []) ∨
      (refundMoves r.id r.funding (.init store) l = [] ∧
        (exec poll (.init store) l).pendingRefunds r.id = [⟨r.id, r.funding, r.quota⟩])) ∧
  ((exec poll (.init store) l).statusOf r.id = some .success →
    refundMoves r.id r.funding (.init store) l = [] ∧
      (exec poll (.init store) l).pendingRefunds r.id = [])
deriving Decidable

def SettledOnce (store : Store) (l : List PollLabel) : Prop :=
  ∀ r ∈ (exec poll (.init store) l).created.rows, RowSettledOnce store l r
deriving Decidable

section Accounts

variable {σ σ' : Store} {e : Unit}

/-- A refund that is committed, to a funding source that takes it back. -/
theorem balance_refund (hcommit : taskAdjustFunding σ task (wrap64 (-task.quota)) = .commit e σ')
    (htakes : takesBack σ task = true) (hpos : 0 < (refundOf task).amount) :
    σ'.balance task.funding = σ.balance task.funding + (refundOf task).amount := by
  have hamount : (refundOf task).amount = -(wrap64 (-task.quota)) := rfl
  have hword := isInt64_wrap64 (-task.quota)
  unfold taskAdjustFunding at hcommit
  unfold takesBack at htakes
  simp only [hamount] at hpos htakes ⊢
  generalize wrap64 (-task.quota) = delta at *
  by_cases hsub : taskIsSubscription task = true
  · have hfunding : task.funding = .subscription task.subscriptionId := if_pos hsub
    rw [if_pos hsub] at hcommit
    rw [hfunding] at htakes ⊢
    obtain ⟨-, ⟨hzero, -⟩ | ⟨-, sub, sub', hfind, happly, rfl⟩⟩ :=
      postConsumeUserSubscriptionDelta_commit hcommit
    · omega
    · -- the amount is used, so the difference is not clamped at 0
      simp only [hfind, Option.any_some, decide_eq_true_eq] at htakes
      obtain ⟨hused, hlow, hhigh⟩ := htakes
      obtain ⟨-, rfl⟩ := applyDelta_eq happly
      have hsum : wrap64 (sub.amountUsed + delta) = sub.amountUsed + delta :=
        wrap64_eq_self ⟨by omega, by omega⟩
      have hkey := Table.key_of_find? hfind
      have hfind' : (σ.saveSub { sub with amountUsed := max (wrap64 (sub.amountUsed + delta)) 0 }
          [.adjusted task.subscriptionId task.taskId delta]).subs.find? task.subscriptionId =
          some { sub with amountUsed := max (wrap64 (sub.amountUsed + delta)) 0 } := by
        rw [← hkey] at hfind ⊢
        exact Table.find?_save_self hfind
      rw [Store.balance, Store.balance, hfind, hfind', Option.map_some, Option.map_some,
        Option.getD_some, Option.getD_some, hsum]
      dsimp only
      omega
  · have hfunding : task.funding = .wallet task.userId := if_neg hsub
    rw [if_neg hsub, if_neg (by omega)] at hcommit
    rw [hfunding] at htakes ⊢
    obtain ⟨u, hu⟩ := Option.isSome_iff_exists.mp htakes
    unfold increaseUserQuota at hcommit
    split_ifs at hcommit with hneg
    cases hcommit
    have hsum : wrap64 (-delta) = -delta := by
      unfold IsInt64 at hword
      unfold wrap64 at hneg ⊢
      omega
    rw [hsum]
    simp only [Store.balance]
    rw [getUserQuota_addUserQuota hu, if_pos rfl]

end Accounts

section Run

variable {l : List PollLabel} {label : PollLabel} {funding : TaskFunding}

/-- Only billing makes refunds. -/
theorem threadStep_refunds (action : PollAction) :
    (w.threadStep i t action).refunds = w.refunds := by
  cases action with
  | platform platform =>
    rw [PollWorld.threadStep]
    split
    · -- no step but a bill writes refunds
      split_ifs
      · unfold PollWorld.platform
        split <;> rfl
      · rfl
    · rfl
  | sunoChannel channelId fetch =>
    rw [PollWorld.threadStep]
    split
    · split_ifs
      · cases fetch <;> rfl
      · rfl
      · rfl
    · rfl
  | sunoItem =>
    rw [PollWorld.threadStep]
    split
    · rfl
    · split <;> rfl
    · rfl
  | videoChannel found =>
    rw [PollWorld.threadStep]
    split
    · cases found <;> rfl
    · rfl
  | videoTask serverAddress reply now =>
    rw [PollWorld.threadStep]
    split
    · rfl
    · split <;> rfl
    · rfl
  | _ =>
    rw [PollWorld.threadStep]
    split <;> rfl

/-- The refunds of a run grow by the refund of each step that makes one. -/
theorem poll_refunds (hsucc : w.Succeeds label) :
    (poll w label).refunds = ((w.refunding label).map refundOf).toList ++ w.refunds := by
  cases label with
  | create row =>
    rw [poll]
    split_ifs <;> rfl
  | traffic store => rfl
  | start timeoutMinutes now => rfl
  | bill i now =>
    rw [poll, refunding]
    rcases ht : w.threads[i]? with _ | t
    · rfl
    · have hsucc := hsucc t ht
      dsimp only [Option.bind_some]
      rcases hb : t.billing with _ | b
      · rfl
      · rw [hb] at hsucc
        rw [Option.elim_some, Option.bind_some]
        unfold PollWorld.bill
        -- the funding is the first of the three steps of a refund
        cases b with
        | refund task =>
          obtain ⟨_, store, hstore⟩ := Tx.committed_iff.mp hsucc
          dsimp only
          rw [hstore]
          rfl
        | settle task actualQuota =>
          dsimp only
          split <;> rfl
        | _ => rfl
  | act i action =>
    rw [poll]
    rcases w.threads[i]? with _ | t
    · rfl
    · dsimp only
      split_ifs
      · exact threadStep_refunds action
      · rfl

/-- The step that makes a refund adds it to the funding source. -/
theorem balance_poll (hsucc : w.Succeeds label) (hord : w.Orderly label)
    (htask : w.refunding label = some task) (hpos : 0 < (refundOf task).amount) :
    (poll w label).store.balance task.funding =
      w.store.balance task.funding + (refundOf task).amount := by
  cases label with
  | bill i now =>
    have htakes := hord task htask
    obtain ⟨t, ht, hbind⟩ := Option.bind_eq_some_iff.mp htask
    obtain ⟨b, hb, hrefunded⟩ := Option.bind_eq_some_iff.mp hbind
    cases b with
    | refund task' =>
      cases hrefunded
      have hsucc := hsucc t ht
      -- the refund commits, and the account gets it
      rw [hb] at hsucc
      obtain ⟨_, store, hstore⟩ := Tx.committed_iff.mp hsucc
      have hstep : (poll w (.bill i now)).store = store := by
        rw [poll, ht]
        dsimp only
        rw [hb, Option.elim_some, PollWorld.bill, hstore]
      rw [hstep]
      exact balance_refund hstore htakes hpos
    | _ => cases hrefunded
  | _ => cases htask

theorem refunds_suffix (h : Along (fun w label => w.Succeeds label ∧ w.Orderly label) poll w l) :
    w.refunds <:+ (exec poll w l).refunds := by
  induction l generalizing w with
  | nil => exact suffix_rfl
  | cons label l ih =>
    refine IsSuffix.trans ?_ (ih h.2)
    rw [poll_refunds h.1.1]
    exact suffix_append ..

/-- If all refunds of a task go to one funding source, the run adds their amounts to
it. -/
theorem refundMoves_eq (h : Along (fun w label => w.Succeeds label ∧ w.Orderly label) poll w l)
    (hsame : ∀ r ∈ (exec poll w l).refunds, r.taskId = id → r.funding = funding ∧ 0 < r.amount) :
    (refundMoves id funding w l).reverse ++
      (w.refunds.filter (·.taskId = id)).map TaskRefund.amount =
      ((exec poll w l).refunds.filter (·.taskId = id)).map TaskRefund.amount := by
  -- the induction is on the run; the refund of its first step is among those at its end
  induction l generalizing w with
  | nil => rfl
  | cons label l ih =>
    obtain ⟨⟨hsucc, hord⟩, hrest⟩ := h
    have hgrow := refunds_suffix hrest
    rw [exec_cons, ← ih hrest hsame, refundMoves, reverse_append, append_assoc, poll_refunds hsucc]
    congr 1
    rcases htask : w.refunding label with _ | task
    · rfl
    · rw [poll_refunds hsucc, htask] at hgrow
      have hmem : refundOf task ∈ (exec poll (poll w label) l).refunds := hgrow.subset (by simp)
      by_cases hid : task.id = id
      · obtain ⟨hfunding, hpos⟩ := hsame (refundOf task) hmem hid
        have hmove := balance_poll hsucc hord htask hpos
        rw [show task.funding = funding from hfunding] at hmove
        have hdiff : (poll w label).store.balance funding - w.store.balance funding =
            (refundOf task).amount := by omega
        simp [hid, refundOf, hdiff]
      · simp [hid, refundOf]

theorem refundOf_eq (hq : 0 < r.quota) (hi : IsInt64 r.quota) :
    refundOf r = ⟨r.id, r.funding, r.quota⟩ := by
  have hneg : wrap64 (-r.quota) = -r.quota := by
    apply wrap64_eq_self
    unfold IsInt64 at hi ⊢
    omega
  rw [refundOf, hneg, Int.neg_neg]

theorem keeps_init (store : Store) : Charged (.init store) ∧ Refunded (.init store) := by
  refine ⟨⟨⟨rfl, ?_⟩, ?_, ?_, ?_⟩, ⟨fun _ _ => rfl, ?_⟩⟩
  all_goals
    intro _ h
    cases h

theorem settled_along (hc : Charged w) (hr : Refunded w)
    (h : Along (fun w label => w.Succeeds label ∧ w.Orderly label) poll w l) :
    Keeps w (exec poll w l) := by
  induction l generalizing w with
  | nil => exact .refl hc hr
  | cons label l ih =>
    obtain ⟨⟨hsucc, hord⟩, h⟩ := h
    have hstep := poll_keeps hc hr hsucc hord
    have hrest := ih hstep.charged hstep.refunded h
    exact ⟨hrest.charged, hrest.refunded,
      fun id s hs ht => hrest.terminal id s (hstep.terminal id s hs ht) ht⟩

/-- The refunds of a task are those made and those pending. -/
theorem dues_eq (w : PollWorld) (id : Int) :
    w.dues id = w.refunds.filter (·.taskId = id) ++ w.pendingRefunds id := filter_append ..

/-- The accounts follow the refunds of the invariant. -/
theorem settledOnce_of_refunded {store : Store} (hc : Charged (exec poll (.init store) l))
    (hr : Refunded (exec poll (.init store) l))
    (h : Along (fun w label => w.Succeeds label ∧ w.Orderly label) poll (.init store) l) :
    SettledOnce store l := by
  intro r hmem
  have hmoves (hsame : ∀ e ∈ (exec poll (.init store) l).refunds, e.taskId = r.id →
      e.funding = r.funding ∧ 0 < e.amount) := refundMoves_eq h hsame
  constructor
  · rintro ⟨hq, hl, hs⟩
    have hlegacy : r.isLegacy = false := by
      simp only [TaskRow.isLegacy, isLegacyTime, Bool.and_eq_false_iff, decide_eq_false_iff_not]
      omega
    have hdues := hr.due r hmem hq hlegacy hs
    rw [refundOf_eq hq (hc.created.2 r hmem)] at hdues
    -- a refund of the task that was made is the one that is due
    have hmoves := hmoves fun e he hid => by
      have hdue : e ∈ (exec poll (.init store) l).dues r.id := by
        rw [dues_eq]
        exact mem_append_left _ (mem_filter.mpr ⟨he, decide_eq_true hid⟩)
      rw [hdues, mem_singleton] at hdue
      exact hdue ▸ ⟨rfl, hq⟩
    rw [dues_eq, append_eq_singleton_iff] at hdues
    rcases hdues with ⟨hnone, hpending⟩ | ⟨hmade, hnone⟩
    · rw [hnone] at hmoves
      exact .inr ⟨reverse_eq_nil_iff.mp ((append_nil _).symm.trans hmoves), hpending⟩
    · rw [hmade] at hmoves
      refine .inl ⟨?_, hnone⟩
      rw [← reverse_reverse (refundMoves ..)]
      exact congrArg reverse ((append_nil _).symm.trans hmoves)
  · intro hs
    have hdues := hr.undue r.id (by rw [hs]; simp)
    rw [dues_eq, append_eq_nil_iff] at hdues
    have hmoves := hmoves fun e he hid =>
      absurd (mem_filter.mpr ⟨he, decide_eq_true hid⟩) (by rw [hdues.1]; exact not_mem_nil)
    rw [hdues.1] at hmoves
    exact ⟨reverse_eq_nil_iff.mp ((append_nil _).symm.trans hmoves), hdues.2⟩

end Run

/-- In every run whose statements succeed and whose steps are orderly, tasks are settled
once in every state, and a terminal status stays. -/
theorem tasks_settled_once (store : Store) (l₁ l₂ : List PollLabel)
    (h : Along (fun w label => w.Succeeds label ∧ w.Orderly label) poll (.init store) (l₁ ++ l₂)) :
    SettledOnce store l₁ ∧
      ∀ id s, (exec poll (.init store) l₁).statusOf id = some s → s.terminal = true →
        (exec poll (.init store) (l₁ ++ l₂)).statusOf id = some s := by
  obtain ⟨h₁, h₂⟩ := along_append.mp h
  obtain ⟨hc, hr⟩ := keeps_init store
  have hmid := settled_along hc hr h₁
  refine ⟨settledOnce_of_refunded hmid.charged hmid.refunded h₁, ?_⟩
  rw [exec_append]
  exact (settled_along hmid.charged hmid.refunded h₂).terminal

/-- A video task that costs 500. -/
def paidVideo : TaskRow where
  id := 0
  taskId := "task_1"
  platform := .video "50"
  userId := 1
  channelId := 3
  quota := 500
  status := .notStart
  submitTime := 1771718500
  progress := "0%"
  upstreamTaskId := "video_1"

/-- A pass that does not sweep has loaded the task and started its channel. -/
def pollPaidVideo : List PollLabel :=
  [.create paidVideo, .start 0 1771718600, .act 0 (.load 1000), .act 0 (.platform (.video "50"))]

/-- User 1 has 1000 left in the wallet. -/
def oneWallet : Store where
  users := (Table.empty : Users).insert (fun id => ⟨id, 1, 1000, 500, 1, "default"⟩) fun _ => rfl
  tokens := .empty
  plans := .empty
  subs := .empty
  records := .empty
  log := []

/-- The task is rejected, and its quota is back in the wallet. -/
def rejectPaidVideo : List PollLabel :=
  pollPaidVideo ++ [.act 1 (.videoChannel true),
    .act 1 (.videoTask "" { body := "", result := some (failTaskInfo "rejected") } 1771718601),
    .bill 1 1771718602]

theorem tasks_settled_once_failed :
    (exec poll (.init oneWallet) rejectPaidVideo).statusOf 1 = some .failure ∧
      getUserQuota (exec poll (.init oneWallet) rejectPaidVideo).store.users 1 = 1500 ∧
      refundMoves 1 (.wallet 1) (.init oneWallet) rejectPaidVideo = [500] ∧
      SettledOnce oneWallet rejectPaidVideo :=
  ⟨by decide +kernel, by decide +kernel, by decide +kernel,
    (tasks_settled_once oneWallet rejectPaidVideo [] (by decide +kernel)).1⟩

/-- The channel of a running task is deleted: the task fails, and its quota is kept. -/
theorem channel_deleted :
    Along Succeeds poll (.init oneWallet) (pollPaidVideo ++ [.act 1 (.videoChannel false)]) ∧
    ¬ SettledOnce oneWallet (pollPaidVideo ++ [.act 1 (.videoChannel false)]) := by
  decide +kernel
