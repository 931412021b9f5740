/-
Group elevation and the end of subscriptions.

A subscription notes the group its user had when it was bought.  As long as one
subscription of the user is active at a time, each of the three ways in which it
can end takes the user back to that group.

* `downgrade_store`, `expireGroup_store` — ending a subscription either leaves
  the group of its user or sets it to the group before any purchase;
* `GroupInv` — the user is in that group, or exactly one subscription is active
  and it accounts for the group the user is in;
* `groupInv_step` — every call keeps this, if purchases do not overlap and
  expiry reaches the user (`BuysInTurn`);
* `group_restored` — hence the group is back whenever no elevation is left;
* `renewal_keeps_group` — a renewal into the group the user is already in does
  not note any group, and the user keeps it for good.
-/
import AcuGateway.SubscriptionRun

open List Table Option
open Text (trimSpace)

/-! ### Groups of users -/

variable {u now : Int} {σ : Store} {sub : UserSubscription} {group : String}

theorem userGroup_setUserGroup_eq (v : Int) :
    (σ.setUserGroup v group).userGroup u =
      if u = v ∧ (σ.users.find? u).isSome then group else σ.userGroup u := by
  unfold Store.userGroup Store.setUserGroup
  dsimp only
  rw [find?_update]
  rcases hu : σ.users.find? u with _ | user
  · simp
  · have hid := key_of_find? hu
    by_cases h : u = v <;> simp [hid, h]

theorem userGroup_setUserGroup_ne {v : Int} (h : u ≠ v) :
    (σ.setUserGroup v group).userGroup u = σ.userGroup u := by
  rw [userGroup_setUserGroup_eq, if_neg fun hv => h hv.1]

/-- A user who is in some group exists, and is then in the group that is set. -/
theorem userGroup_setUserGroup (h : σ.userGroup u ≠ "") :
    (σ.setUserGroup u group).userGroup u = group := by
  rw [userGroup_setUserGroup_eq, if_pos]
  refine ⟨rfl, isSome_iff_ne_none.mpr fun hnone => h ?_⟩
  simp [Store.userGroup, hnone]

theorem userGroup_setUserGroup_or :
    (σ.setUserGroup u group).userGroup u = σ.userGroup u ∨
      (σ.setUserGroup u group).userGroup u = group := by
  rw [userGroup_setUserGroup_eq]
  split_ifs
  · exact .inr rfl
  · exact .inl rfl

/-- Only users changed, only the group of `u`, and only to `g`. -/
structure Falls (u : Int) (g : String) (σ σ' : Store) : Prop where
  users : ∃ users, σ' = { σ with users }
  others : ∀ v, v ≠ u → σ'.userGroup v = σ.userGroup v
  group : σ'.userGroup u = σ.userGroup u ∨ σ'.userGroup u = g

theorem Falls.refl (u : Int) (g : String) (σ : Store) : Falls u g σ σ :=
  ⟨⟨σ.users, rfl⟩, fun _ _ => rfl, .inl rfl⟩

theorem falls_setUserGroup (g : String) : Falls u g σ (σ.setUserGroup u g) :=
  ⟨⟨_, rfl⟩, fun _ h => userGroup_setUserGroup_ne h, userGroup_setUserGroup_or⟩

/-! ### What ends an elevation -/

/-- The user has a live subscription that upgrades the group. -/
def upgraded (σ : Store) (u now : Int) : Bool :=
  σ.subs.rows.any fun s => s.userId = u && isLive now s && s.upgradeGroup ≠ ""

/-- The same, apart from the row `id`. -/
def upgradedElse (σ : Store) (u now id : Int) : Bool :=
  σ.subs.rows.any fun s => s.userId = u && isLive now s && s.id ≠ id && s.upgradeGroup ≠ ""

theorem upgraded_iff : upgraded σ u now = true ↔ ∃ s ∈ σ.subs.rows, s.userId = u ∧
      isLive now s = true ∧ s.upgradeGroup ≠ "" := by
  simp [upgraded, and_assoc]

variable {id : Int}

theorem upgradedElse_iff : upgradedElse σ u now id = true ↔ ∃ s ∈ σ.subs.rows, s.userId = u ∧
      isLive now s = true ∧ s.id ≠ id ∧ s.upgradeGroup ≠ "" := by
  simp [upgradedElse, and_assoc]

/-- A row of the kind the purchases of the user leave: it upgrades, it has no
downgrade group of its own, and it notes no group other than `g`. -/
structure Tidy (g : String) (sub : UserSubscription) : Prop where
  user_pos : 0 < sub.userId
  upgrade_ne : sub.upgradeGroup ≠ ""
  upgrade_trim : trimSpace sub.upgradeGroup = sub.upgradeGroup
  downgrade_eq : sub.downgradeGroup = ""
  prev : trimSpace sub.prevUserGroup = "" ∨ trimSpace sub.prevUserGroup = g

variable {g : String}

theorem Tidy.cancel (h : Tidy g sub) (now : Int) : Tidy g (cancel sub now) :=
  ⟨h.user_pos, h.upgrade_ne, h.upgrade_trim, h.downgrade_eq, h.prev⟩

theorem Tidy.expire (h : Tidy g sub) : Tidy g (expire sub) :=
  ⟨h.user_pos, h.upgrade_ne, h.upgrade_trim, h.downgrade_eq, h.prev⟩

/-- The common end of the three ways out of a subscription: a user who is still
in the group of the row goes back to the group it notes. -/
def fallBack (σ : Store) (sub : UserSubscription) : Store :=
  if σ.userGroup sub.userId = sub.upgradeGroup ∧ trimSpace sub.prevUserGroup ≠ "" ∧
      trimSpace sub.prevUserGroup ≠ σ.userGroup sub.userId then
    σ.setUserGroup sub.userId (trimSpace sub.prevUserGroup)
  else σ

variable {σ' : Store} {target : String} {e : UserSubscription}

section Ending

theorem fallBack_falls (hsub : Tidy g sub) : Falls sub.userId g σ (fallBack σ sub) := by
  unfold fallBack
  split_ifs with hback
  · rw [hsub.prev.resolve_left hback.2.1]
    exact falls_setUserGroup ..
  · exact .refl ..

/-- A user who is in the group of the row, which notes `g`, goes back to `g`. -/
theorem userGroup_fallBack (hsub : Tidy g sub) (hg : g ≠ "") (hgroup : σ.userGroup sub.userId = g ∨
      σ.userGroup sub.userId = sub.upgradeGroup ∧ trimSpace sub.prevUserGroup = g) :
    (fallBack σ sub).userGroup sub.userId = g := by
  rcases hgroup with hgroup | ⟨hgroup, hprev⟩
  · have hfalls : Falls sub.userId g σ (fallBack σ sub) := fallBack_falls hsub
    rcases hfalls.group with h | h
    · rw [h, hgroup]
    · exact h
  · unfold fallBack
    split_ifs with hback
    · rw [hprev]
      exact userGroup_setUserGroup (by rw [hgroup]; exact hsub.upgrade_ne)
    · by_contra hne
      exact hback ⟨hgroup, by rwa [hprev], by rw [hprev]; exact fun h => hne h.symm⟩

/-- Writing the row first makes no difference to the groups. -/
theorem userGroup_fallBack_saveSub (v : Int) :
    (fallBack (σ.saveSub sub []) sub).userGroup v = (fallBack σ sub).userGroup v := by
  have hsame : (σ.saveSub sub []).userGroup sub.userId = σ.userGroup sub.userId := rfl
  unfold fallBack
  rw [hsame]
  split_ifs <;> rfl

/-- Undoing the group change of a user's row does not fail. -/
theorem downgrade_ok (σ : Store) (huser : 0 < sub.userId) (now : Int) :
    ∃ target σ', downgradeUserGroupForSubscriptionTx σ sub now = .ok (target, σ') := by
  unfold downgradeUserGroupForSubscriptionTx getUserGroupByIdTx
  rw [if_neg (not_le.mpr huser)]
  dsimp only
  split_ifs <;> exact ⟨_, _, rfl⟩

theorem downgrade_store (hsub : Tidy g sub)
    (h : downgradeUserGroupForSubscriptionTx σ sub now = .ok (target, σ')) :
    σ' = if upgradedElse σ sub.userId now sub.id then σ else fallBack σ sub := by
  have hdown : trimSpace sub.downgradeGroup = "" := by
    rw [hsub.downgrade_eq, Text.trimSpace_empty]
  unfold downgradeUserGroupForSubscriptionTx at h
  simp only [hdown, hsub.upgrade_trim, true_and, if_true, hsub.upgrade_ne, if_false] at h
  unfold getUserGroupByIdTx at h
  by_cases huser : sub.userId ≤ 0
  · rw [if_pos huser] at h
    cases h
  · rw [if_neg huser] at h
    dsimp only at h
    -- the source asks for another live row, then for the group, then for a group to go back to
    by_cases helse : upgradedElse σ sub.userId now sub.id = true
    · rw [if_pos helse]
      unfold upgradedElse at helse
      rw [if_pos helse] at h
      cases h
      rfl
    · rw [if_neg helse]
      unfold upgradedElse at helse
      rw [if_neg helse] at h
      unfold fallBack
      split_ifs at h with hgroup htarget
      · cases h
        rw [if_neg fun hback => hgroup hback.1]
      · cases h
        rw [if_neg fun hback => htarget.elim hback.2.1 hback.2.2]
      · cases h
        rw [if_pos ⟨not_not.mp hgroup, not_or.mp htarget⟩]

/-! ### The last expired subscription -/

instance : Std.Total fun a b : UserSubscription => endsBefore a b = true where
  total a b := by
    simp only [endsBefore, Bool.or_eq_true, Bool.and_eq_true, decide_eq_true_eq]
    omega

instance : IsTrans UserSubscription fun a b => endsBefore a b = true where
  trans a b c := by
    simp only [endsBefore, Bool.or_eq_true, Bool.and_eq_true, decide_eq_true_eq]
    omega

theorem endTime_le_of_endsBefore {a b : UserSubscription} (h : endsBefore a b = true) :
    a.endTime ≤ b.endTime := by
  simp only [endsBefore, Bool.or_eq_true, Bool.and_eq_true, decide_eq_true_eq] at h
  omega

variable {last : UserSubscription}

/-- The last row of an ordered page ends no earlier than the others. -/
theorem endTime_le_getLast {p : UserSubscription → Bool}
    (hlast : (subsByEnd σ p).getLast? = some last) :
    ∀ s ∈ subsByEnd σ p, s.endTime ≤ last.endTime := by
  have hsorted : (subsByEnd σ p).Pairwise fun a b => endsBefore a b = true :=
    pairwise_insertionSort _ _
  intro s hs
  obtain ⟨front, hfront⟩ := getLast?_eq_some_iff.mp hlast
  rw [hfront] at hs hsorted
  rcases mem_append.mp hs with hs | hs
  · exact endTime_le_of_endsBefore
      ((pairwise_append.mp hsorted).2.2 s hs last (mem_singleton_self last))
  · rw [mem_singleton.mp hs]

theorem mem_lastExpired (h : lastExpired σ u = some last) :
    last ∈ σ.subs.rows ∧ last.userId = u ∧ last.status = .expired := by
  obtain ⟨hmem, hp⟩ := mem_subsByEnd.mp (mem_of_getLast? h)
  simp only [Bool.and_eq_true, decide_eq_true_eq] at hp
  exact ⟨hmem, hp.1.1, hp.1.2⟩

/-- The row that ends after every other expired row is the last expired one. -/
theorem lastExpired_eq (hmem : e ∈ σ.subs.rows) (hexpired : e.status = .expired)
    (hupgrade : e.upgradeGroup ≠ "")
    (hlater : ∀ s ∈ σ.subs.rows, s.userId = e.userId → s.status = .expired → s ≠ e →
      s.endTime < e.endTime) : lastExpired σ e.userId = some e := by
  have he : e ∈ subsByEnd σ fun s => s.userId = e.userId && s.status = .expired &&
      (s.downgradeGroup ≠ "" || s.upgradeGroup ≠ "") :=
    mem_subsByEnd.mpr ⟨hmem, by simp [hexpired, hupgrade]⟩
  obtain ⟨last, hlast⟩ := getLast?_isSome.mpr (ne_nil_of_mem he) |> isSome_iff_exists.mp
  have hle := endTime_le_getLast hlast e he
  have hlast : lastExpired σ e.userId = some last := hlast
  obtain ⟨hlastmem, huser, hstatus⟩ := mem_lastExpired hlast
  by_cases heq : last = e
  · rw [hlast, heq]
  · have := hlater last hlastmem huser hstatus heq
    omega

/-- The group part of an expiry transaction. -/
theorem expireGroup_store (htidy : ∀ s ∈ σ.subs.rows, s.userId = u → Tidy g s) :
    expireGroup σ u now = if upgraded σ u now then σ
      else match lastExpired σ u with
        | none => σ
        | some last => fallBack σ last := by
  unfold expireGroup
  by_cases hup : upgraded σ u now = true
  · rw [if_pos hup]
    unfold upgraded at hup
    rw [if_pos hup]
  · rw [if_neg hup]
    unfold upgraded at hup
    rw [if_neg hup]
    rcases hlast : lastExpired σ u with _ | last
    · rfl
    · obtain ⟨hmem, rfl, -⟩ := mem_lastExpired hlast
      have hsub := htidy last hmem rfl
      have hdown : trimSpace last.downgradeGroup = "" := by
        rw [hsub.downgrade_eq, Text.trimSpace_empty]
      -- without a downgrade group the source falls back to the noted one
      simp only [hdown, hsub.upgrade_trim, true_and, if_true, hsub.upgrade_ne, false_or]
      unfold fallBack
      by_cases hprev : trimSpace last.prevUserGroup = ""
      · rw [if_pos (.inl hprev), if_neg fun hback => hback.2.1 hprev]
      · by_cases hgroup : σ.userGroup last.userId = last.upgradeGroup
        · rw [if_neg (by simp [hprev, hgroup])]
          by_cases htarget : trimSpace last.prevUserGroup = σ.userGroup last.userId
          · rw [if_pos (.inr htarget), if_neg fun hback => hback.2.2 htarget]
          · rw [if_neg (not_or.mpr ⟨hprev, htarget⟩), if_pos ⟨hgroup, hprev, htarget⟩]
        · rw [if_pos (.inr hgroup), if_neg fun hback => hgroup hback.1]

end Ending

/-! ### One user's subscriptions -/

/-- Exactly the row `e` of the user is active, and it accounts for the group the
user is in. -/
structure Held (u : Int) (g : String) (σ : Store) (e : UserSubscription) : Prop where
  mem : e ∈ σ.subs.rows
  user : e.userId = u
  active : e.status = .active
  only : ∀ s ∈ σ.subs.rows, s.userId = u → s.status = .active → s = e
  pos : 0 < e.endTime
  later : ∀ s ∈ σ.subs.rows, s.userId = u → s.status = .expired → s.endTime < e.endTime
  group : σ.userGroup u = g ∨ σ.userGroup u = e.upgradeGroup ∧ trimSpace e.prevUserGroup = g

/-- No row of the user is active, and the user is in the group from before. -/
structure Idle (u : Int) (g : String) (σ : Store) : Prop where
  inactive : ∀ s ∈ σ.subs.rows, s.userId = u → s.status ≠ .active
  group : σ.userGroup u = g

/-- The invariant, at time `clock`. -/
structure GroupInv (u : Int) (g : String) (clock : Int) (σ : Store) : Prop where
  tidy : ∀ s ∈ σ.subs.rows, s.userId = u → Tidy g s
  past : ∀ s ∈ σ.subs.rows, s.userId = u → s.status = .expired → s.endTime ≤ clock
  state : Idle u g σ ∨ ∃ e, Held u g σ e

/-- No row of the user waits to be expired. -/
def NoOverdue (u now : Int) (σ : Store) : Prop :=
  ∀ s ∈ σ.subs.rows, s.userId = u → isOverdue now s = false

variable {s : UserSubscription}

theorem isOverdue_iff :
    isOverdue now s = true ↔ s.status = .active ∧ 0 < s.endTime ∧ s.endTime ≤ now := by
  simp [isOverdue, and_assoc]

variable {zone : Int}

section GroupInv

variable {clock : Int}

theorem GroupInv.mono (h : GroupInv u g clock σ) (hle : clock ≤ now) : GroupInv u g now σ :=
  ⟨h.tidy, fun s hs hu he => le_trans (h.past s hs hu he) hle, h.state⟩

/-- Calls that touch neither the rows nor the group of the user. -/
theorem GroupInv.frame (h : GroupInv u g clock σ)
    (hrows : ∀ s, s.userId = u → (s ∈ σ'.subs.rows ↔ s ∈ σ.subs.rows))
    (hgroup : σ'.userGroup u = σ.userGroup u) : GroupInv u g clock σ' := by
  refine ⟨fun s hs hu => h.tidy s ((hrows s hu).mp hs) hu,
    fun s hs hu => h.past s ((hrows s hu).mp hs) hu, ?_⟩
  rcases h.state with hidle | ⟨e, he⟩
  · exact .inl ⟨fun s hs hu => hidle.inactive s ((hrows s hu).mp hs) hu, hgroup.trans hidle.group⟩
  · refine .inr ⟨e, (hrows e he.user).mpr he.mem, he.user, he.active, ?_, he.pos, ?_, ?_⟩
    · exact fun s hs hu => he.only s ((hrows s hu).mp hs) hu
    · exact fun s hs hu => he.later s ((hrows s hu).mp hs) hu
    · rw [hgroup]
      exact he.group

variable {v : Int} {plan : SubscriptionPlan}

/-- An active row that is not overdue is live. -/
theorem Held.live (he : Held u g σ e) (hdue : ¬ isOverdue now e = true) : isLive now e = true := by
  rw [isOverdue_iff] at hdue
  exact isLive_iff.mpr ⟨he.active, not_le.mp fun hle => hdue ⟨he.active, he.pos, hle⟩⟩

/-! #### Cancelling and deleting -/

/-- The row `sub` is cancelled or gone, and its user's group is undone. -/
structure Ended (g : String) (now : Int) (sub : UserSubscription) (σ σ' : Store) : Prop where
  mem : sub ∈ σ.subs.rows
  kept : ∀ s ∈ σ.subs.rows, s.id ≠ sub.id → s ∈ σ'.subs.rows
  rows : ∀ s ∈ σ'.subs.rows, (s ∈ σ.subs.rows ∧ s.id ≠ sub.id) ∨ s = cancel sub now
  others : ∀ v, v ≠ sub.userId → σ'.userGroup v = σ.userGroup v
  own : Tidy g sub → σ'.userGroup sub.userId =
    (if upgradedElse σ sub.userId now sub.id then σ else fallBack σ sub).userGroup sub.userId

/-- Undoing a row's group change leaves the groups of other users. -/
theorem downgrade_others (h : downgradeUserGroupForSubscriptionTx σ sub now = .ok (target, σ'))
    (hv : v ≠ sub.userId) : σ'.userGroup v = σ.userGroup v := by
  unfold downgradeUserGroupForSubscriptionTx at h
  dsimp only at h
  split at h
  · cases h
    rfl
  · split at h
    · cases h
    · split_ifs at h <;> cases h <;> first | rfl | exact userGroup_setUserGroup_ne hv

variable {r : String}

theorem invalidate_ended (h : adminInvalidateUserSubscription σ id now = .commit r σ') :
    ∃ sub, sub.id = id ∧ Ended g now sub σ σ' := by
  obtain ⟨sub, target, hsub, hdown⟩ := adminInvalidateUserSubscription_commit h
  have hmem := mem_of_find? hsub
  obtain ⟨users, hσ'⟩ := downgradeUserGroupForSubscriptionTx_users hdown
  refine ⟨sub, key_of_find? hsub, hmem, ?_, ?_, fun v hv => (downgrade_others hdown hv :), ?_⟩
  · intro s hs hne
    rw [hσ']
    exact Table.mem_save_of_ne hs hne
  · intro s hs
    rw [hσ'] at hs
    exact Table.mem_save hs
  · intro htidy
    rw [downgrade_store (htidy.cancel now) hdown]
    -- the cancelled row is left out of the search for other live rows
    have helse : upgradedElse (σ.saveSub (cancel sub now) []) sub.userId now sub.id =
        upgradedElse σ sub.userId now sub.id := by
      rw [Bool.eq_iff_iff, upgradedElse_iff, upgradedElse_iff]
      constructor
      · rintro ⟨s, hs, hu, hl, hne, hup⟩
        rcases Table.mem_save hs with ⟨hs, -⟩ | rfl
        · exact ⟨s, hs, hu, hl, hne, hup⟩
        · exact absurd rfl hne
      · rintro ⟨s, hs, hu, hl, hne, hup⟩
        exact ⟨s, Table.mem_save_of_ne hs hne, hu, hl, hne, hup⟩
    show (if upgradedElse (σ.saveSub (cancel sub now) []) sub.userId now sub.id then _
      else _ : Store).userGroup _ = _
    rw [helse]
    split_ifs
    · rfl
    · exact userGroup_fallBack_saveSub sub.userId

theorem delete_ended (h : adminDeleteUserSubscription σ id now = .commit r σ') :
    ∃ sub, sub.id = id ∧ Ended g now sub σ σ' := by
  obtain ⟨sub, target, σ₁, hsub, hdown, rfl⟩ := adminDeleteUserSubscription_commit h
  have hmem := mem_of_find? hsub
  have hid := key_of_find? hsub
  obtain ⟨users, hσ₁⟩ := downgradeUserGroupForSubscriptionTx_users hdown
  refine ⟨sub, hid, hmem, ?_, ?_, fun v hv => (downgrade_others hdown hv :), ?_⟩
  · -- the other rows stay, the row is gone
    intro s hs hne
    rw [hσ₁]
    exact mem_filter.mpr ⟨hs, by rw [← hid]; simpa using hne⟩
  · intro s hs
    rw [hσ₁] at hs
    obtain ⟨hs, hne⟩ := mem_filter.mp hs
    rw [← hid] at hne
    exact .inl ⟨hs, by simpa using hne⟩
  · intro htidy
    show σ₁.userGroup _ = _
    rw [downgrade_store htidy hdown]

/-- A row that is not cancelled is one of those from before. -/
theorem Ended.mem_of_ne_cancelled (hend : Ended g now sub σ σ')
    (hs : s ∈ σ'.subs.rows) (hstatus : s.status ≠ .cancelled) :
    s ∈ σ.subs.rows ∧ s.id ≠ sub.id := by
  rcases hend.rows s hs with hold | rfl
  · exact hold
  · exact absurd rfl hstatus

/-- The rows of the users whom the call is not about. -/
theorem Ended.mem_ne (hend : Ended g now sub σ σ') (hu : u ≠ sub.userId)
    (hs : s.userId = u) : s ∈ σ'.subs.rows ↔ s ∈ σ.subs.rows := by
  constructor
  · intro hmem
    rcases hend.rows s hmem with ⟨hold, -⟩ | rfl
    · exact hold
    · exact absurd hs.symm hu
  · intro hmem
    refine hend.kept s hmem fun hid => hu ?_
    rw [← hs, eq_of_key_eq hmem hend.mem hid]

/-- A row that is not active ends. -/
theorem Idle.ended (hg : g ≠ "") (hsub : Tidy g sub) (hend : Ended g now sub σ σ')
    (hidle : Idle sub.userId g σ) : Idle sub.userId g σ' := by
  refine ⟨fun s hs hu hactive => ?_, ?_⟩
  · obtain ⟨hold, -⟩ := hend.mem_of_ne_cancelled hs (by rw [hactive]; decide)
    exact hidle.inactive s hold hu hactive
  · rw [hend.own hsub]
    split_ifs
    · exact hidle.group
    · exact userGroup_fallBack hsub hg (.inl hidle.group)

/-- The active row itself ends. -/
theorem Held.ended_self (hg : g ≠ "") (hsub : Tidy g sub) (hend : Ended g now sub σ σ')
    (he : Held sub.userId g σ sub) : Idle sub.userId g σ' := by
  refine ⟨fun s hs hu hactive => ?_, ?_⟩
  · obtain ⟨hold, hne⟩ := hend.mem_of_ne_cancelled hs (by rw [hactive]; decide)
    exact hne (congrArg UserSubscription.id (he.only s hold hu hactive))
  · have halone : ¬ upgradedElse σ sub.userId now sub.id = true := by
      rw [upgradedElse_iff]
      rintro ⟨s, hs, hu, hlive, hne, -⟩
      exact hne (congrArg UserSubscription.id (he.only s hs hu (isLive_active hlive)))
    rw [hend.own hsub, if_neg halone]
    exact userGroup_fallBack hsub hg he.group

/-- Another row ends, while the active one is still running and holds the group. -/
theorem Held.ended_other (hsub : Tidy g sub)
    (hend : Ended g now sub σ σ') (htidy : Tidy g e) (he : Held sub.userId g σ e)
    (hne : e.id ≠ sub.id) (hlive : isLive now e = true) : Held sub.userId g σ' e := by
  have helse : upgradedElse σ sub.userId now sub.id = true :=
    upgradedElse_iff.mpr ⟨e, he.mem, he.user, hlive, hne, htidy.upgrade_ne⟩
  have hgroup := hend.own hsub
  rw [if_pos helse] at hgroup
  refine ⟨hend.kept e he.mem hne, he.user, he.active, fun s hs hu hactive => ?_, he.pos,
    fun s hs hu hexp => ?_, by rw [hgroup]; exact he.group⟩
  · obtain ⟨hold, -⟩ := hend.mem_of_ne_cancelled hs (by rw [hactive]; decide)
    exact he.only s hold hu hactive
  · obtain ⟨hold, -⟩ := hend.mem_of_ne_cancelled hs (by rw [hexp]; decide)
    exact he.later s hold hu hexp

/-- **Ending one row** of a user keeps the invariant, if no other row of the user
waits to be expired. -/
theorem groupInv_ended (hg : g ≠ "") (h : GroupInv u g now σ) (hend : Ended g now sub σ σ')
    (hwait : sub.userId = u → ∀ s ∈ σ.subs.rows, s.userId = u → s.id ≠ sub.id →
      isOverdue now s = false) : GroupInv u g now σ' := by
  by_cases huser : sub.userId = u
  · subst huser
    have hsub := h.tidy sub hend.mem rfl
    refine ⟨fun s hs hu => ?_, fun s hs hu hexp => ?_, ?_⟩
    · rcases hend.rows s hs with ⟨hold, -⟩ | rfl
      · exact h.tidy s hold hu
      · exact hsub.cancel now
    · obtain ⟨hold, -⟩ := hend.mem_of_ne_cancelled hs (by rw [hexp]; decide)
      exact h.past s hold hu hexp
    · rcases h.state with hidle | ⟨e, he⟩
      · exact .inl (hidle.ended hg hsub hend)
      · by_cases heq : e.id = sub.id
        · obtain rfl := eq_of_key_eq he.mem hend.mem heq
          exact .inl (he.ended_self hg hsub hend)
        · -- `hwait` is for this case: an overdue row would let go of the group here
          have hrunning : ¬ isOverdue now e = true := by
            rw [hwait rfl e he.mem he.user heq]
            exact Bool.false_ne_true
          have htidy := h.tidy e he.mem he.user
          exact .inr ⟨e, he.ended_other hsub hend htidy heq (he.live hrunning)⟩
  · have hne : u ≠ sub.userId := fun h => huser h.symm
    exact h.frame (fun s hs => hend.mem_ne hne hs) (hend.others u hne)

/-! #### Expiry -/

theorem expireGroup_others (hv : u ≠ v) : (expireGroup σ v now).userGroup u = σ.userGroup u := by
  unfold expireGroup
  split_ifs
  · rfl
  · split
    · rfl
    · dsimp only
      split_ifs <;> first | rfl | exact userGroup_setUserGroup_ne hv

theorem expireUser_rows : (expireUser σ v now).subs.rows = (expireRows σ v now).subs.rows := by
  obtain ⟨users, hgroup⟩ := expireGroup_users (expireRows σ v now) v now
  rw [expireUser, hgroup]

/-- The rows of a user whom an expiry transaction is not about. -/
theorem mem_expireUser_ne (hv : u ≠ v) (hs : s.userId = u) :
    s ∈ (expireUser σ v now).subs.rows ↔ s ∈ σ.subs.rows := by
  rw [expireUser_rows, mem_expireRows]
  constructor
  · rintro ⟨x, hx, rfl⟩
    split_ifs at hs ⊢ with hdue
    · simp only [Bool.and_eq_true, decide_eq_true_eq] at hdue
      exact absurd (hs.symm.trans hdue.1) hv
    · exact hx
  · intro hmem
    refine ⟨s, hmem, ?_⟩
    rw [if_neg]
    simp only [Bool.and_eq_true, decide_eq_true_eq]
    exact fun hdue => hv (hs.symm.trans hdue.1)

/-- The rows of the user whom an expiry transaction is about. -/
theorem mem_expireRows_user (hu : s.userId = u) :
    s ∈ (expireRows σ u now).subs.rows ↔ ∃ x ∈ σ.subs.rows, x.userId = u ∧
      ((isOverdue now x = true ∧ s = expire x) ∨ (isOverdue now x = false ∧ s = x)) := by
  rw [mem_expireRows]
  constructor
  · rintro ⟨x, hx, rfl⟩
    by_cases hdue : isOverdue now x = true
    · by_cases hxu : x.userId = u
      · exact ⟨x, hx, hxu, .inl ⟨hdue, by simp [hxu, hdue]⟩⟩
      · simp [hxu] at hu
    · have hfalse : isOverdue now x = false := by simpa using hdue
      simp only [hfalse, Bool.and_false, Bool.false_eq_true, if_false] at hu ⊢
      exact ⟨x, hx, hu, .inr ⟨hfalse, rfl⟩⟩
  · rintro ⟨x, hx, hxu, ⟨hdue, rfl⟩ | ⟨hdue, rfl⟩⟩
    · exact ⟨x, hx, by simp [hxu, hdue]⟩
    · exact ⟨s, hx, by simp [hdue]⟩

theorem noOverdue_expireUser_self : NoOverdue u now (expireUser σ u now) := by
  intro s hs hu
  rw [expireUser_rows] at hs
  obtain ⟨x, -, -, ⟨-, rfl⟩ | ⟨hfalse, rfl⟩⟩ := (mem_expireRows_user hu).mp hs
  · rfl
  · exact hfalse

theorem noOverdue_expireUser (h : NoOverdue u now σ) (v : Int) :
    NoOverdue u now (expireUser σ v now) := by
  by_cases hv : u = v
  · subst hv
    exact noOverdue_expireUser_self
  · exact fun s hs hu => h s ((mem_expireUser_ne hv hu).mp hs) hu

variable (h : GroupInv u g now σ)

include h

/-- Marking rows as expired keeps them tidy and in the past. -/
theorem tidy_expireRows : ∀ s ∈ (expireRows σ u now).subs.rows, s.userId = u →
      Tidy g s ∧ (s.status = .expired → s.endTime ≤ now) := by
  intro s hs hu
  obtain ⟨x, hx, hxu, ⟨hdue, rfl⟩ | ⟨-, rfl⟩⟩ := (mem_expireRows_user hu).mp hs
  · exact ⟨(h.tidy x hx hxu).expire, fun _ => (isOverdue_iff.mp hdue).2.2⟩
  · exact ⟨h.tidy s hx hxu, h.past s hx hxu⟩

/-- A user in the group from before stays there through an expiry. -/
theorem userGroup_expireUser (hg : g ≠ "") (hgroup : σ.userGroup u = g) :
    (expireUser σ u now).userGroup u = g := by
  rw [expireUser, expireGroup_store fun s hs hu => (tidy_expireRows h s hs hu).1]
  split_ifs
  · exact hgroup
  · split
    · exact hgroup
    · rename_i last hlast
      obtain ⟨hmem, hu, -⟩ := mem_lastExpired hlast
      have hgroup' : (expireRows σ u now).userGroup last.userId = g := by
        rw [hu]
        exact hgroup
      have hback := userGroup_fallBack (tidy_expireRows h last hmem hu).1 hg (.inl hgroup')
      rwa [hu] at hback

omit h in
/-- An expiry that reaches the active row leaves none. -/
theorem Held.inactive (he : Held u g σ e) (hdue : isOverdue now e = true) :
    ∀ s ∈ (expireRows σ u now).subs.rows, s.userId = u → s.status ≠ .active := by
  intro s hs hu hactive
  obtain ⟨x, hx, hxu, ⟨-, rfl⟩ | ⟨hfalse, rfl⟩⟩ := (mem_expireRows_user hu).mp hs
  · cases hactive
  · rw [he.only s hx hxu hactive, hdue] at hfalse
    cases hfalse

/-- It takes the user back. -/
theorem userGroup_expireUser_held (hg : g ≠ "") (he : Held u g σ e)
    (hdue : isOverdue now e = true) :
    (expireUser σ u now).userGroup u = g := by
  rw [expireUser, expireGroup_store fun s hs hu => (tidy_expireRows h s hs hu).1]
  -- the only active row is marked as expired, so nothing upgrades the user any more
  have hup : ¬ upgraded (expireRows σ u now) u now = true := by
    rw [upgraded_iff]
    rintro ⟨s, hs, hu, hlive, -⟩
    exact he.inactive hdue s hs hu (isLive_active hlive)
  have hmem : expire e ∈ (expireRows σ u now).subs.rows :=
    (mem_expireRows_user (s := expire e) he.user).mpr ⟨e, he.mem, he.user, .inl ⟨hdue, rfl⟩⟩
  have htidy := (tidy_expireRows h _ hmem he.user).1
  -- it ends after all the others, so it is the row whose note counts
  have hlast : lastExpired (expireRows σ u now) u = some (expire e) := by
    rw [← he.user]
    refine lastExpired_eq (he.user ▸ hmem) rfl htidy.upgrade_ne fun s hs hu hexp hne => ?_
    have hu : s.userId = u := hu.trans he.user
    obtain ⟨x, hx, hxu, ⟨hxdue, rfl⟩ | ⟨-, rfl⟩⟩ := (mem_expireRows_user hu).mp (he.user ▸ hs)
    · rw [he.only x hx hxu (isOverdue_iff.mp hxdue).1] at hne
      exact absurd rfl hne
    · exact he.later s hx hxu hexp
  have hgroup : (expireRows σ u now).userGroup e.userId = g ∨
      (expireRows σ u now).userGroup e.userId = e.upgradeGroup ∧ trimSpace e.prevUserGroup = g := by
    rw [he.user]
    exact he.group
  have hback : (fallBack (expireRows σ u now) (expire e)).userGroup e.userId = g :=
    userGroup_fallBack htidy hg hgroup
  rw [if_neg hup, hlast]
  rwa [he.user] at hback

/-- An expiry passes over an active row that is not overdue. -/
theorem Held.running (he : Held u g σ e)
    (hdue : ¬ isOverdue now e = true) : Held u g (expireUser σ u now) e := by
  -- no row of the user is overdue, so none is changed
  have hsame : ∀ s ∈ (expireRows σ u now).subs.rows, s.userId = u → s ∈ σ.subs.rows := by
    intro s hs hu
    obtain ⟨x, hx, hxu, ⟨hxdue, rfl⟩ | ⟨-, rfl⟩⟩ := (mem_expireRows_user hu).mp hs
    · rw [he.only x hx hxu (isOverdue_iff.mp hxdue).1] at hxdue
      exact absurd hxdue hdue
    · exact hx
  have hmem : e ∈ (expireRows σ u now).subs.rows :=
    (mem_expireRows_user he.user).mpr ⟨e, he.mem, he.user, .inr ⟨by simpa using hdue, rfl⟩⟩
  have hup : upgraded (expireRows σ u now) u now = true :=
    upgraded_iff.mpr ⟨e, hmem, he.user, he.live hdue, (h.tidy e he.mem he.user).upgrade_ne⟩
  have hgroup : (expireUser σ u now).userGroup u = σ.userGroup u := by
    rw [expireUser, expireGroup_store fun s hs hu => (tidy_expireRows h s hs hu).1, if_pos hup]
    rfl
  refine ⟨by rwa [expireUser_rows], he.user, he.active, fun s hs hu => ?_, he.pos,
    fun s hs hu => ?_, by rw [hgroup]; exact he.group⟩
  · rw [expireUser_rows] at hs
    exact he.only s (hsame s hs hu) hu
  · rw [expireUser_rows] at hs
    exact he.later s (hsame s hs hu) hu

/-- **The expiry transaction of one user** keeps the invariant. -/
theorem groupInv_expireUser (hg : g ≠ "") (v : Int) : GroupInv u g now (expireUser σ v now) := by
  by_cases hv : u = v
  · subst hv
    refine ⟨fun s hs hu => ?_, fun s hs hu => ?_, ?_⟩
    · rw [expireUser_rows] at hs
      exact (tidy_expireRows h s hs hu).1
    · rw [expireUser_rows] at hs
      exact (tidy_expireRows h s hs hu).2
    · -- the subscription that holds the group may be one of those that expire
      rcases h.state with hidle | ⟨e, he⟩
      · refine .inl ⟨fun s hs hu => ?_, userGroup_expireUser h hg hidle.group⟩
        rw [expireUser_rows] at hs
        obtain ⟨x, hx, hxu, ⟨-, rfl⟩ | ⟨-, rfl⟩⟩ := (mem_expireRows_user hu).mp hs
        · exact fun hactive => by cases hactive
        · exact hidle.inactive s hx hxu
      · by_cases hdue : isOverdue now e = true
        · refine .inl ⟨?_, userGroup_expireUser_held h hg he hdue⟩
          rw [expireUser_rows]
          exact he.inactive hdue
        · exact .inr ⟨e, he.running h hdue⟩
  · exact h.frame (fun s hs => mem_expireUser_ne hv hs) (expireGroup_others hv)

theorem groupInv_expireUsers (hg : g ≠ "") (l : List Int) :
    GroupInv u g now (l.foldl (fun σ v => expireUser σ v now) σ) ∧ (u ∈ l ∨ NoOverdue u now σ →
        NoOverdue u now (l.foldl (fun σ v => expireUser σ v now) σ)) := by
  induction l generalizing σ with
  | nil => exact ⟨h, fun hor => hor.resolve_left (by simp)⟩
  | cons v rest ih =>
    obtain ⟨hinv, hdue⟩ := ih (groupInv_expireUser h hg v)
    refine ⟨hinv, fun hor => hdue ?_⟩
    rcases hor with hmem | hno
    · rcases mem_cons.mp hmem with rfl | hmem
      · exact .inr noOverdue_expireUser_self
      · exact .inl hmem
    · exact .inr (noOverdue_expireUser hno v)

/-! #### Buying -/

omit h in
/-- A new row notes the group only if the purchase changes it. -/
theorem prevUserGroup_newSubscription (userId : Int)
    (source group : String) (endUnix : Int) :
    (newSubscription zone userId plan source group now endUnix id).prevUserGroup =
      if elevates plan group then group else "" := by
  simp only [newSubscription]

omit h in
theorem tidy_newSubscription (huser : 0 < u) (htrim : trimSpace g = g)
    (hup : trimSpace plan.upgradeGroup ≠ "") (hdown : trimSpace plan.downgradeGroup = "")
    (source : String) (endUnix : Int) :
    Tidy g (newSubscription zone u plan source g now endUnix id) := by
  refine ⟨huser, hup, Text.trimSpace_trimSpace _, hdown, ?_⟩
  rw [prevUserGroup_newSubscription]
  split_ifs
  · exact .inr htrim
  · exact .inl Text.trimSpace_empty

variable {source : String}

/-- A purchase by another user. -/
theorem groupInv_create_other {userId : Int} (hne : u ≠ userId)
    (ht : createUserSubscriptionFromPlanTx zone σ userId plan source now = .commit sub σ') :
    GroupInv u g now σ' := by
  obtain ⟨-, ⟨endUnix, -, hsubs⟩, -, -, husers⟩ := createUserSubscriptionFromPlanTx_commit ht
  refine h.frame (fun s hs => ?_) ?_
  · rw [hsubs]
    show s ∈ σ.subs.rows ++ [_] ↔ _
    rw [mem_append, mem_singleton, or_iff_left]
    rintro rfl
    exact hne hs.symm
  · have hgroup : σ'.userGroup u = ((σ'.users.find? u).map User.group).getD "" := rfl
    rw [hgroup, husers]
    split_ifs
    · exact userGroup_setUserGroup_ne hne
    · rfl

/-- A purchase by the user, while no subscription of the user is active. -/
theorem groupInv_create (hg : g ≠ "") (htrim : trimSpace g = g) (hpos : 0 < now)
    (hup : trimSpace plan.upgradeGroup ≠ "") (hdown : trimSpace plan.downgradeGroup = "")
    (hidle : ∀ s ∈ σ.subs.rows, s.userId = u → s.status ≠ .active)
    (hend : ∀ e, calcPlanEndTime zone now plan = .ok e → now < e)
    (ht : createUserSubscriptionFromPlanTx zone σ u plan source now = .commit sub σ') :
    GroupInv u g now σ' := by
  obtain ⟨huser, ⟨endUnix, hcalc, hsubs⟩, -, -, husers⟩ :=
    createUserSubscriptionFromPlanTx_commit ht
  have hlt := hend endUnix hcalc
  -- the group is noted while no row is active, that is, when it is `g`
  have hgroup : σ.userGroup u = g := by
    rcases h.state with hst | ⟨e, he⟩
    · exact hst.group
    · exact absurd he.active (hidle e he.mem he.user)
  rw [hgroup] at hsubs husers
  have hrows : ∀ s, s ∈ σ'.subs.rows ↔
      s ∈ σ.subs.rows ∨ s = newSubscription zone u plan source g now endUnix σ.subs.seq := by
    intro s
    rw [hsubs]
    show s ∈ σ.subs.rows ++ [_] ↔ _
    rw [mem_append, mem_singleton]
  refine ⟨fun s hs hu => ?_, fun s hs hu hexp => ?_, .inr ⟨_, (hrows _).mpr (.inr rfl), rfl, rfl,
    fun s hs hu hactive => ?_, by show 0 < endUnix; omega, fun s hs hu hexp => ?_, ?_⟩⟩
  · rcases (hrows s).mp hs with hs | rfl
    · exact h.tidy s hs hu
    · exact tidy_newSubscription huser htrim hup hdown ..
  · rcases (hrows s).mp hs with hs | rfl
    · exact h.past s hs hu hexp
    · cases hexp
  · rcases (hrows s).mp hs with hs | rfl
    · exact absurd hactive (hidle s hs hu)
    · rfl
  · rcases (hrows s).mp hs with hs | rfl
    · exact lt_of_le_of_lt (h.past s hs hu hexp) hlt
    · cases hexp
  · have hgroup' : σ'.userGroup u = ((σ'.users.find? u).map User.group).getD "" := rfl
    rw [hgroup', husers, prevUserGroup_newSubscription]
    by_cases helev : elevates plan g
    · rw [if_pos helev, if_pos helev]
      exact .inr ⟨userGroup_setUserGroup (by rw [hgroup]; exact hg), htrim⟩
    · rw [if_neg helev]
      exact .inl hgroup

end GroupInv

/-! ### Runs -/

/-- Only purchases of plans that upgrade the user and have no downgrade group,
expiry, cancellation and deletion. -/
def InScope (u : Int) (σ : Store) : SubOp → Prop
  | .create userId planId _ _ => userId = u → ∀ plan ∈ σ.plans.find? planId,
      trimSpace plan.upgradeGroup ≠ "" ∧ trimSpace plan.downgradeGroup = ""
  | .expireDue .. => True
  | .invalidate .. => True
  | .delete .. => True
  | _ => False

instance InScope.decidable (u : Int) (σ : Store) : DecidablePred (InScope u σ) := fun _ => by
  unfold InScope; split <;> infer_instance

/-- The row belongs to the user. -/
def owns (u : Int) (σ : Store) (id : Int) : Prop := ∃ sub ∈ σ.subs.find? id, sub.userId = u
deriving Decidable

/-- The purchases of the user do not overlap and end in the future, expiry
reaches the user's overdue rows, and a row is cancelled or deleted only when no
other row of the user waits to be expired. -/
def BuysInTurn (zone u : Int) (σ : Store) : SubOp → Prop
  | .create userId planId _ now =>
    userId = u → (∀ sub ∈ σ.subs.rows, sub.userId = u → sub.status ≠ .active) ∧
        ∀ plan ∈ σ.plans.find? planId, ∀ e ∈ (calcPlanEndTime zone now plan).toOption, now < e
  | .expireDue limit now => ∀ sub ∈ σ.subs.rows, sub.userId = u → isOverdue now sub = true →
      u ∈ overdueUsers σ limit now
  | .invalidate id now =>
    owns u σ id → ∀ sub ∈ σ.subs.rows, sub.userId = u → sub.id ≠ id → isOverdue now sub = false
  | .delete id now =>
    owns u σ id → ∀ sub ∈ σ.subs.rows, sub.userId = u → sub.id ≠ id → isOverdue now sub = false
  | _ => True

instance BuysInTurn.decidable (zone u : Int) (σ : Store) : DecidablePred (BuysInTurn zone u σ) :=
  fun _ => by
  unfold BuysInTurn; split <;> infer_instance

/-- The call may end a subscription of the user. -/
def MayEnd (u : Int) (σ : Store) : SubOp → Prop
  | .expireDue .. => True
  | .invalidate id _ => owns u σ id
  | .delete id _ => owns u σ id
  | _ => False

instance MayEnd.decidable (u : Int) (σ : Store) : DecidablePred (MayEnd u σ) := fun _ => by
  unfold MayEnd; split <;> infer_instance

/-- After a call that may end a subscription of the user, the user is in group
`g` unless a live subscription still upgrades the group. -/
def GroupRestored (zone u : Int) (g : String) (w : World) (op : SubOp) : Prop :=
  MayEnd u w.store op → upgraded (w.step zone op).store u op.time = false →
    (w.step zone op).store.userGroup u = g
deriving Decidable

section

variable (h : GroupInv u g now σ)

include h

theorem restored_of_noOverdue (hno : NoOverdue u now σ)
    (hup : upgraded σ u now = false) : σ.userGroup u = g := by
  rcases h.state with hidle | ⟨e, he⟩
  · exact hidle.group
  · have hlive : isLive now e = true :=
      he.live (by rw [hno e he.mem he.user]; exact Bool.false_ne_true)
    have : upgraded σ u now = true :=
      upgraded_iff.mpr ⟨e, he.mem, he.user, hlive, (h.tidy e he.mem he.user).upgrade_ne⟩
    rw [hup] at this
    cases this

/-- Cancelling or deleting a row, as a transaction. -/
theorem groupInv_endTx {t : Tx Store String} (hg : g ≠ "")
    (hended : ∀ r σ', t = .commit r σ' → ∃ sub, sub.id = id ∧ Ended g now sub σ σ')
    (hcommit : owns u σ id → ∃ r σ', t = .commit r σ')
    (hwait : owns u σ id → ∀ s ∈ σ.subs.rows, s.userId = u → s.id ≠ id → isOverdue now s = false) :
    GroupInv u g now (t.after σ) ∧ (owns u σ id → NoOverdue u now (t.after σ)) := by
  have howns : ∀ {sub}, sub ∈ σ.subs.rows → sub.id = id → sub.userId = u → owns u σ id :=
    fun hmem hid hu => ⟨_, find?_eq_some.mpr ⟨hmem, hid⟩, hu⟩
  rcases t with ⟨r, σ'⟩ | e | _
  · obtain ⟨sub, hid, hend⟩ := hended r σ' rfl
    -- no other subscription of the user is overdue
    have hwait' : sub.userId = u → ∀ s ∈ σ.subs.rows, s.userId = u → s.id ≠ sub.id →
        isOverdue now s = false := fun hu => by
      rw [hid]
      exact hwait (howns hend.mem hid hu)
    refine ⟨groupInv_ended hg h hend hwait', fun hown s hs hu => ?_⟩
    obtain ⟨row, hrow, hrowu⟩ := hown
    have hsub : sub.userId = u := by
      rw [eq_of_key_eq hend.mem (mem_of_find? hrow) (hid.trans (key_of_find? hrow).symm)]
      exact hrowu
    rcases hend.rows s hs with ⟨hs, hne⟩ | rfl
    · exact hwait' hsub s hs hu hne
    · rfl
  · refine ⟨h, fun hown => ?_⟩
    obtain ⟨_, _, hc⟩ := hcommit hown
    cases hc
  · refine ⟨h, fun hown => ?_⟩
    obtain ⟨_, _, hc⟩ := hcommit hown
    cases hc

theorem invalidate_commits (hown : owns u σ id) :
    ∃ r σ', adminInvalidateUserSubscription σ id now = .commit r σ' := by
  obtain ⟨sub, hsub, hu⟩ := hown
  have hpos := (h.tidy sub (mem_of_find? hsub) hu).user_pos
  obtain ⟨target, σ', hdown⟩ :=
    @downgrade_ok (cancel sub now) (σ.saveSub (cancel sub now) []) hpos now
  have hid := pos_of_find? hsub
  refine ⟨groupMessage target, σ', ?_⟩
  unfold adminInvalidateUserSubscription
  rw [if_neg (not_le.mpr hid), mem_def.mp hsub]
  dsimp only
  rw [hdown]

theorem delete_commits (hown : owns u σ id) :
    ∃ r σ', adminDeleteUserSubscription σ id now = .commit r σ' := by
  obtain ⟨sub, hsub, hu⟩ := hown
  have hpos := (h.tidy sub (mem_of_find? hsub) hu).user_pos
  obtain ⟨target, σ', hdown⟩ := downgrade_ok σ hpos now
  have hid := pos_of_find? hsub
  refine ⟨groupMessage target, { σ' with subs := σ'.subs.delete id }, ?_⟩
  unfold adminDeleteUserSubscription
  rw [if_neg (not_le.mpr hid), mem_def.mp hsub]
  dsimp only
  rw [hdown]

end

/-- **One call** keeps the invariant and restores the group. -/
theorem groupInv_step {w : World} {op : SubOp} (hg : g ≠ "") (htrim : trimSpace g = g)
    (hclock : 0 < w.clock) (h : GroupInv u g w.clock w.store) (horder : w.InOrder op)
    (hscope : InScope u w.store op) (hseq : BuysInTurn zone u w.store op) :
    GroupInv u g op.time (w.step zone op).store ∧ GroupRestored zone u g w op := by
  have h := h.mono horder
  have hnow : 0 < op.time := lt_of_lt_of_le hclock horder
  cases op with
  | create userId planId source now =>
    refine ⟨?_, fun hend => hend.elim⟩
    show GroupInv u g now (SubOp.outcome zone w.store (.create userId planId source now)).1
    unfold SubOp.outcome
    dsimp only
    split
    · exact h
    · rename_i plan hplan
      have hplan := getSubscriptionPlanByIdTx_ok hplan
      refine Tx.after_invariant h fun sub σ' ht => ?_
      by_cases hu : userId = u
      · subst hu
        obtain ⟨hup, hdown⟩ := hscope rfl plan hplan
        obtain ⟨hidle, hend⟩ := hseq rfl
        refine groupInv_create h hg htrim hnow hup hdown hidle (fun e he => ?_) ht
        exact hend plan hplan e (by rw [he]; rfl)
      · exact groupInv_create_other h (fun h => hu h.symm) ht
  | expireDue limit now =>
    obtain ⟨hinv, hdue⟩ := groupInv_expireUsers h hg (overdueUsers w.store limit now)
    -- the page either has the user on it or leaves no row of the user overdue
    refine ⟨hinv, fun _ => restored_of_noOverdue hinv (hdue ?_)⟩
    by_cases hmem : u ∈ overdueUsers w.store limit now
    · exact .inl hmem
    · refine .inr fun s hs hu => ?_
      by_contra hne
      exact hmem (hseq s hs hu (Bool.eq_true_of_not_eq_false hne))
  | invalidate id now =>
    obtain ⟨hinv, hno⟩ :=
      groupInv_endTx h hg (fun _ _ => invalidate_ended) (invalidate_commits h) hseq
    exact ⟨hinv, fun hown => restored_of_noOverdue hinv (hno hown)⟩
  | delete id now =>
    obtain ⟨hinv, hno⟩ := groupInv_endTx h hg (fun _ _ => delete_ended) (delete_commits h) hseq
    exact ⟨hinv, fun hown => restored_of_noOverdue hinv (hno hown)⟩
  | _ => exact hscope.elim

/-- **Group elevation ends with the subscriptions**, in every run in which the
purchases of the user do not overlap. -/
theorem group_restored (zone u : Int) (g : String) (hg : g ≠ "") (htrim : trimSpace g = g)
    (w : World) (hclock : 0 < w.clock) (hnone : ∀ sub ∈ w.store.subs.rows, sub.userId ≠ u)
    (hgroup : w.store.userGroup u = g) (ops : List SubOp) (hops : Run.Along
      (fun w op => w.InOrder op ∧ InScope u w.store op ∧ BuysInTurn zone u w.store op)
      (World.step zone) w ops) :
    Run.Along (GroupRestored zone u g) (World.step zone) w ops := by
  have hstart : GroupInv u g w.clock w.store ∧ 0 < w.clock :=
    ⟨⟨fun s hs hu => absurd hu (hnone s hs), fun s hs hu => absurd hu (hnone s hs),
      .inl ⟨fun s hs hu => absurd hu (hnone s hs), hgroup⟩⟩, hclock⟩
  refine @Run.along_of_invariant _ _ _ _ _ w ops
    (fun w : World => GroupInv u g w.clock w.store ∧ 0 < w.clock) ?_ ?_ hstart hops
  · rintro w op ⟨hinv, hclock⟩ ⟨horder, hscope, hseq⟩
    exact ⟨(groupInv_step hg htrim hclock hinv horder hscope hseq).1, lt_of_lt_of_le hclock horder⟩
  · rintro w op ⟨hinv, hclock⟩ ⟨horder, hscope, hseq⟩
    exact (groupInv_step hg htrim hclock hinv horder hscope hseq).2

/-- A plan that makes its user a `vip` for a day. -/
def vipDay : Table SubscriptionPlan.id :=
  Table.empty.insert
    (fun id => { id, durationUnit := .day, durationValue := 1, totalAmount := 30,
                 upgradeGroup := "vip" }) fun _ => rfl

/-- Two purchases one after the other; the first expires, the second is
cancelled. -/
def oneAfterTheOther : List SubOp :=
  [.create 1 1 "order" 1000, .expireDue 0 90000, .create 1 1 "order" 100000, .invalidate 2 120000]

theorem group_restored_oneAfterTheOther :
    Run.Along (GroupRestored 0 1 "default") (World.step 0) (World.opening "default" vipDay)
      oneAfterTheOther :=
  group_restored 0 1 "default" (by decide) (by decide) _ (by decide) (by decide) (by decide)
    _ (by decide +kernel)

/-- A renewal before the first day is over. -/
def renewal : List SubOp :=
  [.create 1 1 "order" 1000, .create 1 1 "order" 50000, .expireDue 0 200000]

/-- The renewed subscription notes no group, and its user stays a `vip`. -/
theorem renewal_keeps_group :
    Run.Along (fun w op => w.InOrder op ∧ InScope 1 w.store op) (World.step 0)
        (World.opening "default" vipDay) renewal ∧
      ¬ Run.Along (GroupRestored 0 1 "default") (World.step 0) (World.opening "default" vipDay)
        renewal := by
  decide +kernel
