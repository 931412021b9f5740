/-
The cached user and the version of its security state.

A change that restricts a user raises the version of the row, in a transaction.  Three keys of Redis
keep a cached user of an older version from being served: before the change a fence announces the
next version, for as long as a cached user may live; after it the user is published, which raises a
floor for good.  A user below the fence or the floor is neither cached nor served from the cache.
Publishing is refused while the fence of another change is ahead of it, and then raises nothing.

* `UserAuthCache.step` — the statements and scripts of the calls, and the passing of time;
* `UserAuthCache.Unfenced` — no other change is announced when a change is published;
* `no_stale_user` — in every run of such steps, no user older than a published change is served;
* `refused_publish` — a change that is refused to be published.
-/
import AcuGateway.Lib.Expiring
import AcuGateway.Lib.Threads

/-! ### Rows and keys -/

structure UserFields where
  group : String
  email : String
  status : Int
  role : Int
  username : String
  setting : String

structure UserRow where
  fields : UserFields
  quota : Int
  authVersion : Int

/-- The hash of a cached user. -/
structure UserHash where
  fields : UserFields
  quota : Option Int
  authVersion : Int

/-- The fields that are refreshed one by one. -/
inductive CachedField
  | group (value : String)
  | email (value : String)
  | status (value : Int)
  | username (value : String)
  | setting (value : String)

def CachedField.write (fields : UserFields) : CachedField → UserFields
  | .group value => { fields with group := value }
  | .email value => { fields with email := value }
  | .status value => { fields with status := value }
  | .username value => { fields with username := value }
  | .setting value => { fields with setting := value }

structure UserCacheEnv where
  /-- `RedisKeyCacheSeconds`. -/
  cacheSeconds : Int
  /-- The database has row locks. -/
  locking : Bool

def UserCacheEnv.userCacheTTLSeconds (env : UserCacheEnv) : Int :=
  if env.cacheSeconds ≤ 0 then 60 else env.cacheSeconds

def UserCacheEnv.userAuthFenceTTLSeconds (env : UserCacheEnv) : Int :=
  env.userCacheTTLSeconds + max env.userCacheTTLSeconds 60

variable (i : Nat) (w : World)

namespace UserAuthCache

/-- What the calls share: the committed row, the earlier versions that a read without a lock may
still see, the lock on the row, the keys of Redis (a floor of 0 is not set) and the time in seconds;
the versions whose change was committed and published; and the users that were served, each as the
versions that were published before the call began and its own. -/
structure World where
  row : UserRow
  past : List Int
  locks : Locks Unit
  hash : Option (Expiring UserHash)
  fence : Option (Expiring Int)
  floor : Int
  clock : Int
  published : List Int
  served : List (List Int × Int)

inductive Call
  | idle
  -- `GetUserCache`, which began when `required` was published
  | looking (required : List Int)
  | cached (required : List Int) (hash : UserHash)
  | missed (required : List Int)
  | loaded (required : List Int) (user : UserRow)
  | checked (required : List Int) (user : UserRow)
  -- `updateUserCacheFieldAtVersion`
  | updating (field : CachedField) (authVersion : Int)
  -- `IncrementUserAuthVersionWithTx`, in a transaction that has set the version to `pending`
  | changing (retries : Nat) (pending : Option Int)
  | read (retries : Nat) (pending : Option Int) (current : Int)
  | fenced (retries : Nat) (pending : Option Int) (current : Int)
  | changed (pending : Option Int)
  -- `PublishUserAuthCache`, after a change of the version or for its own sake
  | committed (change : Option Int)
  | publishing (change : Option Int) (user : UserRow)
  | returned

inductive Act
  | tick (duration : Nat)
  | getUserCache
  | updateField (field : CachedField) (authVersion : Int)
  | begin
  | publish
  | next
  | readVersion (version : Nat)
  | commit (fields : UserFields)
  | rollback

/-! ### Scripts -/

namespace World

variable (env : UserCacheEnv) (w : World)

def pending : Int := (Expiring.get w.fence w.clock).getD 0

def current : Int := ((Expiring.get w.hash w.clock).map UserHash.authVersion).getD 0

/-- `getUserAuthVersionFloor`. -/
def authVersionFloor : Int := max w.pending w.floor

/-- A user of this version may be cached. -/
def Admits (incoming : Int) : Prop :=
  ¬ (incoming < w.pending ∨ incoming < w.floor ∨ incoming < w.current)
deriving Decidable

/-- The floor is raised to a version, and a fence that it has reached is removed. -/
def raise (incoming : Int) : World :=
  { w with
    floor := max w.floor incoming
    fence := if 0 < w.pending ∧ w.pending ≤ incoming then none else w.fence }

/-- The script of `writeUserCache`, and whether it was accepted. -/
def writeUserCache (user : UserRow) (includeQuota : Bool) : World × Bool :=
  if ¬ w.Admits user.authVersion then (w, false)
  else if includeQuota = false ∧ Expiring.get w.hash w.clock = none then
    (w.raise user.authVersion, true)
  else
    let quota := (Expiring.get w.hash w.clock).bind UserHash.quota
    ({ w.raise user.authVersion with
        hash :=
          some ⟨⟨user.fields, if includeQuota then some (quota.getD user.quota)
            else quota, user.authVersion⟩, w.clock + env.userCacheTTLSeconds⟩ },
      true)

/-- The script of `updateUserCacheFieldAtVersion`. -/
def updateUserCacheFieldAtVersion (field : CachedField) (authVersion : Int) : World :=
  if ¬ w.Admits authVersion then w
  else if w.current ≠ authVersion then w.raise authVersion
  else
    { w.raise authVersion with
      hash := w.hash.map fun entry =>
        { entry with value := { entry.value with fields := field.write entry.value.fields } } }

/-- The script of `SetUserAuthVersionFence`. -/
def setUserAuthVersionFence (authVersion : Int) : World :=
  if w.pending ≤ authVersion then
    { w with fence := some ⟨authVersion, w.clock + env.userAuthFenceTTLSeconds⟩ }
  else w

end World

/-! ### Calls -/

/-- The version after `current`; a row that has none yet counts as one of version 1. -/
def nextVersion (current : Int) : Int := max current 1 + 1

def serve (required : List Int) (authVersion : Int) : World :=
  { w with served := (required, authVersion) :: w.served }

/-- A statement that has to wait for a lock leaves everything as it is. -/
def step (env : UserCacheEnv) (i : Nat) (w : World) : Call → Act → World × Call
  | call, .tick duration => ({ w with clock := w.clock + duration }, call)
  | .idle, .getUserCache => (w, .looking w.published)
  | .looking required, .next =>
    match Expiring.get w.hash w.clock with
    | none => (w, .missed required)
    | some hash =>
      if hash.authVersion ≤ 0 then (w, .missed required) else (w, .cached required hash)
  | .cached required hash, .next =>
    if hash.authVersion < w.authVersionFloor then (w, .missed required)
    else (serve w required hash.authVersion, .returned)
  | .missed required, .next => (w, .loaded required w.row)
  | .loaded required user, .next =>
    if user.authVersion < w.authVersionFloor then (w, .returned) else (w, .checked required user)
  | .checked required user, .next =>
    -- a user without a version is not cached, but served
    if user.authVersion ≤ 0 then (serve w required user.authVersion, .returned)
    else if (w.writeUserCache env user true).2 = false then (w, .returned)
    else (serve (w.writeUserCache env user true).1 required user.authVersion, .returned)
  | .idle, .updateField field authVersion =>
    if authVersion ≤ 0 then (w, .returned) else (w, .updating field authVersion)
  | .updating field authVersion, .next =>
    (w.updateUserCacheFieldAtVersion field authVersion, .returned)
  | .idle, .begin => (w, .changing 3 none)
  | .changed pending, .begin => (w, .changing 3 pending)
  | .changing 0 pending, .next => (w, .changed pending)
  | .changing (retries + 1) pending, .readVersion version =>
    if env.locking = true then
      if w.locks.Free i () then
        ({ w with locks := w.locks.take i () },
          .read retries pending (pending.getD w.row.authVersion))
      else (w, .changing (retries + 1) pending)
    else (w, .read retries pending (pending.getD (w.past.getD version w.row.authVersion)))
  | .read retries pending current, .next =>
    (w.setUserAuthVersionFence env (nextVersion current), .fenced retries pending current)
  | .fenced retries pending current, .next =>
    if ¬ w.locks.Free i () then (w, .fenced retries pending current)
    else if pending.getD w.row.authVersion = current then
      ({ w with locks := w.locks.take i () }, .changed (some (nextVersion current)))
    else (w, .changing retries pending)
  | .changed pending, .commit fields =>
    match pending with
    | none => ({ w with locks := w.locks.release i }, .returned)
    | some authVersion =>
      ({ w with
          row := { w.row with fields, authVersion }
          past := w.past ++ [w.row.authVersion]
          locks := w.locks.release i },
        .committed (some authVersion))
  | .changing _ _, .rollback => ({ w with locks := w.locks.release i }, .returned)
  | .read .., .rollback => ({ w with locks := w.locks.release i }, .returned)
  | .fenced .., .rollback => ({ w with locks := w.locks.release i }, .returned)
  | .changed _, .rollback => ({ w with locks := w.locks.release i }, .returned)
  | .idle, .publish => (w, .committed none)
  | .committed change, .next => (w, .publishing change w.row)
  | .publishing change user, .next =>
    let written := if user.authVersion ≤ 0 then w else (w.writeUserCache env user false).1
    ({ written with published := change.toList ++ w.published }, .returned)
  | call, _ => (w, call)

/-! ### What holds at all times -/

/-- No user was served that is older than a change published before the call began. -/
def NoneStale : Prop := ∀ user ∈ w.served, ∀ v ∈ user.1, v ≤ user.2
deriving Decidable

/-- The user with which a step publishes a change. -/
def publishes : Call → Act → Option UserRow
  | .publishing (some _) user, .next => some user
  | _, _ => none

/-- No change beyond the published user is announced. -/
def Unfenced (_ : Nat) (w : World) (call : Call) (a : Act) : Prop :=
  ∀ user ∈ publishes call a, w.pending ≤ user.authVersion
deriving Decidable

structure Inv (w : World) : Prop where
  stored : ∀ entry ∈ w.hash, entry.value.authVersion ≤ w.floor
  floor : ∀ v ∈ w.published, v ≤ w.floor
  row : ∀ v ∈ w.published, v ≤ w.row.authVersion
  fresh : NoneStale w

/-- A transaction that has raised the version keeps the others from doing so. -/
def Raising (pending : Option Int) : Prop :=
  ∀ v ∈ pending, w.locks () = some i ∧ w.row.authVersion < v ∧ 0 < v

/-- What a call knows. -/
def Own : Call → Prop
  | .looking required | .cached required _ | .missed required => ∀ v ∈ required, v ∈ w.published
  | .loaded required user | .checked required user => ∀ v ∈ required, v ≤ user.authVersion
  | .changing _ pending | .read _ pending _ | .fenced _ pending _ | .changed pending =>
    Raising i w pending
  | .committed change => ∀ v ∈ change, v ≤ w.row.authVersion ∧ 0 < v
  | .publishing change user => ∀ v ∈ change, v ≤ w.row.authVersion ∧ 0 < v ∧ v ≤ user.authVersion
  | _ => True

/-- What a step of call `i` leaves to the others. -/
structure Frame (i : Nat) (w w' : World) : Prop where
  published : ∀ v ∈ w.published, v ∈ w'.published
  row : w.row.authVersion ≤ w'.row.authVersion
  locked : ∀ j, j ≠ i → w.locks () = some j → w'.locks () = some j ∧ w'.row = w.row

section Steps

variable {env : UserCacheEnv} {i j : Nat} {w w' : World}

theorem Frame.of_same (hpublished : w'.published = w.published) (hrow : w'.row = w.row)
    (hlocks : w'.locks = w.locks) :
    Frame i w w' where
  published v hv := by rwa [hpublished]
  row := Int.le_of_eq (by rw [hrow])
  locked j _ hlock := ⟨by rwa [hlocks], hrow⟩

theorem Frame.release : Frame i w { w with locks := w.locks.release i } where
  published _ hv := hv
  row := Int.le_refl _
  locked _ hj hlock := ⟨Locks.release_of_ne hj hlock, rfl⟩

theorem Frame.take (hfree : w.locks.Free i ()) :
    Frame i w { w with locks := w.locks.take i () } where
  published _ hv := hv
  row := Int.le_refl _
  locked _ hj hlock := ⟨Locks.take_of_ne hfree hj hlock, rfl⟩

variable {pending : Option Int}

theorem Raising.frame (hj : j ≠ i) (hframe : Frame i w w') (h : Raising j w pending) :
    Raising j w' pending := by
  intro v hv
  obtain ⟨hlock, hnew⟩ := h v hv
  obtain ⟨hlock', hrow⟩ := hframe.locked j hj hlock
  exact ⟨hlock', by rw [hrow]; exact hnew⟩

variable {call : Call} {user : UserRow} {authVersion : Int} {required : List Int}

/-- What another call knows stays true. -/
theorem Own.frame (hj : j ≠ i) (hframe : Frame i w w') (h : Own j w call) : Own j w' call := by
  cases call with
  | looking required => exact fun v hv => hframe.published v (h v hv)
  | cached required hash => exact fun v hv => hframe.published v (h v hv)
  | missed required => exact fun v hv => hframe.published v (h v hv)
  | changing retries pending => exact Raising.frame hj hframe h
  | read retries pending current => exact Raising.frame hj hframe h
  | fenced retries pending current => exact Raising.frame hj hframe h
  | changed pending => exact Raising.frame hj hframe h
  | committed change => exact fun v hv => ⟨Int.le_trans (h v hv).1 hframe.row, (h v hv).2⟩
  | publishing change user => exact fun v hv => ⟨Int.le_trans (h v hv).1 hframe.row, (h v hv).2⟩
  | loaded required user => exact h
  | checked required user => exact h
  | idle | updating | returned => trivial

/-! ### What the scripts do -/

/-- A version below the one that is cached is below the floor. -/
theorem Inv.lt_floor (h : Inv w) {v : Int} (hpos : 0 < v) (hlt : v < w.current) : v < w.floor := by
  unfold World.current at hlt
  cases hget : Expiring.get w.hash w.clock with
  | none =>
    rw [hget] at hlt
    exact absurd hlt (Int.not_lt.mpr (Int.le_of_lt hpos))
  | some hash =>
    rw [hget] at hlt
    obtain ⟨expiresAt, hhash, -⟩ := Expiring.get_eq_some.mp hget
    exact Int.lt_of_lt_of_le hlt (h.stored ⟨hash, expiresAt⟩ hhash)

theorem Inv.raise (h : Inv w) (incoming : Int) : Inv (w.raise incoming) where
  stored entry hentry := Int.le_trans (h.stored entry hentry) (Int.le_max_left ..)
  floor v hv := Int.le_trans (h.floor v hv) (Int.le_max_left ..)
  row := h.row
  fresh := h.fresh

/-- A hash of the version that the floor has been raised to. -/
theorem Inv.store (h : Inv w) {incoming : Int} {hash : Option (Expiring UserHash)}
    (hhash : ∀ entry ∈ hash, entry.value.authVersion ≤ max w.floor incoming) :
    Inv { w.raise incoming with hash } :=
  ⟨hhash, (h.raise incoming).floor, h.row, h.fresh⟩

variable {includeQuota : Bool}

theorem writeUserCache_refused (h : ¬ w.Admits user.authVersion) :
    w.writeUserCache env user includeQuota = (w, false) := if_pos h

theorem writeUserCache_admitted (h : w.Admits user.authVersion) :
    ∃ hash, w.writeUserCache env user includeQuota =
      ({ w.raise user.authVersion with hash }, true) ∧
      ∀ entry ∈ hash, entry ∈ w.hash ∨ entry.value.authVersion = user.authVersion := by
  unfold World.writeUserCache
  rw [if_neg (not_not_intro h)]
  split_ifs with hnone hquota
  · exact ⟨w.hash, rfl, fun _ hentry => .inl hentry⟩
  all_goals
    refine ⟨_, rfl, fun entry hentry => .inr ?_⟩
    cases hentry
    rfl

theorem Inv.writeUserCache (h : Inv w) (user : UserRow) (includeQuota : Bool) :
    Inv (w.writeUserCache env user includeQuota).1 := by
  by_cases hadmits : w.Admits user.authVersion
  · obtain ⟨hash, heq, hhash⟩ := writeUserCache_admitted hadmits
    rw [heq]
    refine h.store fun entry hentry => ?_
    rcases hhash entry hentry with hold | hnew
    · exact Int.le_trans (h.stored entry hold) (Int.le_max_left ..)
    · rw [hnew]
      exact Int.le_max_right ..
  · rw [writeUserCache_refused hadmits]
    exact h

theorem Frame.writeUserCache (user : UserRow) (includeQuota : Bool) :
    Frame i w (w.writeUserCache env user includeQuota).1 := by
  by_cases hadmits : w.Admits user.authVersion
  · obtain ⟨hash, heq, -⟩ := writeUserCache_admitted hadmits
    rw [heq]
    exact .of_same rfl rfl rfl
  · rw [writeUserCache_refused hadmits]
    exact .of_same rfl rfl rfl

theorem published_writeUserCache :
    (w.writeUserCache env user includeQuota).1.published = w.published := by
  unfold World.writeUserCache
  split_ifs
  all_goals rfl

/-- Only the fence keeps a published user from raising the floor. -/
theorem Inv.le_floor (h : Inv w) (hpos : 0 < user.authVersion)
    (hfence : w.pending ≤ user.authVersion) :
    user.authVersion ≤ (w.writeUserCache env user false).1.floor := by
  by_cases hadmits : w.Admits user.authVersion
  · obtain ⟨hash, heq, -⟩ := writeUserCache_admitted hadmits
    rw [heq]
    exact Int.le_max_right ..
  · rw [writeUserCache_refused hadmits]
    rcases not_not.mp hadmits with hpending | hfloor | hcurrent
    · exact absurd hpending (Int.not_lt.mpr hfence)
    · exact Int.le_of_lt hfloor
    · exact Int.le_of_lt (h.lt_floor hpos hcurrent)

theorem Inv.updateUserCacheFieldAtVersion (h : Inv w) (field : CachedField) (authVersion : Int) :
    Inv (w.updateUserCacheFieldAtVersion field authVersion) := by
  unfold World.updateUserCacheFieldAtVersion
  split_ifs with hadmits hother
  · exact h.raise authVersion
  · refine h.store fun entry hentry => ?_
    obtain ⟨old, hold, rfl⟩ := Option.map_eq_some_iff.mp hentry
    exact Int.le_trans (h.stored old hold) (Int.le_max_left ..)
  · exact h

theorem Frame.updateUserCacheFieldAtVersion (field : CachedField) (authVersion : Int) :
    Frame i w (w.updateUserCacheFieldAtVersion field authVersion) := by
  unfold World.updateUserCacheFieldAtVersion
  split_ifs
  all_goals exact .of_same rfl rfl rfl

theorem setUserAuthVersionFence_eq :
    ∃ fence, w.setUserAuthVersionFence env authVersion = { w with fence } := by
  unfold World.setUserAuthVersionFence
  split_ifs
  · exact ⟨_, rfl⟩
  · exact ⟨w.fence, rfl⟩

/-! ### What a step does -/

/-- A step keeps the invariant, and what it does to the call and to the others. -/
structure Spec (i : Nat) (w : World) (result : World × Call) : Prop where
  inv : Inv result.1
  own : Own i result.1 result.2
  frame : Frame i w result.1

theorem spec_same (h : Inv w) (hown : Own i w call) : Spec i w (w, call) :=
  ⟨h, hown, .of_same rfl rfl rfl⟩

theorem Inv.serve (h : Inv w) (hfresh : ∀ v ∈ required, v ≤ authVersion) :
    Inv (serve w required authVersion) := by
  refine ⟨h.stored, h.floor, h.row, fun user huser => ?_⟩
  rcases List.mem_cons.mp huser with rfl | huser
  · exact hfresh
  · exact h.fresh user huser

theorem spec_serve (h : Inv w) (hfresh : ∀ v ∈ required, v ≤ authVersion) :
    Spec i w (serve w required authVersion, .returned) :=
  ⟨h.serve hfresh, trivial, .of_same rfl rfl rfl⟩

theorem spec_release (h : Inv w) : Spec i w ({ w with locks := w.locks.release i }, .returned) :=
  ⟨⟨h.stored, h.floor, h.row, h.fresh⟩, trivial, .release⟩

theorem lt_nextVersion (current : Int) :
    current < nextVersion current ∧ 0 < nextVersion current := by
  unfold nextVersion
  omega

/-- The row is locked and its version raised. -/
theorem spec_raise (h : Inv w) {current : Int} (hown : Raising i w pending)
    (hfree : w.locks.Free i ()) (hcurrent : pending.getD w.row.authVersion = current) :
    Spec i w ({ w with locks := w.locks.take i () }, .changed (some (nextVersion current))) where
  inv := ⟨h.stored, h.floor, h.row, h.fresh⟩
  own := by
    intro v hv
    cases hv
    obtain ⟨hlt, hpos⟩ := lt_nextVersion current
    refine ⟨Locks.take_self w.locks i (), ?_, hpos⟩
    cases pending with
    | none => exact Int.lt_of_le_of_lt (Int.le_of_eq hcurrent) hlt
    | some v =>
      have hrow := (hown v rfl).2.1
      exact Int.lt_trans (Int.lt_of_lt_of_le hrow (Int.le_of_eq hcurrent)) hlt
  frame := .take hfree

theorem spec_commit (h : Inv w) (hown : Raising i w (some authVersion)) (fields : UserFields) :
    Spec i w
      ({ w with
          row := { w.row with fields, authVersion }
          past := w.past ++ [w.row.authVersion]
          locks := w.locks.release i },
        .committed (some authVersion)) := by
  obtain ⟨hlock, hlt, hpos⟩ := hown authVersion rfl
  have hrow : ∀ v ∈ w.published, v ≤ authVersion :=
    fun v hv => Int.le_trans (h.row v hv) (Int.le_of_lt hlt)
  refine ⟨⟨h.stored, h.floor, hrow, h.fresh⟩, ?_, fun _ hv => hv, Int.le_of_lt hlt, ?_⟩
  · intro v hv
    cases hv
    exact ⟨Int.le_refl _, hpos⟩
  -- nobody else has locked the row
  · intro j hj hother
    exact absurd (Locks.owner_unique hlock hother) hj

theorem spec_publish (h : Inv w) {change : Option Int} {written : World}
    (hwritten : written = if user.authVersion ≤ 0 then w else (w.writeUserCache env user false).1)
    (hown : Own i w (.publishing change user))
    (hfence : change ≠ none → w.pending ≤ user.authVersion) :
    Spec i w ({ written with published := change.toList ++ w.published }, .returned) := by
  have hkept : Inv written ∧ Frame i w written ∧ written.published = w.published := by
    rw [hwritten]
    split_ifs
    · exact ⟨h, .of_same rfl rfl rfl, rfl⟩
    · exact ⟨h.writeUserCache user false, .writeUserCache user false, published_writeUserCache⟩
  obtain ⟨hinv, hframe, hpublished⟩ := hkept
  -- the change that is published is below the floor from now on
  have hfloor : ∀ v ∈ change, v ≤ written.floor := by
    intro v hv
    obtain ⟨-, hpos, hle⟩ := hown v hv
    have huser : 0 < user.authVersion := Int.lt_of_lt_of_le hpos hle
    rw [hwritten, if_neg (Int.not_le.mpr huser)]
    refine Int.le_trans hle (h.le_floor huser (hfence ?_))
    rw [Option.mem_def.mp hv]
    exact Option.some_ne_none v
  refine ⟨⟨hinv.stored, ?_, ?_, hinv.fresh⟩, trivial, ?_, hframe.row, hframe.locked⟩
  · intro v hv
    rcases List.mem_append.mp hv with hnew | hold
    · exact hfloor v (Option.mem_toList.mp hnew)
    · exact hinv.floor v (by rwa [hpublished])
  · intro v hv
    rcases List.mem_append.mp hv with hnew | hold
    · exact Int.le_trans (hown v (Option.mem_toList.mp hnew)).1 hframe.row
    · exact hinv.row v (by rwa [hpublished])
  · intro v hv
    exact List.mem_append_right _ hv

theorem step_spec {a : Act} (h : Inv w) (hown : Own i w call) (hunfenced : Unfenced i w call a) :
    Spec i w (step env i w call a) := by
  unfold step
  split
  -- time passes, which is as good as the step of another call
  · rename_i duration
    have hframe : ∀ k, Frame k w { w with clock := w.clock + duration } :=
      fun _ => .of_same rfl rfl rfl
    exact ⟨⟨h.stored, h.floor, h.row, h.fresh⟩,
      Own.frame (Nat.succ_ne_self i).symm (hframe (i + 1)) hown, hframe i⟩
  -- `GetUserCache`
  · exact spec_same h fun _ hv => hv
  · split
    · exact spec_same h hown
    · split_ifs
      · exact spec_same h hown
      · exact spec_same h hown
  · rename_i required hash
    split_ifs with hstale
    · exact spec_same h hown
    · refine spec_serve h fun v hv => ?_
      have hfloor := h.floor v (hown v hv)
      have := Int.le_max_right w.pending w.floor
      unfold World.authVersionFloor at hstale
      omega
  · exact spec_same h fun v hv => h.row v (hown v hv)
  · split_ifs
    · exact spec_same h trivial
    · exact spec_same h hown
  · rename_i required user
    split_ifs
    · exact spec_serve h hown
    · exact spec_same h trivial
    · have hframe : Frame i w (w.writeUserCache env user true).1 := .writeUserCache user true
      exact ⟨(h.writeUserCache user true).serve hown, trivial, hframe.published, hframe.row,
        hframe.locked⟩
  -- `updateUserCacheFieldAtVersion`
  · split_ifs
    · exact spec_same h trivial
    · exact spec_same h trivial
  · rename_i field authVersion
    exact ⟨h.updateUserCacheFieldAtVersion field authVersion, trivial,
      .updateUserCacheFieldAtVersion field authVersion⟩
  -- `IncrementUserAuthVersionWithTx`
  · exact spec_same h fun _ hv => nomatch hv
  · exact spec_same h hown
  · exact spec_same h hown
  · rename_i retries pending version
    split_ifs with hlocking hfree
    · refine ⟨⟨h.stored, h.floor, h.row, h.fresh⟩, fun v hv => ?_, .take hfree⟩
      exact ⟨Locks.take_self w.locks i (), (hown v hv).2⟩
    · exact spec_same h hown
    · exact spec_same h hown
  · rename_i retries pending current
    obtain ⟨fence, heq⟩ := setUserAuthVersionFence_eq
    rw [heq]
    exact ⟨⟨h.stored, h.floor, h.row, h.fresh⟩, hown, .of_same rfl rfl rfl⟩
  · rename_i retries pending current
    split_ifs with hfree hcurrent
    · exact spec_raise h hown hfree hcurrent
    · exact spec_same h hown
    · exact spec_same h hown
  · rename_i pending fields
    cases pending with
    | none => exact spec_release h
    | some authVersion => exact spec_commit h hown fields
  · exact spec_release h
  · exact spec_release h
  · exact spec_release h
  · exact spec_release h
  -- `PublishUserAuthCache`
  · exact spec_same h fun _ hv => nomatch hv
  · exact spec_same h fun v hv => ⟨(hown v hv).1, (hown v hv).2, (hown v hv).1⟩
  · rename_i change user
    refine spec_publish h rfl hown fun hsome => ?_
    obtain ⟨v, rfl⟩ := Option.ne_none_iff_exists'.mp hsome
    exact hunfenced user rfl
  · exact spec_same h hown

theorem kept : Threads.Kept (step env) Unfenced Inv Own where
  inv h hown ha := (step_spec h hown ha).inv
  own h hown ha := (step_spec h hown ha).own
  others hj h hown ha hother := hother.frame hj (step_spec h hown ha).frame

end Steps

/-- A row, nothing in Redis and no call under way. -/
def start (row : UserRow) (clock : Int) : Threads World Call where
  shared := ⟨row, [], Locks.none, none, none, 0, clock, [], []⟩
  thread _ := .idle

theorem start_holds (row : UserRow) (clock : Int) : Threads.Holds Inv Own (start row clock) where
  inv := by
    refine ⟨?_, ?_, ?_, ?_⟩
    all_goals
      intro _ h
      cases h
  own _ := trivial

/-- What the calls share after a run. -/
def after (env : UserCacheEnv) (row : UserRow) (clock : Int) (run : List (Nat × Act)) : World :=
  (Run.exec (Threads.step (step env)) (start row clock) run).shared

end UserAuthCache

open UserAuthCache

/-- The state after any part of a run is the state after a run. -/
theorem no_stale_user (env : UserCacheEnv) (row : UserRow) (clock : Int)
    (run : List (Nat × UserAuthCache.Act))
    (hrun : Run.Along (Threads.Allowed UserAuthCache.Unfenced) (Threads.step (step env))
      (start row clock) run) :
    UserAuthCache.NoneStale (after env row clock run) :=
  (kept.exec_holds (start_holds row clock) hrun).inv.fresh

namespace UserAuthCache

def minuteEnv : UserCacheEnv where
  cacheSeconds := 60
  locking := true

def enabledFields : UserFields := ⟨"default", "", 1, 1, "user", ""⟩

def disabledFields : UserFields := { enabledFields with status := 2 }

def enabledRow : UserRow := ⟨enabledFields, 0, 1⟩

/-- A transaction that raises the version, up to its decision. -/
def change : List (Nat × Act) := [(i, .begin), (i, .readVersion 0), (i, .next), (i, .next)]

def commitAndPublish : List (Nat × Act) := [(i, .commit disabledFields), (i, .next), (i, .next)]

/-- A call that finds nothing in the cache and loads the row. -/
def load : List (Nat × Act) := [(i, .getUserCache), (i, .next), (i, .next)]

/-- The user that was loaded is checked and cached. -/
def fill : List (Nat × Act) := [(i, .next), (i, .next)]

/-- A call that finds a user in the cache. -/
def lookup : List (Nat × Act) := [(i, .getUserCache), (i, .next), (i, .next)]

end UserAuthCache

theorem no_stale_user_delayed_fill : NoneStale (after minuteEnv enabledRow 0
      (load 0 ++ change 1 ++ commitAndPublish 1 ++ fill 0 ++ load 2 ++ fill 2)) :=
  no_stale_user minuteEnv enabledRow 0 _ (by decide +kernel)

/-- The user is disabled while a second change has announced itself.  That one is rolled back and
its fence expires; then a call that had loaded the enabled user caches it, and the next call serves
it. -/
theorem refused_publish : (after minuteEnv enabledRow 0 (load 0 ++ change 1 ++
          [(1, .commit disabledFields), (2, .begin), (2, .readVersion 0), (2, .next), (1, .next),
            (1, .next), (2, .rollback), (2, .tick 120)] ++
          fill 0 ++ lookup 3)).served = [([2], 1), ([], 1)] ∧
      ¬ NoneStale (after minuteEnv enabledRow 0 (load 0 ++ change 1 ++
          [(1, .commit disabledFields), (2, .begin), (2, .readVersion 0), (2, .next), (1, .next),
            (1, .next), (2, .rollback), (2, .tick 120)] ++
          fill 0 ++ lookup 3)) := by
  constructor
  · decide +kernel
  · decide +kernel
