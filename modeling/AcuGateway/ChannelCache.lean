/-
The channels in memory.

With the memory cache on, requests are served from a copy of the table of channels, together with an
index from a group and a model to the enabled channels that serve it.  A change of status reaches
the copy at once: a channel that is disabled is taken out of the lists of the index, and for a key
of a channel with many keys its position is marked.  Both stop at the first match, so a channel that
lists a model twice stays in the index once, and a key that is given twice stays in use.

* `ChannelCache.step` — changes of status, and the choice of keys;
* `ChannelCache.Unrepeated` — the lists of the channel, or the keys, do not repeat what is disabled;
* `disabled_never_used` — in every run of such steps;
* `listed_twice` — a disabled channel, and a disabled key, that are used.
-/
import AcuGateway.Channel
import AcuGateway.Lib.Draw
import AcuGateway.Lib.Run

open List Option
open Text (trimSpace lower)

/-- `channelsIDM`, `group2model2channels` and `channel2advancedCustomConfig`. -/
structure ChannelCache where
  channels : Int → Option Channel
  index : String → String → List Int
  configs : Int → Option (List AdvancedCustomRoute)

def channelMatchesRequiredTag (channel : Channel) (requiredTag : String) : Bool :=
  trimSpace requiredTag = "" || lower (trimSpace channel.getTag) = lower (trimSpace requiredTag)

namespace ChannelCache

variable (env : ChannelEnv) (cache : ChannelCache)

/-! ### Loading -/

/-- The ids of a channel in the list for a group and a model, once for each time it lists both. -/
def listings (group model : String) (channel : Channel) : List Int :=
  channel.groupNames.flatMap fun g => channel.modelNames.flatMap fun m =>
    if g = group ∧ m = model then [channel.id] else []

variable (channels : Table Channel.id)

/-- The index of the enabled channels; the list of a group and a model is sorted by priority. -/
def indexOf (group model : String) : List Int :=
  ((channels.rows.filter fun channel => channel.status = .enabled).flatMap
    (listings group model)).insertionSort
    fun a b => ((channels.find? a).map Channel.priority).getD 0 ≥
      ((channels.find? b).map Channel.priority).getD 0

/-- A channel that is polled for its keys goes on where it was. -/
def keepPolling (old : Option Channel) (channel : Channel) : Channel :=
  match old with
  | some before =>
    if (channel.channelInfo.isMultiKey = true ∧ channel.channelInfo.multiKeyMode = .polling) ∧
        before.channelInfo.isMultiKey = true ∧ before.channelInfo.multiKeyMode = .polling then
      { channel with
        channelInfo :=
          { channel.channelInfo with multiKeyPollingIndex :=
            before.channelInfo.multiKeyPollingIndex } }
    else channel
  | none => channel

/-- `InitChannelCache`.  A group that no ability has is not in the index, and storing a list for it
fails. -/
def initChannelCache (abilities : List Ability) : Option ChannelCache :=
  if ∀ channel ∈ channels.rows, channel.status = .enabled →
      ∀ group ∈ channel.groupNames, group ∈ abilities.map Ability.group then
    some
      { channels := fun id => (channels.find? id).map (keepPolling (cache.channels id))
        index := indexOf channels
        configs := fun id => (channels.find? id).bind fun channel =>
          if channel.type = .advancedCustom then channel.advancedCustom else none }
  else none

/-! ### Choosing a channel -/

def allowsPath (requestPath model : String) (id : Int) : Bool :=
  match cache.channels id with
  | none => true
  | some channel =>
    if channel.isACURouter then channel.supportsRequestPath env requestPath model
    else if channel.type ≠ .advancedCustom then true
    else
      match cache.configs id with
      | none => false
      | some routes => env.supportsPathForModel routes requestPath model

variable (channels : List Int)

def filterChannelsByRequestPathAndModel (requestPath model : String) : List Int :=
  if requestPath = "" then channels else channels.filter (cache.allowsPath env requestPath model)

variable (requiredTag : String)

def allowsTag (id : Int) : Bool :=
  match cache.channels id with
  | none => true
  | some channel => channelMatchesRequiredTag channel requiredTag

def filterChannelsByRequiredTag : List Int :=
  if trimSpace requiredTag = "" then channels else channels.filter (cache.allowsTag requiredTag)

/-- The channels of a group that list a model under a name, as far as they fit the request. -/
def candidates (group name model requestPath requiredTag : String) : List Int :=
  cache.filterChannelsByRequiredTag
    (cache.filterChannelsByRequestPathAndModel env (cache.index group name) requestPath model)
      requiredTag

def missing (id : Int) : String := s!"数据库一致性错误，渠道# {id} 不存在，请联系管理员修复"

/-- One of the channels, each as often as its weight says; where the weights are small they are
scaled up, and where there are none all count the same. -/
def chooseByWeight (targetChannels : List Channel) (random : Nat) : Option Channel :=
  let sumWeight := (targetChannels.map Channel.weight).foldr (· + ·) 0
  let smoothingFactor := if sumWeight ≠ 0 ∧ sumWeight / targetChannels.length < 10 then 100 else 1
  let smoothingAdjustment := if sumWeight = 0 then 100 else 0
  let totalWeight := (if sumWeight = 0 then targetChannels.length * 100 else sumWeight) *
    smoothingFactor
  Draw.draw 0
    (targetChannels.map fun channel =>
      (channel, ((channel.weight * smoothingFactor + smoothingAdjustment : Nat) : Int)))
    (random % totalWeight : Nat)

/-- One of the channels with the priority of the attempt. -/
def chooseByPriority (channels : List Channel) (retry random : Nat) :
    Except String (Option Channel) :=
  match Draw.level (channels.map Channel.priority) retry with
  | none => .error "no channel found"
  | some targetPriority =>
    match chooseByWeight (channels.filter fun channel => channel.priority = targetPriority)
        random with
    | some channel => .ok (some channel)
    | none => .error "channel not found"

def choose (retry random : Nat) : Except String (Option Channel) :=
  match channels with
  | [] => .ok none
  | [id] =>
    match cache.channels id with
    | some channel => .ok (some channel)
    | none => .error (missing id)
  | _ =>
    match channels.find? fun id => (cache.channels id).isNone with
    | some id => .error (missing id)
    | none => chooseByPriority (channels.filterMap cache.channels) retry random

/-- `GetRandomSatisfiedChannel`, for one outcome of the random choice. -/
def getRandomSatisfiedChannel (group model : String) (retry : Nat)
    (requestPath requiredTag : String) (random : Nat) :
    Except String (Option Channel) :=
  let exact := cache.candidates env group model model requestPath requiredTag
  if exact = [] then
    cache.choose
      (cache.candidates env group (formatMatchingModelName model) model requestPath requiredTag)
        retry random
  else cache.choose exact retry random

/-! ### Keys -/

variable (channel : Channel)

/-- The status of the key at a position. -/
def keyStatus (i : Nat) : ChannelStatus :=
  (channel.channelInfo.multiKeyStatusList.lookup i).getD .enabled

def enabledKeys : List Nat :=
  (List.range (channel.getKeys env).length).filter fun i => keyStatus channel i = .enabled

/-- The position that was saved, unless there are not so many keys. -/
def pollStart (saved : Int) (size : Nat) : Nat :=
  if saved < 0 ∨ saved ≥ size then 0 else saved.toNat

/-- The first enabled key from a position on, around the list. -/
def pollFrom (start : Nat) : Option Nat :=
  ((List.range (channel.getKeys env).length).map fun i =>
    (start + i) % (channel.getKeys env).length).find? fun i =>
      keyStatus channel i = .enabled

/-- The position of the next key of a channel with many keys. -/
def nextKeyIndex (random : Nat) : Except String Nat :=
  match enabledKeys env channel with
  | [] => .error "no enabled keys"
  | first :: rest =>
    match channel.channelInfo.multiKeyMode with
    | .random => .ok (((first :: rest)[random % (first :: rest).length]?).getD first)
    | .polling =>
      match cache.channels channel.id with
      | none => .error s!"渠道# {channel.id}，已不存在"
      | some polled =>
        .ok ((pollFrom env channel
          (pollStart polled.channelInfo.multiKeyPollingIndex (channel.getKeys env).length)).getD
            first)
    | .other => .ok first

/-- `GetNextEnabledKey`, for one outcome of the random choice: the key and its position. -/
def getNextEnabledKey (random : Nat) : Except String (String × Nat) :=
  if channel.channelInfo.isMultiKey = false then .ok (channel.key, 0)
  else if channel.getKeys env = [] then .error "no keys available"
  else (cache.nextKeyIndex env channel random).map fun i => ((channel.getKeys env).getD i "", i)

/-- The channel after that: polling goes on behind the key. -/
def afterKey (result : Except String (String × Nat)) : Channel :=
  match result with
  | .ok (_, i) =>
    if channel.channelInfo.isMultiKey = true ∧ channel.channelInfo.multiKeyMode = .polling then
      { channel with
        channelInfo :=
          { channel.channelInfo with multiKeyPollingIndex :=
            ((i + 1) % (channel.getKeys env).length : Nat) } }
    else channel
  | .error _ => channel

/-! ### Changing a status -/

variable (id : Int)

def store (channel : Channel) : ChannelCache :=
  { cache with channels := Function.update cache.channels id (some channel) }

/-- `CacheUpdateChannelStatus`: out of each list the channel is taken once. -/
def cacheUpdateChannelStatus (status : ChannelStatus) : ChannelCache :=
  let updated :=
    match cache.channels id with
    | some channel => cache.store id { channel with status }
    | none => cache
  if status ≠ .enabled then
    { updated with index := fun group model => (cache.index group model).erase id }
  else updated

/-- The key at a position gets a status. -/
def mark (keyIndex : Nat) (status : ChannelStatus) : Channel :=
  let statusList := channel.channelInfo.multiKeyStatusList
  { channel with
    channelInfo :=
      { channel.channelInfo with
        multiKeyStatusList := if status = .enabled then statusList.erase keyIndex
          else statusList.insert keyIndex status } }

/-- `handlerMultiKeyUpdate`: the status of the first position with the key. -/
def handlerMultiKeyUpdate (usingKey : String) (status : ChannelStatus) : Channel :=
  if channel.getKeys env = [] then { channel with status }
  else
    match (channel.getKeys env).findIdx? (· = usingKey) with
    | none => if usingKey ≠ "" then channel else { channel with status }
    | some keyIndex =>
      let marked := mark channel keyIndex status
      if enabledKeys env marked = [] then { marked with status := .autoDisabled }
      else if status = .enabled then { marked with status := .enabled }
      else marked

/-- What `UpdateChannelStatus` does to the cache. -/
def updateChannelStatus (usingKey : String) (status : ChannelStatus) : ChannelCache :=
  match cache.channels id with
  | none => cache
  | some channel =>
    if channel.channelInfo.isMultiKey then
      let updated := handlerMultiKeyUpdate env channel usingKey status
      if channel.status ≠ updated.status then
        (cache.store id updated).cacheUpdateChannelStatus id updated.status
      else cache.store id updated
    else if channel.status = status then cache
    else cache.cacheUpdateChannelStatus id status

/-! ### Runs -/

/-- The cache, the channels with one key that were disabled and not enabled again, and the keys of
channels with many keys for which the same holds. -/
structure World where
  cache : ChannelCache
  disabled : List Int
  disabledKeys : List (Int × String)

inductive Act
  | updateChannelStatus (id : Int) (usingKey : String) (status : ChannelStatus)
  | getNextEnabledKey (id : Int) (random : Nat)

variable (env : ChannelEnv)

def step (w : World) : Act → World
  | .updateChannelStatus id usingKey status =>
    let cache := w.cache.updateChannelStatus env id usingKey status
    match w.cache.channels id with
    | none => { w with cache }
    | some channel =>
      if channel.channelInfo.isMultiKey then
        { w with
          cache
          disabledKeys :=
            if status = .enabled then w.disabledKeys.filter (· ≠ (id, usingKey))
            else (id, usingKey) :: w.disabledKeys }
      else
        { w with cache, disabled := if status = .enabled then w.disabled.filter (· ≠ id)
          else id :: w.disabled }
  | .getNextEnabledKey id random =>
    match w.cache.channels id with
    | none => w
    | some channel =>
      { w with
        cache := w.cache.store id
          (afterKey env channel (w.cache.getNextEnabledKey env channel random)) }

/-- No disabled channel and no disabled key is used. -/
structure NeverUsed (env : ChannelEnv) (w : World) : Prop where
  channels : ∀ id ∈ w.disabled, ∀ group model retry requestPath requiredTag random channel,
    w.cache.getRandomSatisfiedChannel env group model retry requestPath requiredTag random =
      .ok (some channel) → channel.id ≠ id
  keys : ∀ id key, (id, key) ∈ w.disabledKeys →
    ∀ channel random i, w.cache.channels id = some channel →
    w.cache.getNextEnabledKey env channel random ≠ .ok (key, i)

/-- What is disabled is not repeated: a channel with one key lists no group and no model twice, a
channel with many keys does not have the key twice. -/
def Unrepeated (w : World) : Act → Prop
  | .updateChannelStatus id usingKey status => status ≠ .enabled → ∀ channel ∈ w.cache.channels id,
    if channel.channelInfo.isMultiKey then (channel.getKeys env).count usingKey ≤ 1
    else channel.groupNames.Nodup ∧ channel.modelNames.Nodup
  | .getNextEnabledKey .. => True

instance (env : ChannelEnv) (w : World) : DecidablePred (Unrepeated env w) := fun _ => by
  unfold Unrepeated; split <;> infer_instance

/-! ### What holds at all times -/

/-- Of a stored channel: its id, how often the index may list it, and that it is not listed at all
while it is disabled. -/
structure Stored (cache : ChannelCache) (id : Int) (channel : Channel) : Prop where
  same : channel.id = id
  count : ∀ group model, (cache.index group model).count id ≤
    channel.groupNames.count group * channel.modelNames.count model
  unlisted : channel.channelInfo.isMultiKey = false → channel.status ≠ .enabled →
    ∀ group model, id ∉ cache.index group model

/-- All positions of a key are disabled. -/
def KeyOff (channel : Channel) (key : String) : Prop :=
  ∀ i, (channel.getKeys env)[i]? = some key → keyStatus channel i ≠ .enabled

structure Inv (env : ChannelEnv) (w : World) : Prop where
  stored : ∀ id channel, w.cache.channels id = some channel → Stored w.cache id channel
  disabled : ∀ id ∈ w.disabled, ∀ channel, w.cache.channels id = some channel →
    channel.channelInfo.isMultiKey = false ∧ channel.status ≠ .enabled
  keys : ∀ id key, (id, key) ∈ w.disabledKeys → ∀ channel, w.cache.channels id = some channel →
    channel.channelInfo.isMultiKey = true ∧ KeyOff env channel key

section Steps

variable {env : ChannelEnv} {cache : ChannelCache} {w : World}

/-! ### What is used -/

variable {channel channel' : Channel} {random retry i : Nat} {group model key usingKey : String}
  {status : ChannelStatus} {channels : Table Channel.id}

theorem mem_of_chooseByWeight {targetChannels : List Channel}
    (h : chooseByWeight targetChannels random = some channel) : channel ∈ targetChannels := by
  obtain ⟨weight, hmem⟩ := Draw.mem_of_draw h
  obtain ⟨target, htarget, heq⟩ := mem_map.mp hmem
  cases heq
  exact htarget

theorem mem_of_chooseByPriority {channels : List Channel}
    (h : chooseByPriority channels retry random = .ok (some channel)) : channel ∈ channels := by
  unfold chooseByPriority at h
  split at h
  · cases h
  · split at h
    · rename_i found hfound
      cases h
      exact mem_of_mem_filter (mem_of_chooseByWeight hfound)
    · cases h

/-- What is chosen is stored under one of the ids. -/
theorem mem_of_choose {channels : List Int}
    (h : cache.choose channels retry random = .ok (some channel)) :
    ∃ id ∈ channels, cache.channels id = some channel := by
  unfold choose at h
  split at h
  · cases h
  · rename_i id
    split at h
    · rename_i found hfound
      cases h
      exact ⟨id, mem_singleton_self id, hfound⟩
    · cases h
  · split at h
    · cases h
    · exact mem_filterMap.mp (mem_of_chooseByPriority h)

variable {requestPath requiredTag : String} {id : Int}

theorem mem_index_of_mem_candidates {name : String}
    (h : id ∈ cache.candidates env group name model requestPath requiredTag) :
    id ∈ cache.index group name := by
  unfold candidates filterChannelsByRequiredTag filterChannelsByRequestPathAndModel at h
  split_ifs at h
  · exact h
  · exact mem_of_mem_filter h
  · exact mem_of_mem_filter h
  · exact mem_of_mem_filter (mem_of_mem_filter h)

/-- A channel that is returned is listed in the index. -/
theorem listed_of_returned
    (h : cache.getRandomSatisfiedChannel env group model retry requestPath requiredTag random =
      .ok (some channel)) :
    ∃ id name, id ∈ cache.index group name ∧ cache.channels id = some channel := by
  unfold getRandomSatisfiedChannel at h
  dsimp only at h
  split at h
  · obtain ⟨id, hid, hfound⟩ := mem_of_choose h
    exact ⟨id, _, mem_index_of_mem_candidates hid, hfound⟩
  · obtain ⟨id, hid, hfound⟩ := mem_of_choose h
    exact ⟨id, _, mem_index_of_mem_candidates hid, hfound⟩

theorem of_mem_enabledKeys {l : List Nat} (hl : enabledKeys env channel = l) (h : i ∈ l) :
    i < (channel.getKeys env).length ∧ keyStatus channel i = .enabled := by
  rw [← hl] at h
  obtain ⟨hrange, henabled⟩ := mem_filter.mp h
  exact ⟨mem_range.mp hrange, of_decide_eq_true henabled⟩

theorem of_pollFrom {start : Nat} (h : pollFrom env channel start = some i) :
    i < (channel.getKeys env).length ∧ keyStatus channel i = .enabled := by
  have henabled := find?_some h
  obtain ⟨offset, hoffset, rfl⟩ := mem_map.mp (mem_of_find?_eq_some h)
  have hpos : 0 < (channel.getKeys env).length :=
    Nat.lt_of_le_of_lt (Nat.zero_le _) (mem_range.mp hoffset)
  exact ⟨Nat.mod_lt _ hpos, of_decide_eq_true henabled⟩

/-- The position of the next key is that of an enabled one. -/
theorem of_nextKeyIndex (h : cache.nextKeyIndex env channel random = .ok i) :
    i < (channel.getKeys env).length ∧ keyStatus channel i = .enabled := by
  unfold nextKeyIndex at h
  split at h
  · cases h
  · rename_i first rest henabled
    have hfirst := of_mem_enabledKeys henabled mem_cons_self
    -- at random, by polling or in an unknown mode: the first enabled key is what is left
    split at h
    · cases h
      cases hpick : (first :: rest)[random % (first :: rest).length]? with
      | none => exact hfirst
      | some i => exact of_mem_enabledKeys henabled (mem_of_getElem? hpick)
    · split at h
      · cases h
      · cases h
        cases hpoll : pollFrom env channel (pollStart _ _) with
        | none => exact hfirst
        | some i => exact of_pollFrom hpoll
    · cases h
      exact hfirst

theorem getNextEnabledKey_ne (hmulti : channel.channelInfo.isMultiKey = true)
    (hoff : KeyOff env channel key) :
    cache.getNextEnabledKey env channel random ≠ .ok (key, i) := by
  intro h
  rw [getNextEnabledKey, hmulti, if_neg (by decide)] at h
  split at h
  · cases h
  · cases hnext : cache.nextKeyIndex env channel random with
    | error e =>
      rw [hnext] at h
      cases h
    | ok j =>
      rw [hnext] at h
      obtain ⟨hlt, henabled⟩ := of_nextKeyIndex hnext
      cases h
      refine hoff i ?_ henabled
      rw [getD_eq_getElem?_getD, getElem?_eq_getElem hlt, getD_some]

theorem Inv.neverUsed (h : Inv env w) : NeverUsed env w where
  channels := by
    rintro id hid group model retry requestPath requiredTag random channel hreturned rfl
    obtain ⟨listed, name, hlisted, hfound⟩ := listed_of_returned hreturned
    have hstored := h.stored listed channel hfound
    rw [hstored.same] at hid
    obtain ⟨hsingle, hdisabled⟩ := h.disabled listed hid channel hfound
    exact hstored.unlisted hsingle hdisabled group name hlisted
  keys := by
    intro id key hmem channel random i hfound
    obtain ⟨hmulti, hoff⟩ := h.keys id key hmem channel hfound
    exact getNextEnabledKey_ne hmulti hoff

/-! ### What a change of status does -/

/-- What no change of status touches. -/
structure Alike (channel channel' : Channel) : Prop where
  id : channel'.id = channel.id
  key : channel'.key = channel.key
  models : channel'.models = channel.models
  group : channel'.group = channel.group
  isMultiKey : channel'.channelInfo.isMultiKey = channel.channelInfo.isMultiKey

theorem Alike.getKeys (h : Alike channel channel') :
    channel'.getKeys env = channel.getKeys env := by
  unfold Channel.getKeys Channel.keyLines
  rw [h.key]

/-- One channel is stored anew, and channels may leave the index. -/
structure Replaced (cache cache' : ChannelCache) (id : Int)
    (channel channel' : Channel) : Prop where
  alike : Alike channel channel'
  channels : cache'.channels = Function.update cache.channels id (some channel')
  index : ∀ group model, (cache'.index group model).Sublist (cache.index group model)
  unlisted : channel'.channelInfo.isMultiKey = false → channel'.status ≠ .enabled →
    ∀ group model, id ∉ cache'.index group model

variable {cache' : ChannelCache} {other : Int}

/-- What holds of the new channel and of the others before, holds of what is stored. -/
theorem Replaced.forall_stored {P : Channel → Prop}
    (hreplaced : Replaced cache cache' id channel channel') (hnew : other = id → P channel')
    (hold : other ≠ id → ∀ stored, cache.channels other = some stored → P stored) (stored : Channel)
    (h : cache'.channels other = some stored) : P stored := by
  rw [hreplaced.channels] at h
  by_cases hid : other = id
  · rw [hid, Function.update_self] at h
    cases h
    exact hnew hid
  · rw [Function.update_of_ne hid] at h
    exact hold hid stored h

theorem Replaced.stored
    (h : ∀ id channel, cache.channels id = some channel → Stored cache id channel)
    (hfound : cache.channels id = some channel)
    (hreplaced : Replaced cache cache' id channel channel') :
    ∀ id channel, cache'.channels id = some channel → Stored cache' id channel := by
  refine fun other => hreplaced.forall_stored ?_ fun hid stored hother => ?_
  · rintro rfl
    have hbefore := h other channel hfound
    refine ⟨hreplaced.alike.id.trans hbefore.same, fun group model => ?_, hreplaced.unlisted⟩
    refine Nat.le_trans ((hreplaced.index group model).count_le other) ?_
    unfold Channel.groupNames Channel.modelNames
    rw [hreplaced.alike.group, hreplaced.alike.models]
    exact hbefore.count group model
  · have hbefore := h other stored hother
    refine ⟨hbefore.same, fun group model => ?_, fun hsingle hdisabled group model hmem => ?_⟩
    · exact Nat.le_trans ((hreplaced.index group model).count_le other) (hbefore.count group model)
    · exact hbefore.unlisted hsingle hdisabled group model
        ((hreplaced.index group model).subset hmem)

/-! ### Keys -/

/-- A value that occurs once has one position. -/
theorem position_unique {l : List String} {a : String} (hcount : l.count a ≤ 1) {j : Nat}
    (hi : l[i]? = some a) (hj : l[j]? = some a) : i = j := by
  induction l generalizing i j with
  | nil => cases hi
  | cons b l ih =>
    have htail : ∀ {k}, l[k]? = some a → 0 < l.count a :=
      fun hk => count_pos_iff.mpr (mem_of_getElem? hk)
    rw [count_cons] at hcount
    -- the head is one of the places: then there is none in the tail
    rcases i with _ | i <;> rcases j with _ | j
    · rfl
    · cases hi
      have := htail hj
      simp at hcount
      omega
    · cases hj
      have := htail hi
      simp at hcount
      omega
    · exact congrArg (· + 1) (ih (by omega) hi hj)

theorem keyStatus_mark (keyIndex : Nat) :
    keyStatus (mark channel keyIndex status) i = if i = keyIndex then status
      else keyStatus channel i := by
  unfold keyStatus mark
  dsimp only
  by_cases hstatus : status = .enabled
  · rw [if_pos hstatus, Dict.lookup_erase_of]
    split_ifs
    · exact hstatus.symm
    · rfl
  · rw [if_neg hstatus, Dict.lookup_insert_of]
    split_ifs
    · rfl
    · rfl

/-- The status of the channel may change, and of the keys that of the first position with the
key. -/
theorem handlerMultiKeyUpdate_cases : ∃ status', (usingKey ∉ channel.getKeys env ∧
        handlerMultiKeyUpdate env channel usingKey status = { channel with status := status' }) ∨
      ∃ keyIndex, (channel.getKeys env)[keyIndex]? = some usingKey ∧
        handlerMultiKeyUpdate env channel usingKey status =
          { mark channel keyIndex status with status := status' } := by
  unfold handlerMultiKeyUpdate
  by_cases hnone : channel.getKeys env = []
  · rw [if_pos hnone]
    refine ⟨status, .inl ⟨?_, rfl⟩⟩
    rw [hnone]
    exact not_mem_nil
  · rw [if_neg hnone]
    -- the first place of the key is the one that is marked
    cases hidx : (channel.getKeys env).findIdx? (· = usingKey) with
    | none =>
      have hnot : usingKey ∉ channel.getKeys env := by
        intro hmem
        have := findIdx?_eq_none_iff.mp hidx usingKey hmem
        simp at this
      dsimp only
      split_ifs
      · exact ⟨channel.status, .inl ⟨hnot, rfl⟩⟩
      · exact ⟨status, .inl ⟨hnot, rfl⟩⟩
    | some keyIndex =>
      obtain ⟨hlt, hkey, -⟩ := findIdx?_eq_some_iff_getElem.mp hidx
      have hat : (channel.getKeys env)[keyIndex]? = some usingKey := by
        rw [getElem?_eq_getElem hlt, of_decide_eq_true hkey]
      dsimp only
      split_ifs
      · exact ⟨_, .inr ⟨keyIndex, hat, rfl⟩⟩
      · exact ⟨_, .inr ⟨keyIndex, hat, rfl⟩⟩
      · exact ⟨channel.status, .inr ⟨keyIndex, hat, rfl⟩⟩

theorem handlerMultiKeyUpdate_alike (env : ChannelEnv) (channel : Channel) (usingKey : String)
    (status : ChannelStatus) :
    Alike channel (handlerMultiKeyUpdate env channel usingKey status) := by
  obtain ⟨status', ⟨-, heq⟩ | ⟨keyIndex, -, heq⟩⟩ := handlerMultiKeyUpdate_cases
  all_goals
    rw [heq]
    exact ⟨rfl, rfl, rfl, rfl, rfl⟩

/-- The only position of a key that is disabled is marked. -/
theorem keyOff_disabled (hstatus : status ≠ .enabled)
    (hcount : (channel.getKeys env).count usingKey ≤ 1) :
    KeyOff env (handlerMultiKeyUpdate env channel usingKey status) usingKey := by
  intro i hi
  rw [(handlerMultiKeyUpdate_alike env channel usingKey status).getKeys] at hi
  obtain ⟨status', ⟨hnot, -⟩ | ⟨keyIndex, hat, heq⟩⟩ := handlerMultiKeyUpdate_cases
  · exact absurd (mem_of_getElem? hi) hnot
  · rw [heq]
    show keyStatus (mark channel keyIndex status) i ≠ .enabled
    rw [keyStatus_mark, if_pos (position_unique hcount hi hat)]
    exact hstatus

/-- A key that is off stays off, unless it is enabled. -/
theorem KeyOff.kept (h : KeyOff env channel key) (hother : status = .enabled → key ≠ usingKey) :
    KeyOff env (handlerMultiKeyUpdate env channel usingKey status) key := by
  intro i hi
  rw [(handlerMultiKeyUpdate_alike env channel usingKey status).getKeys] at hi
  obtain ⟨status', ⟨-, heq⟩ | ⟨keyIndex, hat, heq⟩⟩ := handlerMultiKeyUpdate_cases
  · rw [heq]
    exact h i hi
  · rw [heq]
    show keyStatus (mark channel keyIndex status) i ≠ .enabled
    rw [keyStatus_mark]
    split_ifs with hsame
    · intro hstatus
      rw [hsame, hat] at hi
      exact hother hstatus (some.inj hi).symm
    · exact h i hi

/-! ### Steps -/

theorem cacheUpdateChannelStatus_channels (hfound : cache.channels id = some channel) :
    (cache.cacheUpdateChannelStatus id status).channels =
      Function.update cache.channels id (some { channel with status }) := by
  unfold cacheUpdateChannelStatus
  rw [hfound]
  dsimp only
  split_ifs
  · rfl
  · rfl

theorem cacheUpdateChannelStatus_index :
    (cache.cacheUpdateChannelStatus id status).index group model =
      if status ≠ .enabled then (cache.index group model).erase id
      else cache.index group model := by
  unfold cacheUpdateChannelStatus
  split_ifs
  · rfl
  · split
    · rfl
    · rfl

theorem cacheUpdateChannelStatus_sublist (id : Int) (group model : String) :
    ((cache.cacheUpdateChannelStatus id status).index group model).Sublist
      (cache.index group model) := by
  rw [cacheUpdateChannelStatus_index]
  split_ifs
  · exact erase_sublist
  · exact List.Sublist.refl _

/-- A channel that lists no group and no model twice leaves the index when it is disabled. -/
theorem replaced_single (hfound : cache.channels id = some channel)
    (hstored : Stored cache id channel)
    (hlists : status ≠ .enabled → channel.groupNames.Nodup ∧ channel.modelNames.Nodup) :
    Replaced cache (cache.cacheUpdateChannelStatus id status) id channel
      { channel with status } where
  alike := ⟨rfl, rfl, rfl, rfl, rfl⟩
  channels := cacheUpdateChannelStatus_channels hfound
  index := cacheUpdateChannelStatus_sublist id
  unlisted := by
    intro _ hdisabled group model
    obtain ⟨hgroups, hmodels⟩ := hlists hdisabled
    have hone : channel.groupNames.count group * channel.modelNames.count model ≤ 1 * 1 :=
      Nat.mul_le_mul (nodup_iff_count_le_one.mp hgroups group)
        (nodup_iff_count_le_one.mp hmodels model)
    have hcount := hstored.count group model
    rw [cacheUpdateChannelStatus_index, if_pos hdisabled, ← count_eq_zero, count_erase_self]
    omega

theorem replaced_store (halike : Alike channel channel')
    (hunlisted : channel'.channelInfo.isMultiKey = false →
      channel'.status ≠ .enabled → ∀ group model, id ∉ cache.index group model) :
    Replaced cache (cache.store id channel') id channel channel' :=
  ⟨halike, rfl, fun _ _ => List.Sublist.refl _, hunlisted⟩

/-- A channel with many keys may leave the index as well. -/
theorem replaced_multi_status {updated : Channel} (hmulti : updated.channelInfo.isMultiKey = true)
    (halike : Alike channel updated) :
    Replaced cache ((cache.store id updated).cacheUpdateChannelStatus id updated.status) id channel
      updated where
  alike := halike
  channels := by
    have hfound : (cache.store id updated).channels id = some updated := Function.update_self ..
    rw [cacheUpdateChannelStatus_channels hfound]
    exact Function.update_idem ..
  index := cacheUpdateChannelStatus_sublist id
  unlisted hsingle := absurd hmulti (by rw [hsingle]; decide)

/-- What a step has to say about the lists of what is disabled, when one channel is stored anew. -/
theorem Inv.replaced (h : Inv env w) {w' : World} (hfound : w.cache.channels id = some channel)
    (hreplaced : Replaced w.cache w'.cache id channel channel')
    (hdisabled : ∀ other ∈ w'.disabled, other ≠ id ∧ other ∈ w.disabled ∨
      other = id ∧ channel'.channelInfo.isMultiKey = false ∧ channel'.status ≠ .enabled)
    (hkeys : ∀ other key, (other, key) ∈ w'.disabledKeys →
      other ≠ id ∧ (other, key) ∈ w.disabledKeys ∨
      other = id ∧ channel'.channelInfo.isMultiKey = true ∧ KeyOff env channel' key) :
    Inv env w' where
  stored := hreplaced.stored h.stored hfound
  disabled other hother := by
    rcases hdisabled other hother with ⟨hne, hold⟩ | ⟨hid, hoff⟩
    · exact hreplaced.forall_stored (fun hid => absurd hid hne) fun _ => h.disabled other hold
    · exact hreplaced.forall_stored (fun _ => hoff) fun hne => absurd hid hne
  keys other key hother := by
    rcases hkeys other key hother with ⟨hne, hold⟩ | ⟨hid, hoff⟩
    · exact hreplaced.forall_stored (fun hid => absurd hid hne) fun _ => h.keys other key hold
    · exact hreplaced.forall_stored (fun _ => hoff) fun hne => absurd hid hne

theorem replaced_self (hfound : cache.channels id = some channel)
    (hstored : Stored cache id channel) : Replaced cache cache id channel channel where
  alike := ⟨rfl, rfl, rfl, rfl, rfl⟩
  channels := by rw [← hfound, Function.update_eq_self]
  index _ _ := List.Sublist.refl _
  unlisted := hstored.unlisted

section

variable (h : Inv env w) (hfound : w.cache.channels id = some channel)

include h hfound

/-- Disabled channels have one key, so a step of a channel with many keys leaves them. -/
theorem Inv.disabled_of_multi (hmulti : channel.channelInfo.isMultiKey = true)
    (hother : other ∈ w.disabled) : other ≠ id := by
  rintro rfl
  have hsingle := (h.disabled other hother channel hfound).1
  rw [hmulti] at hsingle
  cases hsingle

theorem Inv.keys_of_single (hsingle : channel.channelInfo.isMultiKey = false)
    (hother : (other, key) ∈ w.disabledKeys) :
    other ≠ id := by
  rintro rfl
  have hmulti := (h.keys other key hother channel hfound).1
  rw [hsingle] at hmulti
  cases hmulti

theorem Inv.update_single (hsingle : channel.channelInfo.isMultiKey = false)
    (hlists : status ≠ .enabled → channel.groupNames.Nodup ∧ channel.modelNames.Nodup) :
    Inv env
      { w with
        cache := w.cache.updateChannelStatus env id usingKey status
        disabled := if status = .enabled then w.disabled.filter (· ≠ id)
          else id :: w.disabled } := by
  -- the list of disabled channels changes at `id` only, as the cache does
  have hstored := h.stored id channel hfound
  have hreplaced : Replaced w.cache (w.cache.updateChannelStatus env id usingKey status) id channel
      { channel with status } := by
    unfold updateChannelStatus
    rw [hfound]
    dsimp only
    rw [hsingle, if_neg (by decide)]
    split_ifs with hsame
    · subst hsame
      exact replaced_self hfound hstored
    · exact replaced_single hfound hstored hlists
  refine h.replaced hfound hreplaced ?_ ?_
  · intro other hother
    dsimp only at hother
    split at hother
    · obtain ⟨hmem, hne⟩ := mem_filter.mp hother
      exact .inl ⟨of_decide_eq_true hne, hmem⟩
    · rename_i hdisabled
      by_cases hid : other = id
      · exact .inr ⟨hid, hsingle, hdisabled⟩
      · exact .inl ⟨hid, (mem_cons.mp hother).resolve_left hid⟩
  · intro other key hother
    exact .inl ⟨h.keys_of_single hfound hsingle hother, hother⟩

theorem Inv.update_multi (hmulti : channel.channelInfo.isMultiKey = true)
    (hcount : status ≠ .enabled → (channel.getKeys env).count usingKey ≤ 1) :
    Inv env
      { w with
        cache := w.cache.updateChannelStatus env id usingKey status
        disabledKeys :=
          if status = .enabled then w.disabledKeys.filter (· ≠ (id, usingKey))
          else (id, usingKey) :: w.disabledKeys } := by
  have halike := handlerMultiKeyUpdate_alike env channel usingKey status
  have hmulti' := halike.isMultiKey.trans hmulti
  have hreplaced : Replaced w.cache (w.cache.updateChannelStatus env id usingKey status) id channel
      (handlerMultiKeyUpdate env channel usingKey status) := by
    unfold updateChannelStatus
    rw [hfound]
    dsimp only
    rw [if_pos hmulti]
    split_ifs
    · exact replaced_multi_status hmulti' halike
    · exact replaced_store halike fun hsingle => absurd (hmulti'.symm.trans hsingle) (by decide)
  refine h.replaced hfound hreplaced ?_ ?_
  · intro other hother
    exact .inl ⟨h.disabled_of_multi hfound hmulti hother, hother⟩
  · intro other key hother
    by_cases hid : other = id
    · subst hid
      refine .inr ⟨rfl, hmulti', ?_⟩
      -- a key that was off before
      have hkept : (other, key) ∈ w.disabledKeys → (status = .enabled → key ≠ usingKey) →
          KeyOff env (handlerMultiKeyUpdate env channel usingKey status) key := fun hmem hother =>
        (h.keys other key hmem channel hfound).2.kept hother
      dsimp only at hother
      split at hother
      · obtain ⟨hmem, hne⟩ := mem_filter.mp hother
        refine hkept hmem fun _ heq => ?_
        rw [heq] at hne
        exact of_decide_eq_true hne rfl
      · rename_i hdisabled
        rcases mem_cons.mp hother with heq | hmem
        · cases heq
          exact keyOff_disabled hdisabled (hcount hdisabled)
        · exact hkept hmem fun henabled => absurd henabled hdisabled
    · refine .inl ⟨hid, ?_⟩
      dsimp only at hother
      split at hother
      · exact mem_of_mem_filter hother
      · refine (mem_cons.mp hother).resolve_left fun heq => ?_
        cases heq
        exact hid rfl

end

/-- The choice of a key moves the position of polling only. -/
theorem afterKey_eq (result : Except String (String × Nat)) :
    ∃ position, afterKey env channel result =
      { channel with channelInfo :=
        { channel.channelInfo with multiKeyPollingIndex := position } } := by
  unfold afterKey
  split
  · split_ifs
    · exact ⟨_, rfl⟩
    · exact ⟨channel.channelInfo.multiKeyPollingIndex, rfl⟩
  · exact ⟨channel.channelInfo.multiKeyPollingIndex, rfl⟩

theorem step_inv {a : Act} (h : Inv env w) (hunrepeated : Unrepeated env w a) :
    Inv env (step env w a) := by
  cases a with
  | updateChannelStatus id usingKey status =>
    unfold step
    dsimp only
    cases hfound : w.cache.channels id with
    | none =>
      dsimp only
      have hsame : w.cache.updateChannelStatus env id usingKey status = w.cache := by
        unfold updateChannelStatus
        rw [hfound]
      rw [hsame]
      exact h
    | some channel =>
      dsimp only
      -- a channel that is disabled lists no group, model or key twice
      have hcond := fun hstatus => hunrepeated hstatus channel hfound
      by_cases hmulti : channel.channelInfo.isMultiKey = true
      · rw [if_pos hmulti]
        refine h.update_multi hfound hmulti fun hstatus => ?_
        have := hcond hstatus
        rwa [if_pos hmulti] at this
      · rw [if_neg hmulti]
        refine h.update_single hfound (Bool.eq_false_iff.mpr hmulti) fun hstatus => ?_
        have := hcond hstatus
        rwa [if_neg hmulti] at this
  | getNextEnabledKey id random =>
    unfold step
    dsimp only
    cases hfound : w.cache.channels id with
    | none => exact h
    | some channel =>
      dsimp only
      -- only the place where polling goes on is stored
      obtain ⟨position, heq⟩ := afterKey_eq (w.cache.getNextEnabledKey env channel random)
      rw [heq]
      refine h.replaced hfound
        (replaced_store ⟨rfl, rfl, rfl, rfl, rfl⟩ (h.stored id channel hfound).unlisted) ?_ ?_
      · intro other hother
        by_cases hid : other = id
        · exact .inr ⟨hid, h.disabled id (hid ▸ hother) channel hfound⟩
        · exact .inl ⟨hid, hother⟩
      · intro other key hother
        by_cases hid : other = id
        · exact .inr ⟨hid, h.keys id key (hid ▸ hother) channel hfound⟩
        · exact .inl ⟨hid, hother⟩

/-! ### After loading -/

theorem mem_listings :
    id ∈ listings group model channel ↔
      id = channel.id ∧ group ∈ channel.groupNames ∧ model ∈ channel.modelNames := by
  unfold listings
  simp only [mem_flatMap]
  constructor
  · rintro ⟨g, hg, m, hm, hid⟩
    split at hid
    · rename_i hsame
      obtain ⟨rfl, rfl⟩ := hsame
      exact ⟨mem_singleton.mp hid, hg, hm⟩
    · cases hid
  · rintro ⟨rfl, hg, hm⟩
    refine ⟨group, hg, model, hm, ?_⟩
    rw [if_pos ⟨rfl, rfl⟩]
    exact mem_singleton_self _

theorem count_listings : (listings group model channel).count channel.id =
      channel.groupNames.count group * channel.modelNames.count model := by
  -- first the models of one group, then the groups
  have hmodels : ∀ g, ∀ models : List String,
      (models.flatMap fun m => if g = group ∧ m = model then [channel.id] else []).count
        channel.id = if g = group then models.count model else 0 := by
    intro g models
    induction models with
    | nil => simp
    | cons m models ih =>
      rw [flatMap_cons, count_append, ih, count_cons]
      by_cases hg : g = group
      · by_cases hm : m = model
        · simp [hg, hm, Nat.add_comm]
        · simp [hg, hm]
      · simp [hg]
  unfold listings
  induction channel.groupNames with
  | nil => simp
  | cons g groups ih =>
    rw [flatMap_cons, count_append, ih, hmodels g, count_cons]
    by_cases hg : g = group
    · simp [hg, Nat.add_mul, Nat.add_comm]
    · simp [hg]

/-- In a list of channels with different ids, only the one with the id is listed under it. -/
theorem count_flatMap_listings {rows : List Channel} (hnodup : (rows.map Channel.id).Nodup)
    (hmem : channel ∈ rows) :
    (rows.flatMap (listings group model)).count channel.id =
      channel.groupNames.count group * channel.modelNames.count model := by
  induction rows with
  | nil => cases hmem
  | cons row rows ih =>
    obtain ⟨hnew, hrest⟩ := nodup_cons.mp hnodup
    rw [flatMap_cons, count_append]
    -- ids are unique, so no other row lists the channel
    rcases mem_cons.mp hmem with rfl | hmem
    · have hzero : (rows.flatMap (listings group model)).count channel.id = 0 := by
        rw [count_eq_zero]
        intro hlisted
        obtain ⟨row, hrow, hid⟩ := mem_flatMap.mp hlisted
        exact hnew (mem_map.mpr ⟨row, hrow, (mem_listings.mp hid).1.symm⟩)
      rw [hzero, count_listings, Nat.add_zero]
    · have hzero : (listings group model row).count channel.id = 0 := by
        rw [count_eq_zero]
        intro hlisted
        exact hnew (mem_map.mpr ⟨channel, hmem, (mem_listings.mp hlisted).1⟩)
      rw [hzero, ih hrest hmem, Nat.zero_add]

theorem mem_indexOf : id ∈ indexOf channels group model ↔
      ∃ channel, channels.find? id = some channel ∧ channel.status = .enabled ∧
        group ∈ channel.groupNames ∧ model ∈ channel.modelNames := by
  rw [indexOf, mem_insertionSort, mem_flatMap]
  constructor
  · rintro ⟨channel, hmem, hid⟩
    obtain ⟨hrow, henabled⟩ := mem_filter.mp hmem
    obtain ⟨heq, hlists⟩ := mem_listings.mp hid
    exact ⟨channel, Table.find?_eq_some.mpr ⟨hrow, heq.symm⟩, of_decide_eq_true henabled, hlists⟩
  · rintro ⟨channel, hfound, henabled, hlists⟩
    obtain ⟨hrow, rfl⟩ := Table.find?_eq_some.mp hfound
    exact ⟨channel, mem_filter.mpr ⟨hrow, decide_eq_true henabled⟩, mem_listings.mpr ⟨rfl, hlists⟩⟩

theorem count_indexOf_le (hmem : channel ∈ channels.rows) :
    (indexOf channels group model).count channel.id ≤
      channel.groupNames.count group * channel.modelNames.count model := by
  unfold indexOf
  rw [(perm_insertionSort _ _).count_eq]
  by_cases henabled : channel.status = .enabled
  · have hfiltered : channel ∈ channels.rows.filter fun channel => channel.status = .enabled :=
      mem_filter.mpr ⟨hmem, decide_eq_true henabled⟩
    have hnodup := (List.Sublist.map Channel.id
      (filter_sublist (p := fun channel => channel.status = .enabled) (l := channels.rows))).nodup
        channels.nodup
    rw [count_flatMap_listings hnodup hfiltered]
  · have hzero :
        ((channels.rows.filter fun channel => channel.status = .enabled).flatMap
          (listings group model)).count
        channel.id = 0 := by
      rw [count_eq_zero]
      intro hlisted
      obtain ⟨row, hrow, hid⟩ := mem_flatMap.mp hlisted
      obtain ⟨hrow, hstatus⟩ := mem_filter.mp hrow
      rw [Table.eq_of_key_eq hmem hrow (mem_listings.mp hid).1] at henabled
      exact henabled (of_decide_eq_true hstatus)
    rw [hzero]
    exact Nat.zero_le _

theorem keepPolling_eq (old : Option Channel) (channel : Channel) :
    ∃ position, keepPolling old channel =
      { channel with channelInfo :=
        { channel.channelInfo with multiKeyPollingIndex := position } } := by
  unfold keepPolling
  split
  · split_ifs
    · exact ⟨_, rfl⟩
    · exact ⟨channel.channelInfo.multiKeyPollingIndex, rfl⟩
  · exact ⟨channel.channelInfo.multiKeyPollingIndex, rfl⟩

/-- A cache that was just loaded, with nothing disabled since. -/
def loaded (cache : ChannelCache) : World where
  cache := cache
  disabled := []
  disabledKeys := []

theorem loaded_inv {old : ChannelCache} {abilities : List Ability}
    (hinit : old.initChannelCache channels abilities = some cache) : Inv env (loaded cache) := by
  unfold initChannelCache at hinit
  split at hinit
  · cases hinit
    -- the lists of what is disabled start empty; what is listed is enabled
    refine ⟨?_, fun _ h => absurd h not_mem_nil, fun _ _ h => absurd h not_mem_nil⟩
    intro id channel hfound
    obtain ⟨row, hrow, rfl⟩ := map_eq_some_iff.mp hfound
    obtain ⟨position, heq⟩ := keepPolling_eq (old.channels id) row
    rw [heq]
    obtain ⟨hmem, hid⟩ := Table.find?_eq_some.mp hrow
    refine ⟨hid, fun group model => ?_, fun _ hdisabled group model hlisted => ?_⟩
    · rw [← hid]
      exact count_indexOf_le hmem
    · obtain ⟨listed, hfind, henabled, -⟩ := mem_indexOf.mp hlisted
      rw [hrow] at hfind
      cases hfind
      exact hdisabled henabled
  · cases hinit

end Steps

/-- The cache after a run. -/
def after (env : ChannelEnv) (cache : ChannelCache) (run : List Act) : World :=
  Run.exec (step env) (loaded cache) run

end ChannelCache

open ChannelCache

/-- The state after any part of a run is the state after a run. -/
theorem disabled_never_used (env : ChannelEnv) (old cache : ChannelCache)
    (channels : Table Channel.id)
    (abilities : List Ability) (hinit : old.initChannelCache channels abilities = some cache)
    (run : List Act) (hrun : Run.Along (Unrepeated env) (step env) (loaded cache) run) :
    NeverUsed env (after env cache run) :=
  (Run.exec_invariant_along (fun _ _ h ha => step_inv h ha) (loaded_inv hinit) hrun).neverUsed

namespace ChannelCache

/-- No array of JSON and no regular expression. -/
def plainEnv : ChannelEnv where
  rawArray _ := none
  matchString _ _ := false

/-- Nothing in memory. -/
def blank : ChannelCache where
  channels _ := none
  index _ _ := []
  configs _ := none

def singleKey : ChannelInfo := ⟨false, ∅, 0, .random⟩

def randomKeys : ChannelInfo := ⟨true, ∅, 0, .random⟩

/-- A channel that serves the group `default`. -/
def exampleChannel (id : Int) (models key : String) (info : ChannelInfo) : Channel where
  id := id
  type := .openAI
  key := key
  status := .enabled
  weight := 0
  models := models
  group := "default"
  priority := 0
  tag := none
  channelInfo := info
  advancedCustom := none

variable (models keys : String)

/-- A channel with one key and one with many. -/
def twoChannels : Table Channel.id :=
  (Table.empty.insert (fun id => exampleChannel id models "k" singleKey) fun _ => rfl).insert
    (fun id => exampleChannel id "m" keys randomKeys) fun _ => rfl

def exampleAbilities : List Ability := [⟨"default", "m", 2, true, 0, 0, none⟩]

def loadedFrom : ChannelCache :=
  (blank.initChannelCache (twoChannels models keys) exampleAbilities).getD blank

/-- Both are disabled, the second one for its first key. -/
def disableBoth : List Act :=
  [.updateChannelStatus 1 "k" .autoDisabled, .updateChannelStatus 2 "a" .autoDisabled]

end ChannelCache

theorem disabled_never_used_lists :
    NeverUsed plainEnv (after plainEnv (loadedFrom "gpt-4,o3" "a\nb") disableBoth) :=
  disabled_never_used plainEnv blank _ (twoChannels "gpt-4,o3" "a\nb")
    exampleAbilities rfl _ (by decide +kernel)

/-- A channel that lists its model twice, and one that has its first key twice, are disabled.  The
first one is still returned, and the second one still gives the key away. -/
theorem listed_twice : ((after plainEnv (loadedFrom "gpt-4,gpt-4" "a\na")
        disableBoth).cache.getRandomSatisfiedChannel plainEnv "default" "gpt-4" 0 "" "" 0).map
        (Option.map fun channel => (channel.id, channel.status)) = .ok (some (1, .autoDisabled)) ∧
      ((after plainEnv (loadedFrom "gpt-4,gpt-4" "a\na")
        disableBoth).cache.channels 2).map (fun channel =>
          (after plainEnv (loadedFrom "gpt-4,gpt-4" "a\na")
            disableBoth).cache.getNextEnabledKey plainEnv channel 0) = some (.ok ("a", 1)) ∧
      ¬ NeverUsed plainEnv (after plainEnv (loadedFrom "gpt-4,gpt-4" "a\na") disableBoth) := by
  have hkey : ((after plainEnv (loadedFrom "gpt-4,gpt-4" "a\na")
      disableBoth).cache.channels 2).map (fun channel =>
        (after plainEnv (loadedFrom "gpt-4,gpt-4" "a\na")
          disableBoth).cache.getNextEnabledKey plainEnv channel 0) = some (.ok ("a", 1)) := by
    decide +kernel
  have hdisabled : (2, "a") ∈ (after plainEnv (loadedFrom "gpt-4,gpt-4" "a\na")
      disableBoth).disabledKeys := by decide +kernel
  refine ⟨by decide +kernel, hkey, fun h => ?_⟩
  obtain ⟨channel, hfound, hused⟩ := map_eq_some_iff.mp hkey
  exact h.keys 2 "a" hdisabled channel 0 1 hfound hused
