/-
The same choice from the database.

Without the memory cache a channel is chosen from the table of abilities.  That differs from the
choice in memory in five ways: the model is not looked for under the name of its family, the path is
compared after the priority was chosen and not before, a tag with blanks around it does not match, a
channel of type Sub2API is kept to the paths of images, and a channel of weight 0 has a chance
beside others.

* `getChannel` — the choice from the database;
* `chosen_iff`, `fetched_iff` — which channels the two can return;
* `SameChoice` — none of the differences matters to a request;
* `same_channels_iff` — exactly then both can return the same channels;
* `path_after_priority` — a request that only the memory cache serves;
* `proportional_iff` — in memory the shares are the weights, in the database those of a single
  channel;
* `first_share_greater` — two channels.
-/
import AcuGateway.ChannelCache

open List ChannelCache Draw Table
open Text (trimSpace lower)

variable (rows : List Channel) (env : ChannelEnv) (requestPath model : String) (channel : Channel)

namespace ChannelSelect

section Database

variable (env : ChannelEnv) (channels : Table Channel.id) (abilities : List Ability)

/-- The channel of an ability has the tag, if one is required. -/
def joinsTag (requiredTag : String) (row : Ability) : Bool :=
  trimSpace requiredTag = "" ||
    match channels.find? row.channelId with
    | none => false
    | some channel => lower channel.getTag = lower (trimSpace requiredTag)

/-- The abilities for a group and a model. -/
def abilityQuery (group model requiredTag : String) : List Ability :=
  abilities.filter fun row =>
    (row.group = group ∧ row.model = model ∧ row.enabled = true) ∧
      joinsTag channels requiredTag row = true

variable (group model : String)

variable (retry : Nat)

variable (requiredTag : String)

def getPriority : Except String Int :=
  match Draw.level ((abilityQuery channels abilities group model requiredTag).map Ability.priority)
      retry with
  | none => .error "数据库一致性被破坏"
  | some priority => .ok priority

/-- The abilities of the highest priority, or for a later attempt of a lower one. -/
def getChannelQuery : Except String (List Ability) :=
  let rows := abilityQuery channels abilities group model requiredTag
  if retry = 0 then
    .ok (rows.filter fun row => some row.priority = (rows.map Ability.priority).max?)
  else (getPriority channels abilities group model retry requiredTag).map fun priority =>
    rows.filter fun row => row.priority = priority

variable (rows : List Ability)

def filterAbilitiesByRequestPathAndModel (requestPath model : String) : List Ability :=
  if requestPath = "" then rows
  else rows.filter fun row =>
    match channels.find? row.channelId with
    | none => false
    | some channel => channel.supportsRequestPath env requestPath model

/-- One of the abilities, each as often as 10 more than its weight says. -/
def drawAbility (random : Nat) : Option Int :=
  let weightSum := (rows.map fun row => row.weight + 10).foldr (· + ·) 0
  draw 1 (rows.map fun row => (row.channelId, ((row.weight + 10 : Nat) : Int)))
    (random % weightSum : Nat)

/-- `GetChannel`, for one outcome of the random choice. -/
def getChannel (requestPath requiredTag : String) (random : Nat) :
    Except String (Option Channel) :=
  match getChannelQuery channels abilities group model retry requiredTag with
  | .error e => .error e
  | .ok rows =>
    let sorted := rows.insertionSort fun a b => a.weight ≥ b.weight
    let allowed := filterAbilitiesByRequestPathAndModel env channels sorted requestPath model
    if allowed = [] then .ok none
    else
      match channels.find? ((drawAbility allowed random).getD 0) with
      | some channel => .ok (some channel)
      | none => .error "record not found"

end Database

/-! ### Which channels a request can get -/

/-- An enabled channel lists the group and the model. -/
def Serves (group name : String) (channel : Channel) : Prop :=
  channel.status = .enabled ∧ group ∈ channel.groupNames ∧ name ∈ channel.modelNames
deriving Decidable

/-- The path suits a channel, as the memory cache sees it. -/
def CachedPath : Prop :=
  requestPath ≠ "" → (if channel.isACURouter then channel.supportsNativePath requestPath
      else if channel.type ≠ .advancedCustom then true
      else channel.routesSupport env requestPath model) = true
deriving Decidable

/-- The path suits a channel, as the choice from the database sees it. -/
def StoredPath : Prop := requestPath ≠ "" → channel.supportsRequestPath env requestPath model = true
deriving Decidable

/-- A channel has the tag, as the database compares it. -/
def StoredTag (requiredTag : String) (channel : Channel) : Prop :=
  trimSpace requiredTag ≠ "" → lower channel.getTag = lower (trimSpace requiredTag)
deriving Decidable

/-- The channels of the memory cache that list a model under a name and fit the request. -/
def cachedFor (rows : List Channel) (group name model requestPath requiredTag : String) :
    List Channel :=
  rows.filter fun channel =>
    Serves group name channel ∧ CachedPath env requestPath model channel ∧
      channelMatchesRequiredTag channel requiredTag = true

/-- The channels that the database finds before it looks at the path. -/
def storedFor (group model requiredTag : String) : List Channel :=
  rows.filter fun channel => Serves group model channel ∧ StoredTag requiredTag channel

/-- The priority of an attempt. -/
def levelOf (retry : Nat) : Option Int := Draw.level (rows.map Channel.priority) retry

/-- A channel has a share in the choice by weight. -/
def Weighs : Prop :=
  0 < channel.weight ∨ ∀ other ∈ rows, other.priority = channel.priority → other.weight = 0
deriving Decidable

/-- A channel is in the running for an attempt. -/
def Chosen (retry : Nat) (channel : Channel) : Prop :=
  channel ∈ rows ∧ levelOf rows retry = some channel.priority ∧ Weighs rows channel

/-- A function of the random choice can return a channel with the id. -/
def Returns (select : Nat → Except String (Option Channel)) (id : Int) : Prop :=
  ∃ random channel, select random = .ok (some channel) ∧ channel.id = id

/-- The two choices are made among the same channels: the model is not found under the name of its
family only; and of the channels that list the model itself, those without the path take no priority
away from the others, and those of the priority of the attempt have the tag as it is and the path
exactly if they have a share in the choice by weight. -/
structure SameChoice (env : ChannelEnv) (rows : List Channel)
    (group model requestPath requiredTag : String) (retry : Nat) : Prop where
  name : cachedFor env rows group model model requestPath requiredTag = [] →
    cachedFor env rows group (formatMatchingModelName model) model requestPath requiredTag = []
  priority : cachedFor env rows group model model requestPath requiredTag ≠ [] →
    levelOf (cachedFor env rows group model model requestPath requiredTag) retry =
      levelOf (storedFor rows group model requiredTag) retry
  share : ∀ channel ∈ cachedFor env rows group model model requestPath requiredTag,
    levelOf (cachedFor env rows group model model requestPath requiredTag) retry =
      some channel.priority →
      ((StoredTag requiredTag channel ∧ StoredPath env requestPath model channel) ↔
        Weighs (cachedFor env rows group model model requestPath requiredTag) channel)

/-! ### By weight -/

variable {rows env requestPath model channel} {retry : Nat} {abilities : List Ability}

section Weights

/-- What a channel weighs among others. -/
def effectiveWeight (rows : List Channel) (channel : Channel) : Nat :=
  if (rows.map Channel.weight).foldr (· + ·) 0 = 0 then 100
  else if (rows.map Channel.weight).foldr (· + ·) 0 / rows.length < 10 then channel.weight * 100
  else channel.weight

theorem sum_scaled (factor adjustment : Nat) :
    (rows.map fun channel => channel.weight * factor + adjustment).foldr (· + ·) 0 =
      (rows.map Channel.weight).foldr (· + ·) 0 * factor + rows.length * adjustment := by
  induction rows with
  | nil => simp
  | cons channel rows ih =>
    rw [map_cons, foldr_cons, ih, map_cons, foldr_cons, length_cons, Nat.add_mul, Nat.add_mul]
    omega

/-- A draw among the channels, each with what it weighs. -/
theorem chooseByWeight_eq (random : Nat) :
    chooseByWeight rows random =
      draw 0 (rows.map fun channel => (channel, (effectiveWeight rows channel : Int)))
      (random % (rows.map (effectiveWeight rows)).foldr (· + ·) 0 : Nat) := by
  -- all three ways to smooth the weights draw with the effective ones
  have hscaled : ∀ factor adjustment t,
      (rows.map Channel.weight).foldr (· + ·) 0 * factor + rows.length * adjustment = t →
      (∀ channel ∈ rows, channel.weight * factor + adjustment = effectiveWeight rows channel) →
      draw 0
        (rows.map fun channel => (channel, ((channel.weight * factor + adjustment : Nat) : Int)))
          (random % t : Nat) =
        draw 0 (rows.map fun channel => (channel, (effectiveWeight rows channel : Int)))
          (random % (rows.map (effectiveWeight rows)).foldr (· + ·) 0 : Nat) := by
    intro factor adjustment t ht hweight
    rw [← ht, ← sum_scaled, map_congr_left hweight]
    congr 1
    exact map_congr_left fun channel hchannel => by rw [hweight channel hchannel]
  unfold chooseByWeight
  dsimp only
  by_cases hsum : (rows.map Channel.weight).foldr (· + ·) 0 = 0
  · -- no weights at all: each channel gets 100
    have hzero := (sum_eq_zero_iff _ rows).mp hsum
    rw [if_neg (fun h => h.1 hsum), if_pos hsum, if_pos hsum]
    refine hscaled 1 100 _ (by omega) fun channel hchannel => ?_
    rw [effectiveWeight, if_pos hsum, hzero channel hchannel]
  · rw [if_neg hsum, if_neg hsum]
    refine hscaled _ 0 _ (by omega) fun channel _ => ?_
    rw [effectiveWeight, if_neg hsum]
    -- small weights are multiplied by 100
    by_cases haverage : (rows.map Channel.weight).foldr (· + ·) 0 / rows.length < 10
    · rw [if_pos haverage, if_pos ⟨hsum, haverage⟩]
      rfl
    · rw [if_neg haverage, if_neg (fun h => haverage h.2)]
      omega

theorem effectiveWeight_pos :
    0 < effectiveWeight rows channel ↔ 0 < channel.weight ∨ ∀ other ∈ rows, other.weight = 0 := by
  rw [← sum_eq_zero_iff, effectiveWeight]
  split_ifs with hsum
  · simp [hsum]
  · simp [hsum]
  · simp [hsum]

/-- By weight, those with a weight are chosen, or all of them if none has one. -/
theorem exists_chooseByWeight : (∃ random, chooseByWeight rows random = some channel) ↔
      channel ∈ rows ∧ (0 < channel.weight ∨ ∀ other ∈ rows, other.weight = 0) := by
  simp only [chooseByWeight_eq]
  constructor
  · rintro ⟨random, hdraw⟩
    obtain ⟨w, hmem, hpos⟩ := pos_of_draw (by omega) hdraw
    obtain ⟨drawn, hdrawn, heq⟩ := mem_map.mp hmem
    cases heq
    exact ⟨hdrawn, effectiveWeight_pos.mp (by omega)⟩
  · rintro ⟨hmem, hpos⟩
    have hweight := effectiveWeight_pos.mpr hpos
    exact exists_random id (effectiveWeight rows) (Int.le_refl 0) hmem (by omega)

/-! ### Shares -/

/-- A channel is drawn by as many numbers as it weighs: in memory by its weight, scaled up where the
weights are small, in the database by 10 more.  No number draws nothing. -/
structure Proportional (rows : List Channel) (abilities : List Ability) : Prop where
  cached : ∀ channel ∈ rows, (range ((rows.map (effectiveWeight rows)).foldr (· + ·) 0)).countP
    (fun random => chooseByWeight rows random = some channel) = effectiveWeight rows channel
  stored : ∀ row ∈ abilities,
    (range ((abilities.map fun row => row.weight + 10).foldr (· + ·) 0)).countP
    (fun random => drawAbility abilities random = some row.channelId) = row.weight + 10
  chooses : ∀ random, ∃ channel, chooseByWeight rows random = some channel
  fetches : ∀ random, ∃ id, drawAbility abilities random = some id

/-- Where no channel has a weight, all of them count. -/
theorem exists_effectiveWeight (hne : rows ≠ []) :
    ∃ channel ∈ rows, effectiveWeight rows channel ≠ 0 := by
  by_contra hsome
  have hnone : ∀ channel ∈ rows, effectiveWeight rows channel = 0 := fun channel hmem =>
    by_contra fun hweight => hsome ⟨channel, hmem, hweight⟩
  have hzero : ∀ channel ∈ rows, channel.weight = 0 := by
    intro channel hmem
    by_contra hweight
    exact (effectiveWeight_pos.mpr (.inl (Nat.pos_of_ne_zero hweight))).ne' (hnone channel hmem)
  obtain ⟨channel, hmem⟩ := exists_mem_of_ne_nil rows hne
  exact (effectiveWeight_pos.mpr (.inr hzero)).ne' (hnone channel hmem)

theorem countP_chooseByWeight (hnodup : (rows.map Channel.id).Nodup) (hmem : channel ∈ rows) :
    (range ((rows.map (effectiveWeight rows)).foldr (· + ·) 0)).countP
      (fun random => chooseByWeight rows random = some channel) = effectiveWeight rows channel := by
  rw [← countP_draw id (effectiveWeight rows) (by rw [map_id]; exact hnodup.of_map) hmem]
  refine countP_congr fun r hr => ?_
  rw [chooseByWeight_eq, Nat.mod_eq_of_lt (mem_range.mp hr)]
  rfl

variable {row next : Ability}

/-- Of several abilities the first is drawn by one number too many. -/
theorem countP_drawAbility_first
    (hnot : row.channelId ∉ (next :: abilities).map Ability.channelId) :
    (range (((row :: next :: abilities).map fun row => row.weight + 10).foldr (· + ·) 0)).countP
      (fun random => drawAbility (row :: next :: abilities) random = some row.channelId) =
        row.weight + 10 + 1 := by
  set rest := (abilities.map fun row => row.weight + 10).foldr (· + ·) 0 with hrest
  have hsum : ((row :: next :: abilities).map fun row => row.weight + 10).foldr (· + ·) 0 =
      row.weight + 10 + 1 + (next.weight + 9 + rest) := by
    rw [map_cons, map_cons, foldr_cons, foldr_cons, ← hrest]
    omega
  have hentry : (row.channelId, ((row.weight + 10 : Nat) : Int)).2 = (row.weight + 10 : Nat) := rfl
  have hfirst := countP_first
    (l := (next :: abilities).map fun row => (row.channelId, ((row.weight + 10 : Nat) : Int)))
    1 (next.weight + 9 + rest) hentry (by rwa [map_map])
  rw [hsum]
  refine Eq.trans (countP_congr fun r hr => ?_) hfirst
  rw [drawAbility, hsum, Nat.mod_eq_of_lt (mem_range.mp hr)]
  rfl

theorem countP_drawAbility_single :
    (range (([row].map fun row => row.weight + 10).foldr (· + ·) 0)).countP
      (fun random => drawAbility [row] random = some row.channelId) = row.weight + 10 := by
  have hsum : ([row].map fun row => row.weight + 10).foldr (· + ·) 0 = row.weight + 10 := rfl
  rw [hsum, countP_eq_length.mpr, length_range]
  intro r hr
  have hlt := mem_range.mp hr
  refine decide_eq_true ?_
  rw [drawAbility, hsum, Nat.mod_eq_of_lt hlt]
  have hbelow : (r : Int) - ((row.weight + 10 : Nat) : Int) < 1 := by omega
  exact if_pos hbelow

end Weights

theorem proportional_iff (group model : String) (rows : List Channel) (hne : rows ≠ [])
    (hnodup : (rows.map Channel.id).Nodup) :
    Proportional rows (rows.map fun channel => channel.ability group model) ↔ rows.length = 1 := by
  obtain ⟨first, rest, rfl⟩ := exists_cons_of_ne_nil hne
  constructor
  · intro h
    cases rest with
    | nil => rfl
    -- the first of several has one share more than its weight
    | cons next rest =>
      have hnot := (nodup_cons.mp hnodup).1
      have hexact := h.stored (first.ability group model) mem_cons_self
      rw [map_cons, map_cons, countP_drawAbility_first (by rwa [map_cons, map_map])] at hexact
      omega
  · intro hone
    obtain rfl : rest = [] := length_eq_zero_iff.mp (by simpa using hone)
    obtain ⟨channel, hmem, hweight⟩ := exists_effectiveWeight hne
    refine ⟨fun channel hmem => countP_chooseByWeight hnodup hmem, fun row hrow => ?_,
      fun random => ?_, fun random => ?_⟩
    · rw [mem_singleton.mp hrow]
      exact countP_drawAbility_single
    · rw [chooseByWeight_eq]
      exact exists_drawn id _ (Int.le_refl 0) hmem hweight random
    · exact exists_drawn Ability.channelId (fun row => row.weight + 10) (by decide) mem_cons_self
        (by omega) random

/-- A channel that serves `gpt-4` for the group `default`. -/
def gptChannel (priority : Int) (type : ChannelType) (routes : Option (List AdvancedCustomRoute))
    (id : Int) : Channel where
  id := id
  type := type
  key := "k"
  status := .enabled
  weight := 0
  models := "gpt-4"
  group := "default"
  priority := priority
  tag := none
  channelInfo := singleKey
  advancedCustom := routes

theorem proportional_single :
    [gptChannel 0 .openAI none 1].length = 1 ∧ Proportional [gptChannel 0 .openAI none 1]
      [(gptChannel 0 .openAI none 1).ability "default" "gpt-4"] :=
  ⟨rfl,
    (proportional_iff "default" "gpt-4" [gptChannel 0 .openAI none 1] (cons_ne_nil _ _)
      (nodup_singleton _)).mpr rfl⟩

/-- Of two channels without a weight the database gives the first 11 shares of 20. -/
theorem first_share_greater :
    let rows := [1, 2].map fun id => (gptChannel 0 .openAI none id).ability "default" "gpt-4"
    (range 20).countP (fun random => drawAbility rows random = some 1) = 11 ∧
      (range 20).countP (fun random => drawAbility rows random = some 2) = 9 := by
  decide +kernel

variable {priority : Int}

theorem chooseByPriority_eq (hlevel : levelOf rows retry = some priority) (random : Nat) :
    chooseByPriority rows retry random = .ok (some channel) ↔
      chooseByWeight (rows.filter fun channel => channel.priority = priority) random =
        some channel := by
  unfold levelOf at hlevel
  unfold chooseByPriority
  rw [hlevel]
  dsimp only
  cases chooseByWeight (rows.filter fun channel => channel.priority = priority) random with
  | none => simp
  | some chosen => simp

theorem exists_chooseByPriority :
    (∃ random, chooseByPriority rows retry random = .ok (some channel)) ↔
      Chosen rows retry channel := by
  cases hlevel : levelOf rows retry with
  | none =>
    -- no level: there are no channels
    have hnil : rows = [] := map_eq_nil_iff.mp (Draw.level_eq_none.mp hlevel)
    rw [hnil]
    constructor
    · rintro ⟨random, hsome⟩
      cases hsome
    · rintro ⟨hmem, -⟩
      cases hmem
  | some priority =>
    simp only [chooseByPriority_eq hlevel]
    rw [exists_chooseByWeight, Chosen, hlevel, Weighs]
    simp only [mem_filter, decide_eq_true_eq, Option.some.injEq]
    constructor
    · rintro ⟨⟨hmem, hpriority⟩, hweight⟩
      refine ⟨hmem, hpriority.symm, hweight.imp_right fun hzero other hother hsame => ?_⟩
      exact hzero other ⟨hother, hsame.trans hpriority⟩
    · rintro ⟨hmem, hpriority, hweight⟩
      refine ⟨⟨hmem, hpriority.symm⟩, hweight.imp_right fun hzero other hother => ?_⟩
      exact hzero other hother.1 (hother.2.trans hpriority)

/-- Some channel is in the running. -/
theorem exists_chosen (hne : rows ≠ []) : ∃ channel, Chosen rows retry channel := by
  cases hlevel : levelOf rows retry with
  | none =>
    have hnil := Draw.level_eq_none.mp hlevel
    exact absurd (map_eq_nil_iff.mp hnil) hne
  | some priority =>
    obtain ⟨channel, hmem, hpriority⟩ := mem_map.mp (Draw.mem_of_level hlevel)
    by_cases hweight : ∃ other ∈ rows, other.priority = priority ∧ 0 < other.weight
    · obtain ⟨other, hother, hsame, hpos⟩ := hweight
      exact ⟨other, hother, by rw [hlevel, hsame], .inl hpos⟩
    · refine ⟨channel, hmem, by rw [hlevel, hpriority], .inr fun other hother hsame => ?_⟩
      by_contra hpos
      exact hweight ⟨other, hother, hsame.trans hpriority, Nat.pos_of_ne_zero hpos⟩

/-! ### From memory -/

variable {row : Channel} {channels : Table Channel.id} {group name requiredTag : String} {id : Int}

section Memory

variable {cache : ChannelCache} {ids : List Int}

theorem find?_isNone_eq_none (hfound : ∀ id ∈ ids, ∃ channel, cache.channels id = some channel) :
    (ids.find? fun id => (cache.channels id).isNone) = none := by
  rw [List.find?_eq_none]
  intro id hid
  obtain ⟨channel, hchannel⟩ := hfound id hid
  rw [hchannel]
  exact Bool.false_ne_true

/-- The only channel is in the running. -/
theorem chosen_singleton {found : Channel} : Chosen [found] retry channel ↔ channel = found := by
  constructor
  · rintro ⟨hmem, -⟩
    exact mem_singleton.mp hmem
  · rintro rfl
    refine ⟨mem_singleton_self _, Draw.level_singleton .., ?_⟩
    rcases Nat.eq_zero_or_pos channel.weight with hzero | hpos
    · refine .inr fun other hother _ => ?_
      rw [mem_singleton.mp hother]
      exact hzero
    · exact .inl hpos

/-- One of the channels with the priority of the attempt is chosen. -/
theorem exists_choose (hfound : ∀ id ∈ ids, ∃ channel, cache.channels id = some channel) :
    (∃ random, cache.choose ids retry random = .ok (some channel)) ↔
      Chosen (ids.filterMap cache.channels) retry channel := by
  -- a single channel is chosen without a draw
  match ids with
  | [] =>
    constructor
    · rintro ⟨random, hchoose⟩
      cases hchoose
    · rintro ⟨hmem, -⟩
      cases hmem
  | [id] =>
    obtain ⟨found, hid⟩ := hfound id mem_cons_self
    have hone : [id].filterMap cache.channels = [found] := by rw [filterMap_cons, hid]; rfl
    have hchoose : ∀ random, cache.choose [id] retry random = .ok (some found) := by
      intro random
      unfold ChannelCache.choose
      dsimp only
      rw [hid]
    simp only [hchoose, hone, chosen_singleton]
    constructor
    · rintro ⟨random, hsome⟩
      cases hsome
      rfl
    · rintro rfl
      exact ⟨0, rfl⟩
  | id :: next :: ids =>
    have hchoose : ∀ random, cache.choose (id :: next :: ids) retry random =
        chooseByPriority ((id :: next :: ids).filterMap cache.channels) retry random := by
      intro random
      unfold ChannelCache.choose
      dsimp only
      rw [find?_isNone_eq_none hfound]
    simp only [hchoose]
    exact exists_chooseByPriority

/-- What the choice reads of a channel. -/
structure SameRank (channel channel' : Channel) : Prop where
  id : channel'.id = channel.id
  priority : channel'.priority = channel.priority
  weight : channel'.weight = channel.weight

theorem keepPolling_same (before : Option Channel) : SameRank row (keepPolling before row) := by
  obtain ⟨position, heq⟩ := keepPolling_eq before row
  rw [heq]
  exact ⟨rfl, rfl, rfl⟩

/-- The running depends on ids, priorities and weights only. -/
theorem chosen_map {found : List Channel} {keep : Channel → Channel}
    (hkeep : ∀ row, SameRank row (keep row))
    (hmem : ∀ channel, channel ∈ found ↔ ∃ row ∈ rows, channel = keep row) (hrow : row ∈ rows)
    (retry : Nat) :
    Chosen found retry (keep row) ↔ Chosen rows retry row := by
  -- what is kept has the same priorities, so the levels are the same
  have hlevel : levelOf found retry = levelOf rows retry := by
    refine Draw.level_congr (fun v => ?_) retry
    simp only [mem_map]
    constructor
    · rintro ⟨channel, hchannel, rfl⟩
      obtain ⟨other, hother, rfl⟩ := (hmem channel).mp hchannel
      exact ⟨other, hother, (hkeep other).priority.symm⟩
    · rintro ⟨other, hother, rfl⟩
      exact ⟨keep other, (hmem _).mpr ⟨other, hother, rfl⟩, (hkeep other).priority⟩
  unfold Chosen Weighs
  rw [hlevel, (hkeep row).priority, (hkeep row).weight]
  refine and_congr ⟨fun _ => hrow, fun _ => (hmem _).mpr ⟨row, hrow, rfl⟩⟩
    (and_congr_right fun _ => ?_)
  refine or_congr_right ⟨fun hzero other hother hsame => ?_, fun hzero other hother hsame => ?_⟩
  · rw [← (hkeep other).weight]
    exact hzero (keep other) ((hmem _).mpr ⟨other, hother, rfl⟩)
      ((hkeep other).priority.trans hsame)
  · obtain ⟨other, hother', rfl⟩ := (hmem other).mp hother
    rw [(hkeep other).weight]
    exact hzero other hother' ((hkeep other).priority.symm.trans hsame)

variable {old : ChannelCache}

theorem initChannelCache_eq (hinit : old.initChannelCache channels abilities = some cache) : cache =
      { channels := fun id => (channels.find? id).map (keepPolling (old.channels id))
        index := indexOf channels
        configs := fun id => (channels.find? id).bind fun channel =>
          if channel.type = .advancedCustom then channel.advancedCustom else none } := by
  unfold initChannelCache at hinit
  split at hinit
  · exact (Option.some.inj hinit).symm
  · cases hinit

theorem mem_candidates : id ∈ cache.candidates env group name model requestPath requiredTag ↔
      id ∈ cache.index group name ∧
        (requestPath ≠ "" → cache.allowsPath env requestPath model id = true) ∧
        (trimSpace requiredTag ≠ "" → cache.allowsTag requiredTag id = true) := by
  unfold ChannelCache.candidates filterChannelsByRequiredTag filterChannelsByRequestPathAndModel
  by_cases htag : trimSpace requiredTag = ""
  · by_cases hpath : requestPath = ""
    · simp [htag, hpath]
    · simp [htag, hpath]
  · by_cases hpath : requestPath = ""
    · simp [htag, hpath]
    · simp [htag, hpath, and_comm]

section Loaded

variable (hinit : old.initChannelCache channels abilities = some cache)

include hinit

theorem allowsPath_iff (hrow : channels.find? id = some row) :
    (requestPath ≠ "" → cache.allowsPath env requestPath model id = true) ↔
      CachedPath env requestPath model row := by
  rw [initChannelCache_eq hinit]
  unfold allowsPath CachedPath
  dsimp only
  rw [hrow]
  obtain ⟨position, heq⟩ := keepPolling_eq (old.channels id) row
  rw [Option.map_some, heq]
  dsimp only
  refine imp_congr_right fun _ => ?_
  -- the place of polling plays no part in the paths
  have hrouter : ∀ info, ({ row with channelInfo := info } : Channel).isACURouter =
      row.isACURouter := fun _ => rfl
  rw [hrouter]
  by_cases hacu : row.isACURouter = true
  · rw [if_pos hacu, if_pos hacu]
    unfold Channel.supportsRequestPath
    rw [hrouter, if_pos hacu]
    rfl
  · rw [if_neg hacu, if_neg hacu]
    by_cases htype : row.type = .advancedCustom
    · rw [if_neg (not_not_intro htype), if_neg (not_not_intro htype), Option.bind_some,
        if_pos htype]
      unfold Channel.routesSupport
      cases row.advancedCustom with
      | none => rfl
      | some routes => rfl
    · rw [if_pos htype, if_pos htype]

theorem allowsTag_iff (hrow : channels.find? id = some row) :
    (trimSpace requiredTag ≠ "" → cache.allowsTag requiredTag id = true) ↔
      channelMatchesRequiredTag row requiredTag = true := by
  rw [initChannelCache_eq hinit]
  unfold allowsTag
  dsimp only
  rw [hrow]
  obtain ⟨position, heq⟩ := keepPolling_eq (old.channels id) row
  rw [Option.map_some, heq]
  dsimp only
  have hsame : ∀ info, channelMatchesRequiredTag { row with channelInfo := info } requiredTag =
      channelMatchesRequiredTag row requiredTag := fun _ => rfl
  rw [hsame]
  constructor
  · intro h
    -- without a required tag every channel matches
    by_cases htag : trimSpace requiredTag = ""
    · unfold channelMatchesRequiredTag
      rw [htag]
      rfl
    · exact h htag
  · intro h _
    exact h

theorem mem_candidates_iff : id ∈ cache.candidates env group name model requestPath requiredTag ↔
      ∃ row ∈ cachedFor env channels.rows group name model requestPath requiredTag,
        channels.find? id = some row := by
  rw [mem_candidates]
  have hindex : cache.index = indexOf channels := by rw [initChannelCache_eq hinit]
  rw [hindex, mem_indexOf]
  constructor
  · rintro ⟨⟨row, hrow, hserves⟩, hpath, htag⟩
    refine ⟨row, mem_filter.mpr ⟨mem_of_find? hrow, decide_eq_true ⟨hserves, ?_, ?_⟩⟩, hrow⟩
    · exact (allowsPath_iff hinit hrow).mp hpath
    · exact (allowsTag_iff hinit hrow).mp htag
  · rintro ⟨row, hmem, hrow⟩
    obtain ⟨hserves, hpath, htag⟩ := of_decide_eq_true (mem_filter.mp hmem).2
    refine ⟨⟨row, hrow, hserves⟩, ?_, ?_⟩
    · exact (allowsPath_iff hinit hrow).mpr hpath
    · exact (allowsTag_iff hinit hrow).mpr htag

theorem channels_eq (id : Int) :
    cache.channels id = (channels.find? id).map (keepPolling (old.channels id)) := by
  rw [initChannelCache_eq hinit]

/-- The channels that are found for the candidates are the rows, up to the position of polling. -/
theorem mem_found :
    channel ∈ (cache.candidates env group name model requestPath requiredTag).filterMap
      cache.channels ↔ ∃ row ∈ cachedFor env channels.rows group name model requestPath requiredTag,
        channel = keepPolling (old.channels row.id) row := by
  rw [mem_filterMap]
  constructor
  · rintro ⟨id, hid, hchannel⟩
    obtain ⟨row, hrow, hfind⟩ := (mem_candidates_iff hinit).mp hid
    rw [channels_eq hinit, hfind] at hchannel
    refine ⟨row, hrow, ?_⟩
    rw [key_of_find? hfind]
    exact (Option.some.inj hchannel).symm
  · rintro ⟨row, hrow, rfl⟩
    have hfind : channels.find? row.id = some row := find?_eq_some.mpr ⟨(mem_filter.mp hrow).1, rfl⟩
    refine ⟨row.id, (mem_candidates_iff hinit).mpr ⟨row, hrow, hfind⟩, ?_⟩
    rw [channels_eq hinit, hfind]
    rfl

/-- What is chosen among the candidates is a channel in the running. -/
theorem exists_choose_candidates :
    (∃ random channel, cache.choose (cache.candidates env group name model requestPath requiredTag)
      retry random =
        .ok (some channel) ∧ channel.id = id) ↔
      ∃ row, Chosen (cachedFor env channels.rows group name model requestPath requiredTag) retry
        row ∧ row.id = id := by
  -- the candidates are the rows that serve the request, as the cache keeps them
  have hfound : ∀ id ∈ cache.candidates env group name model requestPath requiredTag,
      ∃ channel, cache.channels id = some channel := by
    intro id hid
    obtain ⟨row, -, hrow⟩ := (mem_candidates_iff hinit).mp hid
    exact ⟨_, by rw [channels_eq hinit, hrow]; rfl⟩
  have hchosen : ∀ row ∈ cachedFor env channels.rows group name model requestPath requiredTag,
      (Chosen
        ((cache.candidates env group name model requestPath requiredTag).filterMap cache.channels)
        retry (keepPolling (old.channels row.id) row) ↔
      Chosen (cachedFor env channels.rows group name model requestPath requiredTag) retry row) :=
    fun row hrow => chosen_map (fun row => keepPolling_same (old.channels row.id))
      (fun _ => mem_found hinit) hrow retry
  constructor
  · rintro ⟨random, channel, hchoose, hid⟩
    have hin := (exists_choose hfound).mp ⟨random, hchoose⟩
    obtain ⟨row, hrow, rfl⟩ := (mem_found hinit).mp hin.1
    rw [(keepPolling_same (old.channels row.id)).id] at hid
    exact ⟨row, (hchosen row hrow).mp hin, hid⟩
  · rintro ⟨row, hin, hid⟩
    obtain ⟨random, hchoose⟩ := (exists_choose hfound).mpr ((hchosen row hin.1).mpr hin)
    exact ⟨random, _, hchoose, (keepPolling_same (old.channels row.id)).id.trans hid⟩

theorem candidates_eq_nil : cache.candidates env group name model requestPath requiredTag = [] ↔
      cachedFor env channels.rows group name model requestPath requiredTag = [] := by
  rw [eq_nil_iff_forall_not_mem, eq_nil_iff_forall_not_mem]
  constructor
  · intro hnone row hrow
    have hfind : channels.find? row.id = some row := find?_eq_some.mpr ⟨(mem_filter.mp hrow).1, rfl⟩
    exact hnone row.id ((mem_candidates_iff hinit).mpr ⟨row, hrow, hfind⟩)
  · intro hnone id hid
    obtain ⟨row, hrow, -⟩ := (mem_candidates_iff hinit).mp hid
    exact hnone row hrow

/-- What the memory cache can return: a channel in the running under the name of the model, or if
there is none, under the name of its family. -/
theorem chosen_iff :
    Returns (cache.getRandomSatisfiedChannel env group model retry requestPath requiredTag) id ↔
      ∃ row, Chosen (cachedFor env channels.rows group
        (if cachedFor env channels.rows group model model requestPath requiredTag = [] then
          formatMatchingModelName model
          else model) model requestPath requiredTag) retry row ∧ row.id = id := by
  unfold Returns getRandomSatisfiedChannel
  dsimp only
  by_cases hnone : cachedFor env channels.rows group model model requestPath requiredTag = []
  · rw [if_pos hnone]
    simp only [if_pos ((candidates_eq_nil hinit).mpr hnone)]
    exact exists_choose_candidates hinit
  · rw [if_neg hnone]
    simp only [if_neg (fun h => hnone ((candidates_eq_nil hinit).mp h))]
    exact exists_choose_candidates hinit

end Loaded

end Memory

/-! ### From the database -/

section Fetched

theorem find?_of_mem (hrow : row ∈ channels.rows) : channels.find? row.id = some row :=
  find?_eq_some.mpr ⟨hrow, rfl⟩

theorem joinsTag_iff (hrow : row ∈ channels.rows) :
    joinsTag channels requiredTag (row.ability group model) = true ↔ StoredTag requiredTag row := by
  unfold joinsTag StoredTag
  have hfind : channels.find? (row.ability group model).channelId = some row := find?_of_mem hrow
  rw [hfind]
  by_cases htag : trimSpace requiredTag = ""
  · simp [htag]
  · simp [htag]

variable {rows : List Ability}

/-- Every ability has a share in the draw. -/
theorem exists_drawAbility :
    (∃ random, drawAbility rows random = some id) ↔ ∃ row ∈ rows, row.channelId = id := by
  unfold drawAbility
  dsimp only
  constructor
  · rintro ⟨random, hdraw⟩
    obtain ⟨w, hmem⟩ := mem_of_draw hdraw
    obtain ⟨row, hrow, heq⟩ := mem_map.mp hmem
    exact ⟨row, hrow, congrArg Prod.fst heq⟩
  · rintro ⟨row, hrow, rfl⟩
    exact exists_random Ability.channelId (fun row => row.weight + 10) (by decide) hrow (by omega)

variable (hmirror : AbilityMirror channels abilities)

include hmirror

theorem mem_abilityQuery {row : Ability} :
    row ∈ abilityQuery channels abilities group model requiredTag ↔
      ∃ channel ∈ storedFor channels.rows group model requiredTag,
        row = channel.ability group model := by
  unfold abilityQuery storedFor
  rw [mem_filter, hmirror.mem]
  constructor
  · rintro ⟨⟨channel, hchannel, g, hg, m, hm, rfl⟩, hcond⟩
    obtain ⟨⟨hgroup, hmodel, henabled⟩, htag⟩ := of_decide_eq_true hcond
    -- the ability is the one for this group and this model
    cases hgroup
    cases hmodel
    refine ⟨channel, mem_filter.mpr
      ⟨hchannel, decide_eq_true ⟨⟨of_decide_eq_true henabled, hg, hm⟩, ?_⟩⟩, rfl⟩
    exact (joinsTag_iff hchannel).mp htag
  · rintro ⟨channel, hmem, rfl⟩
    obtain ⟨hchannel, hcond⟩ := mem_filter.mp hmem
    obtain ⟨⟨henabled, hg, hm⟩, htag⟩ := of_decide_eq_true hcond
    refine ⟨⟨channel, hchannel, group, hg, model, hm, rfl⟩,
      decide_eq_true ⟨⟨rfl, rfl, decide_eq_true henabled⟩, ?_⟩⟩
    exact (joinsTag_iff hchannel).mpr htag

theorem level_abilityQuery :
    Draw.level
      ((abilityQuery channels abilities group model requiredTag).map Ability.priority) retry =
      levelOf (storedFor channels.rows group model requiredTag) retry := by
  refine Draw.level_congr (fun v => ?_) retry
  simp only [mem_map]
  constructor
  · rintro ⟨row, hrow, rfl⟩
    obtain ⟨channel, hchannel, rfl⟩ := (mem_abilityQuery hmirror).mp hrow
    exact ⟨channel, hchannel, rfl⟩
  · rintro ⟨channel, hchannel, rfl⟩
    exact ⟨channel.ability group model,
      (mem_abilityQuery hmirror).mpr ⟨channel, hchannel, rfl⟩, rfl⟩

/-- The abilities of the priority of the attempt. -/
theorem getChannelQuery_eq
    (hlevel : levelOf (storedFor channels.rows group model requiredTag) retry = some priority) :
    getChannelQuery channels abilities group model retry requiredTag =
      .ok ((abilityQuery channels abilities group model requiredTag).filter fun row =>
        row.priority = priority) := by
  rw [← level_abilityQuery hmirror] at hlevel
  unfold getChannelQuery getPriority
  dsimp only
  split_ifs with hretry
  · subst hretry
    rw [← Draw.level_zero, hlevel]
    simp
  · rw [hlevel]
    rfl

/-- Without a channel there is nothing to fetch. -/
theorem getChannelQuery_none (hnone : storedFor channels.rows group model requiredTag = [])
    (h : getChannelQuery channels abilities group model retry requiredTag = .ok rows) :
    rows = [] := by
  have hempty : abilityQuery channels abilities group model requiredTag = [] := by
    rw [eq_nil_iff_forall_not_mem]
    intro row hrow
    obtain ⟨channel, hchannel, -⟩ := (mem_abilityQuery hmirror).mp hrow
    rw [hnone] at hchannel
    cases hchannel
  unfold getChannelQuery getPriority at h
  rw [hempty] at h
  dsimp only at h
  split_ifs at h
  · cases h
    rfl
  · cases h

theorem mem_filterAbilities {row : Ability} :
    row ∈ filterAbilitiesByRequestPathAndModel env channels
        (((abilityQuery channels abilities group model requiredTag).filter
          fun row => row.priority = priority).insertionSort fun a b => a.weight ≥ b.weight)
        requestPath model ↔
      ∃ channel ∈ storedFor channels.rows group model requiredTag, channel.priority = priority ∧
        StoredPath env requestPath model channel ∧ row = channel.ability group model := by
  -- sorting keeps what is found
  have hsorted : ∀ row, row ∈ ((abilityQuery channels abilities group model requiredTag).filter
      fun row => row.priority = priority).insertionSort (fun a b => a.weight ≥ b.weight) ↔
      ∃ channel ∈ storedFor channels.rows group model requiredTag, channel.priority = priority ∧
        row = channel.ability group model := by
    intro row
    rw [mem_insertionSort, mem_filter, mem_abilityQuery hmirror]
    constructor
    · rintro ⟨⟨channel, hchannel, rfl⟩, hpriority⟩
      exact ⟨channel, hchannel, of_decide_eq_true hpriority, rfl⟩
    · rintro ⟨channel, hchannel, hpriority, rfl⟩
      exact ⟨⟨channel, hchannel, rfl⟩, decide_eq_true hpriority⟩
  unfold filterAbilitiesByRequestPathAndModel StoredPath
  split_ifs with hpath
  · rw [hsorted]
    constructor
    · rintro ⟨channel, hchannel, hpriority, rfl⟩
      exact ⟨channel, hchannel, hpriority, fun hne => absurd hpath hne, rfl⟩
    · rintro ⟨channel, hchannel, hpriority, -, rfl⟩
      exact ⟨channel, hchannel, hpriority, rfl⟩
  · rw [mem_filter, hsorted]
    constructor
    · rintro ⟨⟨channel, hchannel, hpriority, rfl⟩, hsupports⟩
      have hfind : channels.find? (channel.ability group model).channelId = some channel :=
        find?_of_mem (mem_filter.mp hchannel).1
      rw [hfind] at hsupports
      exact ⟨channel, hchannel, hpriority, fun _ => hsupports, rfl⟩
    · rintro ⟨channel, hchannel, hpriority, hsupports, rfl⟩
      have hfind : channels.find? (channel.ability group model).channelId = some channel :=
        find?_of_mem (mem_filter.mp hchannel).1
      rw [hfind]
      exact ⟨⟨channel, hchannel, hpriority, rfl⟩, hsupports hpath⟩

/-- What the database can return: a channel of the priority of the attempt that has the path. -/
theorem fetched_iff :
    Returns (getChannel env channels abilities group model retry requestPath requiredTag) id ↔
      ∃ row ∈ storedFor channels.rows group model requiredTag,
        levelOf (storedFor channels.rows group model requiredTag) retry = some row.priority ∧
          StoredPath env requestPath model row ∧ row.id = id := by
  cases hlevel : levelOf (storedFor channels.rows group model requiredTag) retry with
  | none =>
    have hnil : storedFor channels.rows group model requiredTag = [] :=
      map_eq_nil_iff.mp (Draw.level_eq_none.mp hlevel)
    constructor
    · rintro ⟨random, channel, hget, -⟩
      unfold getChannel at hget
      -- without rows of a level the query finds nothing
      cases hquery : getChannelQuery channels abilities group model retry requiredTag with
      | error e =>
        rw [hquery] at hget
        cases hget
      | ok rows =>
        rw [hquery, getChannelQuery_none hmirror hnil hquery] at hget
        unfold filterAbilitiesByRequestPathAndModel at hget
        simp at hget
    · rintro ⟨row, -, hsome, -⟩
      cases hsome
  | some priority =>
    unfold Returns getChannel
    rw [getChannelQuery_eq hmirror hlevel]
    dsimp only
    set allowed := filterAbilitiesByRequestPathAndModel env channels
      (((abilityQuery channels abilities group model requiredTag).filter
        fun row => row.priority = priority).insertionSort fun a b => a.weight ≥ b.weight)
      requestPath model with hallowed
    have hmem : ∀ row, row ∈ allowed ↔ ∃ channel ∈ storedFor channels.rows group model requiredTag,
        channel.priority = priority ∧ StoredPath env requestPath model channel ∧
          row = channel.ability group model :=
      fun row => mem_filterAbilities hmirror
    constructor
    · rintro ⟨random, channel, hget, rfl⟩
      split at hget
      · cases hget
      · split at hget
        · rename_i found hfound
          cases hget
          -- the draw names the channel of a row that is allowed
          cases hdraw : drawAbility allowed random with
          | none =>
            rw [hdraw] at hfound
            exact absurd (pos_of_find? hfound) (by decide)
          | some id =>
            rw [hdraw] at hfound
            obtain ⟨row, hrow, hid⟩ := exists_drawAbility.mp ⟨random, hdraw⟩
            obtain ⟨stored, hstored, hpriority, hpath, rfl⟩ := (hmem row).mp hrow
            refine ⟨stored, hstored, by rw [hpriority], hpath, ?_⟩
            exact hid.trans (key_of_find? hfound).symm
        · cases hget
    · rintro ⟨row, hrow, hpriority, hpath, rfl⟩
      -- conversely each row that is allowed is drawn by some number
      have hin := (hmem (row.ability group model)).mpr
        ⟨row, hrow, (Option.some.inj hpriority).symm, hpath, rfl⟩
      obtain ⟨random, hdraw⟩ := exists_drawAbility.mpr ⟨_, hin, rfl⟩
      refine ⟨random, row, ?_, rfl⟩
      have hfind : channels.find? (row.ability group model).channelId = some row :=
        find?_of_mem (mem_filter.mp hrow).1
      rw [if_neg (ne_nil_of_mem hin), hdraw, Option.getD_some, hfind]

end Fetched

/-! ### The two choices -/

/-- A path that the database lets pass is let pass in memory. -/
theorem StoredPath.cachedPath (h : StoredPath env requestPath model channel) :
    CachedPath env requestPath model channel := by
  intro hne
  have hsupports := h hne
  unfold Channel.supportsRequestPath at hsupports
  by_cases hacu : channel.isACURouter = true
  · rw [if_pos hacu] at hsupports ⊢
    exact hsupports
  · rw [if_neg hacu] at hsupports ⊢
    -- the cache checks the routes only, the database the images as well
    by_cases htype : channel.type = .advancedCustom
    · have hsub : ¬ (channel.type = .sub2API ∧ isImageGenerationModel model = true) := by
        rw [htype]
        exact fun hsub => absurd hsub.1 (by decide)
      rw [if_neg hsub, if_neg (not_not_intro htype)] at hsupports
      rw [if_neg (not_not_intro htype)]
      exact hsupports
    · rw [if_pos htype]

/-- A tag that the database finds is found in memory. -/
theorem StoredTag.matches (h : StoredTag requiredTag channel) :
    channelMatchesRequiredTag channel requiredTag = true := by
  unfold channelMatchesRequiredTag
  by_cases htag : trimSpace requiredTag = ""
  · simp [htag]
  · have hlower : lower (trimSpace channel.getTag) = lower (trimSpace requiredTag) := by
      rw [Text.lower_trimSpace, h htag, ← Text.lower_trimSpace, Text.trimSpace_trimSpace]
    simp [hlower]

theorem mem_cachedFor_of_stored (hrow : channel ∈ storedFor rows group model requiredTag)
    (hpath : StoredPath env requestPath model channel) :
    channel ∈ cachedFor env rows group model model requestPath requiredTag := by
  obtain ⟨hmem, hcond⟩ := mem_filter.mp hrow
  obtain ⟨hserves, htag⟩ := of_decide_eq_true hcond
  exact mem_filter.mpr ⟨hmem, decide_eq_true ⟨hserves, hpath.cachedPath, htag.matches⟩⟩

theorem mem_storedFor_of_cached
    (hrow : channel ∈ cachedFor env rows group model model requestPath requiredTag)
    (htag : StoredTag requiredTag channel) : channel ∈ storedFor rows group model requiredTag := by
  obtain ⟨hmem, hcond⟩ := mem_filter.mp hrow
  exact mem_filter.mpr ⟨hmem, decide_eq_true ⟨(of_decide_eq_true hcond).1, htag⟩⟩

theorem storedTag_of_mem (hrow : channel ∈ storedFor rows group model requiredTag) :
    StoredTag requiredTag channel :=
  (of_decide_eq_true (mem_filter.mp hrow).2).2

theorem mem_of_cachedFor
    (hrow : channel ∈ cachedFor env rows group name model requestPath requiredTag) :
    channel ∈ rows := (mem_filter.mp hrow).1

theorem same_channels_iff (env : ChannelEnv) (old cache : ChannelCache)
    (channels : Table Channel.id)
    (abilities : List Ability) (hmirror : AbilityMirror channels abilities)
    (hinit : old.initChannelCache channels abilities = some cache)
    (group model requestPath requiredTag : String) (retry : Nat) :
    (∀ id,
      Returns (cache.getRandomSatisfiedChannel env group model retry requestPath requiredTag) id ↔
        Returns (getChannel env channels abilities group model retry requestPath requiredTag) id) ↔
      SameChoice env channels.rows group model requestPath requiredTag retry := by
  simp only [chosen_iff hinit, fetched_iff hmirror]
  by_cases hnone : cachedFor env channels.rows group model model requestPath requiredTag = []
  -- nothing lists the model itself
  · simp only [if_pos hnone]
    have hnothing : ∀ row ∈ storedFor channels.rows group model requiredTag,
        ¬ StoredPath env requestPath model row := by
      intro row hrow hpath
      have := mem_cachedFor_of_stored hrow hpath
      rw [hnone] at this
      cases this
    constructor
    · intro hsame
      refine ⟨fun _ => ?_, fun hne => absurd hnone hne, fun row hrow => ?_⟩
      · by_contra hfamily
        obtain ⟨row, hchosen⟩ := exists_chosen hfamily
        obtain ⟨stored, hstored, -, hpath, -⟩ := (hsame row.id).mp ⟨row, hchosen, rfl⟩
        exact hnothing stored hstored hpath
      · rw [hnone] at hrow
        cases hrow
    · intro hsame id
      constructor
      · rintro ⟨row, hchosen, -⟩
        have := hchosen.1
        rw [hsame.name hnone] at this
        cases this
      · rintro ⟨row, hrow, -, hpath, -⟩
        exact absurd hpath (hnothing row hrow)
  · simp only [if_neg hnone]
    constructor
    · intro hsame
      obtain ⟨first, hfirst⟩ := exists_chosen hnone
      -- a channel that is chosen by one is fetched by the other
      have hfetched : ∀ row,
          Chosen (cachedFor env channels.rows group model model requestPath requiredTag) retry row →
          row ∈ storedFor channels.rows group model requiredTag ∧
            levelOf (storedFor channels.rows group model requiredTag) retry = some row.priority ∧
              StoredPath env requestPath model row := by
        intro row hchosen
        obtain ⟨stored, hstored, hlevel, hpath, hid⟩ := (hsame row.id).mp ⟨row, hchosen, rfl⟩
        rw [eq_of_key_eq (mem_of_cachedFor hchosen.1) (mem_filter.mp hstored).1 hid.symm]
        exact ⟨hstored, hlevel, hpath⟩
      have hpriority :
          levelOf (cachedFor env channels.rows group model model requestPath requiredTag) retry =
          levelOf (storedFor channels.rows group model requiredTag) retry := by
        rw [hfirst.2.1, (hfetched first hfirst).2.1]
      refine ⟨fun h => absurd h hnone, fun _ => hpriority, fun row hrow hlevel => ?_⟩
      constructor
      · rintro ⟨htag, hpath⟩
        have hstored := mem_storedFor_of_cached hrow htag
        obtain ⟨chosen, hchosen, hid⟩ :=
          (hsame row.id).mpr ⟨row, hstored, hpriority.symm.trans hlevel, hpath, rfl⟩
        have heq := eq_of_key_eq (mem_of_cachedFor hchosen.1) (mem_of_cachedFor hrow) hid
        rw [← heq]
        exact hchosen.2.2
      · intro hweighs
        obtain ⟨hstored, -, hpath⟩ := hfetched row ⟨hrow, hlevel, hweighs⟩
        exact ⟨storedTag_of_mem hstored, hpath⟩
    · intro hsame id
      have hpriority := hsame.priority hnone
      constructor
      · rintro ⟨row, ⟨hrow, hlevel, hweighs⟩, hid⟩
        obtain ⟨htag, hpath⟩ := (hsame.share row hrow hlevel).mpr hweighs
        exact ⟨row, mem_storedFor_of_cached hrow htag, hpriority.symm.trans hlevel, hpath, hid⟩
      · rintro ⟨row, hrow, hlevel, hpath, hid⟩
        have hcached := mem_cachedFor_of_stored hrow hpath
        have hlevel' := hpriority.trans hlevel
        have hweighs := (hsame.share row hcached hlevel').mp ⟨storedTag_of_mem hrow, hpath⟩
        exact ⟨row, ⟨hcached, hlevel', hweighs⟩, hid⟩

/-- Two channels of OpenAI, one of a lower priority. -/
def plainChannels : Table Channel.id :=
  (Table.empty.insert (gptChannel 10 .openAI none) fun _ => rfl).insert
    (gptChannel 0 .openAI none) fun _ => rfl

/-- The first channel has routes of its own, which are for embeddings. -/
def routedChannels : Table Channel.id :=
  (Table.empty.insert (gptChannel 10 .advancedCustom (some [⟨"/v1/embeddings", []⟩]))
    fun _ => rfl).insert (gptChannel 0 .openAI none) fun _ => rfl

theorem returns_of_map {select : Nat → Except String (Option Channel)} (random : Nat)
    (h : (select random).map (Option.map Channel.id) = .ok (some id)) : Returns select id := by
  cases hselect : select random with
  | error e =>
    rw [hselect] at h
    cases h
  | ok result =>
    rw [hselect] at h
    cases result with
    | none => cases h
    | some channel =>
      cases h
      exact ⟨random, channel, hselect, rfl⟩

def loadedWith (channels : Table Channel.id) : ChannelCache :=
  (blank.initChannelCache channels (channels.rows.flatMap Channel.abilities)).getD blank

theorem same_channels_plain :
    (∀ id,
      Returns ((loadedWith plainChannels).getRandomSatisfiedChannel plainEnv "default" "gpt-4" 0
          "/v1/chat/completions" "") id ↔
        Returns
          (getChannel plainEnv plainChannels (plainChannels.rows.flatMap Channel.abilities)
            "default" "gpt-4" 0 "/v1/chat/completions" "") id) ↔
      SameChoice plainEnv plainChannels.rows "default" "gpt-4" "/v1/chat/completions" "" 0 :=
  same_channels_iff plainEnv blank _ plainChannels _
    (abilityMirror_flatMap plainChannels (by decide +kernel)) rfl "default" "gpt-4"
      "/v1/chat/completions" "" 0

/-- The channel of the highest priority does not have the path.  In memory the other one is chosen,
from the database none. -/
theorem path_after_priority :
    AbilityMirror routedChannels (routedChannels.rows.flatMap Channel.abilities) ∧
      Returns ((loadedWith routedChannels).getRandomSatisfiedChannel plainEnv "default" "gpt-4" 0
        "/v1/chat/completions" "") 2 ∧
      ¬ Returns
        (getChannel plainEnv routedChannels (routedChannels.rows.flatMap Channel.abilities)
          "default" "gpt-4" 0 "/v1/chat/completions" "") 2 := by
  refine ⟨abilityMirror_flatMap routedChannels (by decide +kernel), ?_, ?_⟩
  · exact returns_of_map 0 (by decide +kernel)
  · rw [fetched_iff (abilityMirror_flatMap routedChannels (by decide +kernel))]
    decide +kernel

end ChannelSelect
