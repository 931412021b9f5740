/-
The management of channels, and the table of abilities beside it.

Each operation changes the table of channels and has its own way to keep the abilities up: it adds
rows for a new channel, deletes the rows of a channel and adds them anew, updates rows by tag or by
channel, or does nothing.  The rows of a channel are found to be different by the text
`group|model`.

* `ChannelAdmin.step` — the operations;
* `ChannelAdmin.Keeps` — when an operation keeps the abilities up;
* `mirror_step_iff` — exactly then they mirror the channels afterwards;
* `abilities_mirror_iff` — and so in every sequence of operations;
* `disabled_channels_deleted` — rows that are left behind.
-/
import AcuGateway.Channel
import AcuGateway.Lib.Rows
import AcuGateway.Lib.Run

open List Table

/-- The primary key of an ability. -/
def Ability.key (row : Ability) : String × String × Int := (row.group, row.model, row.channelId)

variable (status : ChannelStatus) (channel : Channel) {row : Ability}

namespace Channel

/-- The groups and models of a channel, in the order in which rows are made of them. -/
def pairs : List (String × String) :=
  channel.modelNames.flatMap fun model => channel.groupNames.map fun group => (group, model)

/-- How the pairs are told apart. -/
def pairKey (pair : String × String) : String := pair.1 ++ "|" ++ pair.2

/-- The rows that `AddAbilities` and `UpdateAbilities` make. -/
def abilityRows : List Ability :=
  (Rows.distinctBy pairKey [] channel.pairs).map fun pair => channel.ability pair.1 pair.2

/-- Different pairs are told apart. -/
def KeysDistinct : Prop :=
  ∀ pair ∈ channel.pairs, ∀ pair' ∈ channel.pairs, pairKey pair = pairKey pair' → pair = pair'
deriving Decidable

section Pairs

variable {channel : Channel}

theorem mem_pairs {pair : String × String} :
    pair ∈ channel.pairs ↔ pair.1 ∈ channel.groupNames ∧ pair.2 ∈ channel.modelNames := by
  unfold pairs
  simp only [mem_flatMap, mem_map]
  constructor
  · rintro ⟨model, hmodel, group, hgroup, rfl⟩
    exact ⟨hgroup, hmodel⟩
  · rintro ⟨hgroup, hmodel⟩
    exact ⟨pair.2, hmodel, pair.1, hgroup, rfl⟩

theorem mem_abilities_iff :
    row ∈ channel.abilities ↔ ∃ pair ∈ channel.pairs, row = channel.ability pair.1 pair.2 := by
  rw [mem_abilities]
  constructor
  · rintro ⟨group, hgroup, model, hmodel, rfl⟩
    exact ⟨(group, model), mem_pairs.mpr ⟨hgroup, hmodel⟩, rfl⟩
  · rintro ⟨pair, hpair, rfl⟩
    obtain ⟨hgroup, hmodel⟩ := mem_pairs.mp hpair
    exact ⟨pair.1, hgroup, pair.2, hmodel, rfl⟩

theorem channelId_of_mem (h : row ∈ channel.abilities) : row.channelId = channel.id := by
  obtain ⟨pair, -, rfl⟩ := mem_abilities_iff.mp h
  rfl

theorem tag_of_mem (h : row ∈ channel.abilities) : row.tag = channel.tag := by
  obtain ⟨pair, -, rfl⟩ := mem_abilities_iff.mp h
  rfl

theorem mem_abilities_of_rows (h : row ∈ channel.abilityRows) : row ∈ channel.abilities := by
  obtain ⟨pair, hpair, rfl⟩ := mem_map.mp h
  exact mem_abilities_iff.mpr ⟨pair, (Rows.mem_of_mem_distinctBy hpair).1, rfl⟩

theorem channelId_of_row (h : row ∈ channel.abilityRows) : row.channelId = channel.id :=
  channelId_of_mem (mem_abilities_of_rows h)

theorem nodup_abilityRows : (channel.abilityRows.map Ability.key).Nodup := by
  rw [abilityRows, map_map]
  refine (Rows.nodup_map_distinctBy.of_map pairKey).map fun pair pair' heq => ?_
  have hkey : (pair.1, pair.2, channel.id) = (pair'.1, pair'.2, channel.id) := heq
  obtain ⟨hgroup, hrest⟩ := Prod.mk.inj hkey
  exact Prod.ext hgroup (Prod.mk.inj hrest).1

/-- All rows are made exactly if the pairs are told apart. -/
theorem subset_abilityRows_iff :
    (∀ row ∈ channel.abilities, row ∈ channel.abilityRows) ↔ channel.KeysDistinct := by
  rw [KeysDistinct, ← Rows.subset_distinctBy_iff]
  constructor
  · intro hall pair hpair
    obtain ⟨pair', hpair', heq⟩ := mem_map.mp (hall _ (mem_abilities_iff.mpr ⟨pair, hpair, rfl⟩))
    have hgroup : pair'.1 = pair.1 := congrArg Ability.group heq
    have hmodel : pair'.2 = pair.2 := congrArg Ability.model heq
    have hsame : pair' = pair := Prod.ext hgroup hmodel
    rw [← hsame]
    exact hpair'
  · intro hall row hrow
    obtain ⟨pair, hpair, rfl⟩ := mem_abilities_iff.mp hrow
    exact mem_map.mpr ⟨pair, hall pair hpair, rfl⟩

theorem mem_abilityRows_iff (h : channel.KeysDistinct) :
    row ∈ channel.abilityRows ↔ row ∈ channel.abilities :=
  ⟨mem_abilities_of_rows, subset_abilityRows_iff.mpr h row⟩

/-- A channel has a group and a model, if only one with an empty name. -/
theorem exists_pair : ∃ pair, pair ∈ channel.pairs := by
  obtain ⟨group, hgroup⟩ := exists_mem_of_ne_nil _ (Text.split_ne_nil channel.group ",")
  obtain ⟨model, hmodel⟩ := exists_mem_of_ne_nil _ (Text.split_ne_nil channel.models ",")
  exact ⟨(group, model), mem_pairs.mpr ⟨hgroup, hmodel⟩⟩

theorem exists_abilityRow : ∃ row, row ∈ channel.abilityRows := by
  obtain ⟨pair, hpair⟩ := exists_pair
  obtain ⟨first, hfirst, -⟩ := Rows.exists_mem_distinctBy hpair (not_mem_nil (a := pairKey pair))
  exact ⟨_, mem_map.mpr ⟨first, hfirst, rfl⟩⟩

end Pairs

def withTag (tag : Option String) (channel : Channel) : Channel := { channel with tag }

theorem withTag_id (tag : Option String) : (channel.withTag tag).id = channel.id := rfl

def withStatus : Channel := { channel with status }

theorem withStatus_id : (channel.withStatus status).id = channel.id := rfl

end Channel

def Ability.withStatus (row : Ability) : Ability := { row with enabled := status = .enabled }

theorem Ability.withStatus_key : (row.withStatus status).key = row.key := rfl

/-- A channel as it comes with a request; an empty value stands for none. -/
structure ChannelInput where
  type : ChannelType
  key : String
  status : ChannelStatus
  weight : Option Nat
  models : String
  group : String
  priority : Option Int
  tag : Option String
  channelInfo : Option ChannelInfo
  advancedCustom : Option (List AdvancedCustomRoute)

namespace ChannelInput

def noInfo : ChannelInfo := ⟨false, ∅, 0, .other⟩

variable (input : ChannelInput)

/-- The row that is created, with the defaults of the columns. -/
def create (id : Int) : Channel where
  id := id
  type := input.type
  key := input.key
  status := if input.status = .unknown then .enabled else input.status
  weight := input.weight.getD 0
  models := input.models
  group := if input.group = "" then "default" else input.group
  priority := input.priority.getD 0
  tag := input.tag
  channelInfo := input.channelInfo.getD noInfo
  advancedCustom := input.advancedCustom

/-- The row after an update with the values that are not empty. -/
def merge (channel : Channel) : Channel where
  id := channel.id
  type := if input.type = .other 0 then channel.type else input.type
  key := if input.key = "" then channel.key else input.key
  status := if input.status = .unknown then channel.status else input.status
  weight := input.weight.getD channel.weight
  models := if input.models = "" then channel.models else input.models
  group := if input.group = "" then channel.group else input.group
  priority := input.priority.getD channel.priority
  tag := input.tag.or channel.tag
  channelInfo := input.channelInfo.getD channel.channelInfo
  advancedCustom := input.advancedCustom.or channel.advancedCustom

/-- The values as they came, under an id that has no row. -/
def asGiven (id : Int) : Channel where
  id := id
  type := input.type
  key := input.key
  status := input.status
  weight := input.weight.getD 0
  models := input.models
  group := input.group
  priority := input.priority.getD 0
  tag := input.tag
  channelInfo := input.channelInfo.getD noInfo
  advancedCustom := input.advancedCustom

end ChannelInput

/-- The parameters of `EditChannelByTag` that abilities show. -/
structure TagEdit where
  newTag : Option String
  models : Option String
  group : Option String
  priority : Option Int
  weight : Option Nat

namespace TagEdit

variable (edit : TagEdit) (tag : String)

def updatedTag : String := edit.newTag.getD tag

/-- The abilities are made anew. -/
def shouldReCreateAbilities : Bool := edit.models.getD "" ≠ "" || edit.group.getD "" ≠ ""

def onChannel (channel : Channel) : Channel :=
  { channel with
    tag := some (edit.updatedTag tag)
    models := if edit.models.getD "" = "" then channel.models else edit.models.getD ""
    group := if edit.group.getD "" = "" then channel.group else edit.group.getD ""
    priority := edit.priority.getD channel.priority
    weight := edit.weight.getD channel.weight }

theorem onChannel_id (channel : Channel) : (edit.onChannel tag channel).id = channel.id := rfl

/-- `UpdateAbilityByTag`: a weight of 0 is an empty value. -/
def onAbility (row : Ability) : Ability :=
  { row with
    tag := some (edit.updatedTag tag)
    priority := edit.priority.getD row.priority
    weight := if edit.weight.getD 0 = 0 then row.weight else edit.weight.getD 0 }

theorem onAbility_key : (edit.onAbility tag row).key = row.key := rfl

end TagEdit

structure ChannelDB where
  channels : Table Channel.id
  abilities : Rows Ability.key

namespace ChannelAdmin

variable (abilities : Rows Ability.key)

def addAbilities (channel : Channel) : Rows Ability.key :=
  abilities.insertAll channel.abilityRows

def updateAbilities (channel : Channel) : Rows Ability.key :=
  (abilities.deleteWhere fun row => row.channelId = channel.id).insertAll channel.abilityRows

inductive Op
  | insert (input : ChannelInput)
  | batchInsertChannels (inputs : List ChannelInput)
  | update (id : Int) (input : ChannelInput)
  | batchSetChannelTag (ids : List Int) (tag : Option String)
  | editChannelByTag (tag : String) (edit : TagEdit)
  | enableChannelByTag (tag : String)
  | disableChannelByTag (tag : String)
  -- `known` if the memory cache has the status already, or not the channel
  | updateChannelStatus (known : Bool) (id : Int) (status : ChannelStatus)
  | delete (id : Int)
  | batchDeleteChannels (ids : List Int)
  | deleteDisabledChannel

variable (db : ChannelDB)

def insert (input : ChannelInput) : ChannelDB where
  channels := db.channels.insert input.create fun _ => rfl
  abilities := addAbilities db.abilities (input.create db.channels.seq)

/-- A row is stored anew, and its abilities are made anew. -/
def replaceChannel (channel : Channel) : ChannelDB where
  channels := db.channels.save channel
  abilities := updateAbilities db.abilities channel

/-- An id of 0 is no condition, and the update fails for that; for an id without a row it changes
nothing, and what is read back afterwards stays as it came. -/
def update (id : Int) (input : ChannelInput) : ChannelDB :=
  if id = 0 then db
  else
    match db.channels.find? id with
    | some channel => replaceChannel db (input.merge channel)
    | none => { db with abilities := updateAbilities db.abilities (input.asGiven id) }

/-- The channels are read outside of the transaction, so they still have their old tags. -/
def batchSetChannelTag (ids : List Int) (tag : Option String) : ChannelDB where
  channels := db.channels.update (fun channel => channel.id ∈ ids) (Channel.withTag tag)
    fun channel _ =>
      channel.withTag_id tag
  abilities := (db.channels.rows.filter fun channel => channel.id ∈ ids).foldl updateAbilities
    db.abilities

def editChannelByTag (tag : String) (edit : TagEdit) : ChannelDB :=
  let channels := db.channels.update (fun channel => channel.tag = some tag) (edit.onChannel tag)
    fun channel _ =>
      edit.onChannel_id tag channel
  if edit.shouldReCreateAbilities then
    { channels
      abilities :=
        (channels.rows.filter fun channel => channel.tag = some (edit.updatedTag tag)).foldl
          updateAbilities
        db.abilities }
  else
    { channels
      abilities := db.abilities.update (fun row => row.tag = some tag) (edit.onAbility tag)
        fun _ _ =>
          edit.onAbility_key tag }

/-- The status of the channels that a condition selects, and of their abilities. -/
def setStatus (channel : Channel → Bool) (ability : Ability → Bool) (status : ChannelStatus) :
    ChannelDB where
  channels := db.channels.update channel (Channel.withStatus status) fun channel _ =>
    channel.withStatus_id status
  abilities := db.abilities.update ability (Ability.withStatus status) fun row _ =>
    row.withStatus_key status

def setStatusByTag (tag : String) (status : ChannelStatus) : ChannelDB :=
  setStatus db (fun channel => channel.tag = some tag) (fun row => row.tag = some tag) status

/-- Channels with many keys are not meant here. -/
def updateChannelStatus (known : Bool) (id : Int) (status : ChannelStatus) : ChannelDB :=
  match db.channels.find? id with
  | none => db
  | some channel =>
    if known = true ∨ channel.status = status ∨ channel.channelInfo.isMultiKey = true then db
    else setStatus db (fun channel => channel.id = id) (fun row => row.channelId = id) status

def deleteChannels (ids : List Int) : ChannelDB where
  channels := db.channels.deleteWhere fun channel => channel.id ∈ ids
  abilities := db.abilities.deleteWhere fun row => row.channelId ∈ ids

def deleteDisabledChannel : ChannelDB :=
  { db with
    channels := db.channels.deleteWhere fun channel =>
      channel.status = .autoDisabled || channel.status = .manuallyDisabled }

def step : Op → ChannelDB
  | .insert input => insert db input
  | .batchInsertChannels inputs => inputs.foldl insert db
  | .update id input => update db id input
  | .batchSetChannelTag ids tag => batchSetChannelTag db ids tag
  | .editChannelByTag tag edit => editChannelByTag db tag edit
  | .enableChannelByTag tag => setStatusByTag db tag .enabled
  | .disableChannelByTag tag => setStatusByTag db tag .manuallyDisabled
  | .updateChannelStatus known id status => updateChannelStatus db known id status
  | .delete id => deleteChannels db [id]
  | .batchDeleteChannels ids => deleteChannels db ids
  | .deleteDisabledChannel => deleteDisabledChannel db

/-! ### The mirror -/

def Mirror : Prop := AbilityMirror db.channels db.abilities.rows

/-- The abilities are kept up: the pairs of a channel whose rows are made are told apart, an updated
channel exists, a tag that is set by ids is the one the channels have, a weight of 0 that is set by
tag is the one they have, and there is no disabled channel that is deleted for that. -/
def Keeps (db : ChannelDB) : Op → Prop
  | .insert input => (input.create 0).KeysDistinct
  | .batchInsertChannels inputs => ∀ input ∈ inputs, (input.create 0).KeysDistinct
  | .update id input =>
    id = 0 ∨ ∃ channel ∈ db.channels.find? id, (input.merge channel).KeysDistinct
  | .batchSetChannelTag ids tag =>
    ∀ channel ∈ db.channels.rows, channel.id ∈ ids → channel.KeysDistinct ∧ channel.tag = tag
  | .editChannelByTag tag edit => ∀ channel ∈ db.channels.rows,
    if edit.shouldReCreateAbilities = true then
      (channel.tag = some tag → (edit.onChannel tag channel).KeysDistinct) ∧
        (channel.tag ≠ some tag → channel.tag = some (edit.updatedTag tag) → channel.KeysDistinct)
    else channel.tag = some tag → edit.weight = some 0 → channel.weight = 0
  | .enableChannelByTag _ | .disableChannelByTag _ | .updateChannelStatus .. | .delete
    _ | .batchDeleteChannels _ => True
  | .deleteDisabledChannel => ∀ channel ∈ db.channels.rows,
    channel.status ≠ .autoDisabled ∧ channel.status ≠ .manuallyDisabled

instance : DecidablePred (Keeps db) := fun _ => by unfold Keeps; split <;> infer_instance

variable {abilities : Rows Ability.key}

section Abilities

variable {channel : Channel}

theorem mem_addAbilities (hfresh : ∀ row ∈ abilities.rows, row.channelId ≠ channel.id) :
    row ∈ (addAbilities abilities channel).rows ↔
      row ∈ abilities.rows ∨ row ∈ channel.abilityRows := by
  refine Rows.mem_insertAll Channel.nodup_abilityRows fun new hnew old hold heq => ?_
  have hid : old.channelId = new.channelId := congrArg (fun key => key.2.2) heq
  exact hfresh old hold (hid.trans (Channel.channelId_of_row hnew))

theorem mem_updateAbilities : row ∈ (updateAbilities abilities channel).rows ↔
      row ∈ abilities.rows ∧ row.channelId ≠ channel.id ∨ row ∈ channel.abilityRows := by
  have hkept : ∀ row, row ∈ (abilities.deleteWhere fun row => row.channelId = channel.id).rows ↔
      row ∈ abilities.rows ∧ row.channelId ≠ channel.id := fun row => by
    rw [Rows.mem_deleteWhere, decide_eq_false_iff_not]
  rw [← hkept]
  exact mem_addAbilities fun row hrow => ((hkept row).mp hrow).2

/-- The rows of some channels are made anew, the others stay. -/
theorem mem_foldl_updateAbilities {channels : List Channel}
    (hids : (channels.map Channel.id).Nodup) :
    row ∈ (channels.foldl updateAbilities abilities).rows ↔
      row ∈ abilities.rows ∧ (∀ channel ∈ channels, row.channelId ≠ channel.id) ∨
        ∃ channel ∈ channels, row ∈ channel.abilityRows := by
  induction channels generalizing abilities with
  | nil => simp
  | cons channel channels ih =>
    obtain ⟨hnew, hrest⟩ := nodup_cons.mp hids
    rw [foldl_cons, ih hrest, mem_updateAbilities, forall_mem_cons, exists_mem_cons_iff]
    -- the rows that were just made are not deleted again
    have hlater : row ∈ channel.abilityRows → ∀ other ∈ channels, row.channelId ≠ other.id := by
      intro hrow other hother heq
      rw [Channel.channelId_of_row hrow] at heq
      exact hnew (mem_map.mpr ⟨other, hother, heq.symm⟩)
    constructor
    · rintro (⟨⟨hrow, hne⟩ | hrow, hothers⟩ | hmade)
      · exact .inl ⟨hrow, hne, hothers⟩
      · exact .inr (.inl hrow)
      · exact .inr (.inr hmade)
    · rintro (⟨hrow, hne, hothers⟩ | hrow | hmade)
      · exact .inl ⟨.inl ⟨hrow, hne⟩, hothers⟩
      · exact .inl ⟨.inr hrow, hlater hrow⟩
      · exact .inr hmade

end Abilities

theorem mirror_iff {db : ChannelDB} :
    Mirror db ↔ ∀ row, row ∈ db.abilities.rows ↔
      ∃ channel ∈ db.channels.rows, row ∈ channel.abilities := by
  simp only [Channel.mem_abilities]
  exact ⟨fun h => h.mem, fun h => ⟨db.abilities.rows_nodup, h⟩⟩

/-- The abilities under an id are those of the channel under it. -/
def ShownAt (id : Int) : Prop := ∀ row : Ability, row.channelId = id →
  (row ∈ db.abilities.rows ↔ ∃ channel ∈ db.channels.find? id, row ∈ channel.abilities)

section Operations

variable {db db' : ChannelDB} {id : Int} {channel : Channel}

theorem mirror_iff_shownAt : Mirror db ↔ ∀ id, ShownAt db id := by
  have hfound : ∀ row : Ability, (∃ channel ∈ db.channels.rows, row ∈ channel.abilities) ↔
      ∃ channel ∈ db.channels.find? row.channelId, row ∈ channel.abilities := by
    intro row
    refine exists_congr fun channel => and_congr_left fun hin => ?_
    rw [Option.mem_def, find?_eq_some, Channel.channelId_of_mem hin, and_iff_left rfl]
  rw [mirror_iff]
  constructor
  · rintro h id row rfl
    rw [h, hfound]
  · intro h row
    rw [h _ row rfl, hfound]

theorem shownAt_congr (hfind : db'.channels.find? id = db.channels.find? id)
    (hrows : ∀ row : Ability, row.channelId = id →
      (row ∈ db'.abilities.rows ↔ row ∈ db.abilities.rows)) :
    ShownAt db' id ↔ ShownAt db id := by
  unfold ShownAt
  rw [hfind]
  exact forall₂_congr fun row hid => by rw [hrows row hid]

/-- Rows that are made have to be those of the channel that is stored. -/
theorem shownAt_made_iff (channel : Channel) {new : Channel}
    (hfind : db'.channels.find? channel.id = some new)
    (hrows : ∀ row : Ability, row.channelId = channel.id →
      (row ∈ db'.abilities.rows ↔ row ∈ channel.abilityRows)) :
    ShownAt db' channel.id ↔ ∀ row, row ∈ channel.abilityRows ↔ row ∈ new.abilities := by
  have hnew : new.id = channel.id := key_of_find? hfind
  unfold ShownAt
  simp only [hfind, Option.mem_some_iff, exists_eq_left']
  constructor
  · intro h row
    by_cases hid : row.channelId = channel.id
    · rw [← hrows row hid, h row hid]
    · exact iff_of_false (fun hrow => hid (Channel.channelId_of_row hrow)) fun hrow =>
        hid ((Channel.channelId_of_mem hrow).trans hnew)
  · intro h row hid
    rw [hrows row hid, h]

/-- If the rows of the channels of a list are made anew, and in the table other channels `new` stand
for them, the rows have to be those of the others. -/
theorem mirror_rebuilt_iff (hmirror : Mirror db) (made : List Channel) (new : Channel → Channel)
    (hids : (made.map Channel.id).Nodup) (hkept : ∀ id, (∀ channel ∈ made, channel.id ≠ id) →
      db'.channels.find? id = db.channels.find? id)
    (hnew : ∀ channel ∈ made, db'.channels.find? channel.id = some (new channel))
    (habilities : db'.abilities = made.foldl updateAbilities db.abilities) :
    Mirror db' ↔ ∀ channel ∈ made, ∀ row, row ∈ channel.abilityRows ↔
      row ∈ (new channel).abilities := by
  -- a rebuilt channel shows exactly the abilities that it makes
  have hmade : ∀ channel ∈ made,
      (ShownAt db' channel.id ↔ ∀ row, row ∈ channel.abilityRows ↔
          row ∈ (new channel).abilities) := by
    intro channel hchannel
    refine shownAt_made_iff channel (hnew channel hchannel) fun row hid => ?_
    rw [habilities, mem_foldl_updateAbilities hids]
    constructor
    · rintro (⟨-, hothers⟩ | ⟨other, hother, hrow⟩)
      · exact absurd hid (hothers channel hchannel)
      · have hsame : other.id = channel.id := (Channel.channelId_of_row hrow).symm.trans hid
        rwa [← inj_on_of_nodup_map hids hother hchannel hsame]
    · exact fun hrow => .inr ⟨channel, hchannel, hrow⟩
  rw [mirror_iff_shownAt] at hmirror ⊢
  refine ⟨fun hafter channel hchannel => (hmade channel hchannel).mp (hafter _), fun hrows id => ?_⟩
  -- the other channels and their abilities are as before
  by_cases hin : ∃ channel ∈ made, channel.id = id
  · obtain ⟨channel, hchannel, rfl⟩ := hin
    exact (hmade channel hchannel).mpr (hrows channel hchannel)
  · have hnot : ∀ channel ∈ made, channel.id ≠ id :=
      fun channel hchannel hid => hin ⟨channel, hchannel, hid⟩
    refine (shownAt_congr (hkept id hnot) fun row hid => ?_).mpr (hmirror id)
    rw [habilities, mem_foldl_updateAbilities hids]
    constructor
    · rintro (hold | ⟨channel, hchannel, hrow⟩)
      · exact hold.1
      · exact absurd ((Channel.channelId_of_row hrow).symm.trans hid) (hnot channel hchannel)
    · exact fun hrow =>
        .inl ⟨hrow, fun channel hchannel heq => hnot channel hchannel (heq.symm.trans hid)⟩

/-- If channels and their abilities are updated side by side, the abilities have to be updated to
those of the updated channels. -/
theorem mirror_update_iff (hmirror : Mirror db) {p : Channel → Bool} {f : Channel → Channel}
    {q : Ability → Bool}
    {g : Ability → Ability} {hf : ∀ channel, p channel = true → (f channel).id = channel.id}
    {hg : ∀ row, q row = true → (g row).key = row.key}
    (hpairs : ∀ channel, (f channel).pairs = channel.pairs)
    (hsame : ∀ channel ∈ db.channels.rows, ∀ row ∈ channel.abilities, q row = p channel) :
    Mirror ⟨db.channels.update p f hf, db.abilities.update q g hg⟩ ↔
      ∀ channel ∈ db.channels.rows, p channel = true → ∀ pair ∈ channel.pairs,
        g (channel.ability pair.1 pair.2) = (f channel).ability pair.1 pair.2 := by
  rw [mirror_iff] at hmirror ⊢
  have hid : ∀ channel, (if p channel then f channel else channel).id = channel.id := fun channel =>
    column_update_row channel hf
  have hpairs' : ∀ channel, (if p channel then f channel else channel).pairs = channel.pairs := by
    intro channel
    split
    · exact hpairs channel
    · rfl
  have habilities : ∀ row', row' ∈ (db.abilities.update q g hg).rows ↔
      ∃ channel ∈ db.channels.rows, ∃ pair ∈ channel.pairs,
        row' = if p channel then g (channel.ability pair.1 pair.2)
            else channel.ability pair.1 pair.2 := by
    intro row'
    rw [Rows.mem_update]
    constructor
    · rintro ⟨row, hrow, rfl⟩
      obtain ⟨channel, hchannel, hin⟩ := (hmirror row).mp hrow
      obtain ⟨pair, hpair, rfl⟩ := Channel.mem_abilities_iff.mp hin
      exact ⟨channel, hchannel, pair, hpair, by rw [hsame channel hchannel _ hin]⟩
    · rintro ⟨channel, hchannel, pair, hpair, rfl⟩
      have hin := Channel.mem_abilities_iff.mpr ⟨pair, hpair, rfl⟩
      exact ⟨_, (hmirror _).mpr ⟨channel, hchannel, hin⟩, by rw [hsame channel hchannel _ hin]⟩
  have hchannels : ∀ row',
      (∃ channel' ∈ (db.channels.update p f hf).rows, row' ∈ channel'.abilities) ↔
      ∃ channel ∈ db.channels.rows, ∃ pair ∈ channel.pairs,
        row' = (if p channel then f channel else channel).ability pair.1 pair.2 := by
    intro row'
    simp only [mem_update, Channel.mem_abilities_iff]
    constructor
    · rintro ⟨_, ⟨channel, hchannel, rfl⟩, pair, hpair, rfl⟩
      exact ⟨channel, hchannel, pair, hpairs' channel ▸ hpair, rfl⟩
    · rintro ⟨channel, hchannel, pair, hpair, rfl⟩
      exact ⟨_, ⟨channel, hchannel, rfl⟩, pair, (hpairs' channel).symm ▸ hpair, rfl⟩
  simp only [habilities, hchannels]
  constructor
  · intro hafter channel hchannel hp pair hpair
    obtain ⟨channel', hchannel', pair', -, heq⟩ :=
      (hafter _).mp ⟨channel, hchannel, pair, hpair, rfl⟩
    rw [if_pos hp] at heq
    -- an update keeps the key of a row, so the row on the other side belongs to the same channel
    have hin : channel.ability pair.1 pair.2 ∈ channel.abilities :=
      Channel.mem_abilities_iff.mpr ⟨pair, hpair, rfl⟩
    have hkey : (pair'.1, pair'.2, channel'.id) = (pair.1, pair.2, channel.id) := by
      rw [← hid channel']
      exact (congrArg Ability.key heq).symm.trans (hg _ ((hsame channel hchannel _ hin).trans hp))
    obtain ⟨hgroup, hrest⟩ := Prod.mk.inj hkey
    obtain ⟨hmodel, hsameId⟩ := Prod.mk.inj hrest
    obtain rfl := eq_of_key_eq hchannel' hchannel hsameId
    rw [heq, if_pos hp, hgroup, hmodel]
  · intro hrows row'
    refine exists_congr fun channel => and_congr_right fun hchannel =>
      exists_congr fun pair => and_congr_right fun hpair => ?_
    split
    · rename_i hp
      rw [hrows channel hchannel hp pair hpair]
    · rfl

variable {tag : String} {edit : TagEdit}

theorem keysDistinct_iff :
    (∀ row, row ∈ channel.abilityRows ↔ row ∈ channel.abilities) ↔ channel.KeysDistinct :=
  ⟨fun h => Channel.subset_abilityRows_iff.mp fun row => (h row).mpr,
    fun h _ => Channel.mem_abilityRows_iff h⟩

/-! ### Insertions -/

/-- No abilities wait for channels that are still to come. -/
def Below (db : ChannelDB) : Prop := ∀ row ∈ db.abilities.rows, row.channelId < db.channels.seq

theorem Mirror.below (h : Mirror db) : Below db := by
  intro row hrow
  obtain ⟨channel, hchannel, hin⟩ := (mirror_iff.mp h row).mp hrow
  rw [Channel.channelId_of_mem hin]
  exact db.channels.below channel hchannel

variable {input : ChannelInput}

theorem mem_insert (h : Below db) : row ∈ (insert db input).abilities.rows ↔
      row ∈ db.abilities.rows ∨ row ∈ (input.create db.channels.seq).abilityRows :=
  mem_addAbilities fun row hrow => Int.ne_of_lt (h row hrow)

theorem Below.insert (h : Below db) (input : ChannelInput) : Below (insert db input) := by
  intro row hrow
  show row.channelId < db.channels.seq + 1
  rcases (mem_insert h).mp hrow with hold | hnew
  · have := h row hold
    omega
  · have hid : row.channelId = db.channels.seq := Channel.channelId_of_row hnew
    omega

theorem mirror_insertOne_iff (h : Below db) :
    Mirror (insert db input) ↔ Mirror db ∧ (input.create 0).KeysDistinct := by
  have hfind : ∀ id, (insert db input).channels.find? id =
      if id = db.channels.seq then some (input.create db.channels.seq) else db.channels.find? id :=
    Table.find?_insert fun _ => rfl
  have hnew : ShownAt (insert db input) db.channels.seq ↔ (input.create 0).KeysDistinct := by
    -- the pairs do not depend on the id
    refine Iff.trans (shownAt_made_iff (input.create db.channels.seq) ((hfind _).trans (if_pos rfl))
      fun row hid => ?_) keysDistinct_iff
    rw [mem_insert h]
    exact or_iff_right fun hold => absurd hid (Int.ne_of_lt (h row hold))
  have hold : ∀ id, id ≠ db.channels.seq → (ShownAt (insert db input) id ↔ ShownAt db id) := by
    intro id hne
    refine shownAt_congr ((hfind id).trans (if_neg hne)) fun row hid => ?_
    rw [mem_insert h]
    exact or_iff_left fun hrow => hne (hid.symm.trans (Channel.channelId_of_row hrow))
  have hfresh : ShownAt db db.channels.seq := by
    intro row hid
    rw [Table.find?_seq]
    exact iff_of_false (fun hrow => absurd hid (Int.ne_of_lt (h row hrow))) (by simp)
  rw [mirror_iff_shownAt, mirror_iff_shownAt]
  constructor
  · intro hafter
    refine ⟨fun id => ?_, hnew.mp (hafter _)⟩
    by_cases hid : id = db.channels.seq
    · exact hid ▸ hfresh
    · exact (hold id hid).mp (hafter id)
  · rintro ⟨hbefore, hkeys⟩ id
    by_cases hid : id = db.channels.seq
    · exact hid ▸ hnew.mpr hkeys
    · exact (hold id hid).mpr (hbefore id)

theorem mirror_insertAll_iff (h : Below db) (inputs : List ChannelInput) :
    Mirror (inputs.foldl insert db) ↔
      Mirror db ∧ ∀ input ∈ inputs, (input.create 0).KeysDistinct := by
  induction inputs generalizing db with
  | nil => simp
  | cons input inputs ih =>
    rw [foldl_cons, ih (h.insert input), mirror_insertOne_iff h, forall_mem_cons, and_assoc]

theorem mirror_insert_iff (hmirror : Mirror db) (inputs : List ChannelInput) :
    Mirror (inputs.foldl insert db) ↔ ∀ input ∈ inputs, (input.create 0).KeysDistinct :=
  (mirror_insertAll_iff hmirror.below inputs).trans (and_iff_right hmirror)

/-! ### Updates of one channel -/

theorem mirror_replaceChannel_iff (hmirror : Mirror db) (channel : Channel) {old : Channel}
    (hold : db.channels.find? channel.id = some old) :
    Mirror (replaceChannel db channel) ↔ channel.KeysDistinct := by
  refine Iff.trans (mirror_rebuilt_iff hmirror [channel] id (nodup_singleton _) (fun id hid => ?_)
    (fun made hmade => ?_) rfl) ?_
  · exact Table.find?_save_ne (hid channel mem_cons_self).symm
  · rw [mem_singleton.mp hmade]
    exact Table.find?_save_self hold
  · rw [forall_mem_singleton]
    exact keysDistinct_iff

/-- Rows that are made for no channel. -/
theorem not_mirror_of_unknown (hnone : db.channels.find? channel.id = none) :
    ¬ Mirror ⟨db.channels, updateAbilities abilities channel⟩ := by
  intro hmirror
  obtain ⟨row, hrow⟩ := Channel.exists_abilityRow
  obtain ⟨stored, hstored, hin⟩ :=
    (mirror_iff.mp hmirror row).mp (mem_updateAbilities.mpr (.inr hrow))
  have hid := Channel.channelId_of_row hrow
  rw [Channel.channelId_of_mem hin] at hid
  exact Table.find?_eq_none.mp hnone stored hstored hid

/-! ### Updates by ids and by tag -/

theorem rows_withTag_iff {tag : Option String} :
    (∀ row, row ∈ channel.abilityRows ↔ row ∈ (channel.withTag tag).abilities) ↔
      channel.KeysDistinct ∧ channel.tag = tag := by
  constructor
  · intro hrows
    obtain ⟨row, hrow⟩ := Channel.exists_abilityRow
    have htag : channel.tag = tag :=
      (Channel.tag_of_mem (Channel.mem_abilities_of_rows hrow)).symm.trans
        (Channel.tag_of_mem ((hrows row).mp hrow))
    subst htag
    exact ⟨keysDistinct_iff.mp hrows, rfl⟩
  · rintro ⟨hkeys, rfl⟩
    exact keysDistinct_iff.mpr hkeys

theorem nodup_filter (channels : Table Channel.id) (p : Channel → Bool) :
    ((channels.rows.filter p).map Channel.id).Nodup :=
  (List.Sublist.map Channel.id filter_sublist).nodup channels.nodup

theorem mirror_batchSetChannelTag_iff (hmirror : Mirror db) (ids : List Int) (tag : Option String) :
    Mirror (batchSetChannelTag db ids tag) ↔
      ∀ channel ∈ db.channels.rows, channel.id ∈ ids →
        channel.KeysDistinct ∧ channel.tag = tag := by
  refine Iff.trans
    (mirror_rebuilt_iff hmirror _ (Channel.withTag tag) (nodup_filter _ _) (fun id hid => ?_)
    (fun channel hchannel => ?_) rfl) ?_
  · refine find?_update_of_not (fun channel _ => channel.withTag_id tag)
      fun channel hchannel hkey => ?_
    rw [decide_eq_false_iff_not]
    exact fun hin => hid channel (mem_filter.mpr ⟨hchannel, decide_eq_true hin⟩) hkey
  · exact find?_update_of_mem (fun channel _ => channel.withTag_id tag) (mem_of_mem_filter hchannel)
      (mem_filter.mp hchannel).2
  · simp [rows_withTag_iff]

theorem mirror_edit_rebuild_iff (hmirror : Mirror db)
    (hmake : edit.shouldReCreateAbilities = true) :
    Mirror (editChannelByTag db tag edit) ↔
      ∀ channel ∈ db.channels.rows,
        (channel.tag = some tag → (edit.onChannel tag channel).KeysDistinct) ∧
        (channel.tag ≠ some tag → channel.tag = some (edit.updatedTag tag) →
          channel.KeysDistinct) := by
  unfold editChannelByTag
  dsimp only
  rw [if_pos hmake]
  refine Iff.trans (mirror_rebuilt_iff hmirror _ id (nodup_filter _ _) (fun id hid => ?_)
    (fun channel hchannel => ?_) rfl) ?_
  · refine find?_update_of_not (fun channel _ => edit.onChannel_id tag channel)
      fun channel hchannel hkey => ?_
    rw [decide_eq_false_iff_not]
    intro htag
    -- an edited channel has the new tag, so its rows are made
    refine hid (edit.onChannel tag channel)
      (mem_filter.mpr ⟨mem_update.mpr ⟨channel, hchannel, ?_⟩, ?_⟩) hkey
    · rw [if_pos (decide_eq_true htag)]
    · exact decide_eq_true rfl
  · exact find?_eq_some.mpr ⟨mem_of_mem_filter hchannel, rfl⟩
  · simp only [mem_filter, decide_eq_true_eq, mem_update, id_eq, keysDistinct_iff, and_imp,
      forall_exists_index]
    constructor
    · intro hkeys channel hchannel
      constructor
      · intro htag
        exact hkeys _ channel hchannel (if_pos htag).symm rfl
      · intro hother htag
        exact hkeys channel channel hchannel (if_neg hother).symm htag
    · rintro hkeys _ old hold rfl htag
      by_cases hedit : old.tag = some tag
      · rw [if_pos hedit]
        exact (hkeys old hold).1 hedit
      · rw [if_neg hedit] at htag ⊢
        exact (hkeys old hold).2 hedit htag

theorem lists_kept (hkeep : ¬ edit.shouldReCreateAbilities = true) (channel : Channel) :
    (edit.onChannel tag channel).pairs = channel.pairs := by
  unfold TagEdit.shouldReCreateAbilities at hkeep
  simp only [Bool.or_eq_true, decide_eq_true_eq, not_or, not_not] at hkeep
  have hmodels : (edit.onChannel tag channel).models = channel.models := if_pos hkeep.1
  have hgroup : (edit.onChannel tag channel).group = channel.group := if_pos hkeep.2
  unfold Channel.pairs Channel.modelNames Channel.groupNames
  rw [hmodels, hgroup]

/-- The row of an edited channel, which differs in the weight at most. -/
theorem onAbility_eq_iff {group model : String} :
    edit.onAbility tag (channel.ability group model) =
      (edit.onChannel tag channel).ability group model ↔
      (edit.weight = some 0 → channel.weight = 0) := by
  have hweight : edit.onAbility tag (channel.ability group model) =
      (edit.onChannel tag channel).ability group model ↔
      (if edit.weight.getD 0 = 0 then channel.weight else edit.weight.getD 0) =
          edit.weight.getD channel.weight := by
    constructor
    · exact congrArg Ability.weight
    · intro heq
      unfold TagEdit.onAbility TagEdit.onChannel Channel.ability
      dsimp only
      rw [heq]
  rw [hweight]
  -- a weight of zero is written to the channel, but not to its abilities
  cases hedit : edit.weight with
  | none => simp
  | some weight =>
    by_cases hzero : weight = 0
    · simp [hzero]
    · simp [hzero]

variable (hmirror : Mirror db)

include hmirror

theorem mirror_edit_iff (hkeep : ¬ edit.shouldReCreateAbilities = true) :
    Mirror (editChannelByTag db tag edit) ↔
      ∀ channel ∈ db.channels.rows, channel.tag = some tag → edit.weight = some 0 →
        channel.weight = 0 := by
  unfold editChannelByTag
  dsimp only
  rw [if_neg hkeep, mirror_update_iff hmirror (lists_kept hkeep)]
  · simp only [decide_eq_true_eq, onAbility_eq_iff]
    constructor
    · intro hrows channel hchannel htag
      obtain ⟨pair, hpair⟩ := Channel.exists_pair
      exact hrows channel hchannel htag pair hpair
    · intro hweights channel hchannel htag _ _
      exact hweights channel hchannel htag
  · intro channel _ row hrow
    rw [Channel.tag_of_mem hrow]

/-! ### Changes of status -/

variable {status : ChannelStatus}

theorem mirror_setStatus {channel : Channel → Bool} {ability : Ability → Bool}
    (hsame : ∀ stored ∈ db.channels.rows, ∀ row ∈ stored.abilities, ability row = channel stored) :
    Mirror (setStatus db channel ability status) := by
  unfold setStatus
  have hpairs : ∀ stored : Channel, (stored.withStatus status).pairs = stored.pairs := fun _ => rfl
  rw [mirror_update_iff hmirror hpairs hsame]
  intro _ _ _ _ _
  rfl

theorem mirror_setStatusByTag : Mirror (setStatusByTag db tag status) :=
  mirror_setStatus hmirror fun _ _ _ hrow => by rw [Channel.tag_of_mem hrow]

theorem mirror_updateChannelStatus (known : Bool) :
    Mirror (updateChannelStatus db known id status) := by
  unfold updateChannelStatus
  split
  · exact hmirror
  · split_ifs
    · exact hmirror
    · exact mirror_setStatus hmirror fun _ _ _ hrow => by rw [Channel.channelId_of_mem hrow]

/-! ### Deletions -/

theorem mirror_deleteChannels (ids : List Int) : Mirror (deleteChannels db ids) := by
  rw [mirror_iff] at hmirror ⊢
  intro row
  unfold deleteChannels
  rw [Rows.mem_deleteWhere, hmirror]
  simp only [deleteWhere, mem_filter, Bool.not_eq_true', decide_eq_false_iff_not]
  constructor
  · rintro ⟨⟨channel, hchannel, hin⟩, hid⟩
    rw [Channel.channelId_of_mem hin] at hid
    exact ⟨channel, ⟨hchannel, hid⟩, hin⟩
  · rintro ⟨channel, ⟨hchannel, hid⟩, hin⟩
    exact ⟨⟨channel, hchannel, hin⟩, by rwa [Channel.channelId_of_mem hin]⟩

omit hmirror in
theorem mem_deleteDisabledChannel : channel ∈ (deleteDisabledChannel db).channels.rows ↔
      channel ∈ db.channels.rows ∧ channel.status ≠ .autoDisabled ∧
        channel.status ≠ .manuallyDisabled := by
  unfold deleteDisabledChannel
  simp [deleteWhere, mem_filter]

theorem mirror_deleteDisabledChannel_iff :
    Mirror (deleteDisabledChannel db) ↔ ∀ channel ∈ db.channels.rows,
      channel.status ≠ .autoDisabled ∧ channel.status ≠ .manuallyDisabled := by
  rw [mirror_iff] at hmirror ⊢
  constructor
  -- the abilities stay, so their channels have to stay
  · intro hafter channel hchannel
    obtain ⟨pair, hpair⟩ := Channel.exists_pair
    have hin : channel.ability pair.1 pair.2 ∈ channel.abilities :=
      Channel.mem_abilities_iff.mpr ⟨pair, hpair, rfl⟩
    obtain ⟨left, hleft, hin'⟩ := (hafter _).mp ((hmirror _).mpr ⟨channel, hchannel, hin⟩)
    obtain ⟨hold, hstatus⟩ := mem_deleteDisabledChannel.mp hleft
    have hid : left.id = channel.id := (Channel.channelId_of_mem hin').symm
    rw [← eq_of_key_eq hold hchannel hid]
    exact hstatus
  · intro hnone row
    show row ∈ db.abilities.rows ↔ _
    rw [hmirror]
    constructor
    · rintro ⟨channel, hchannel, hin⟩
      exact ⟨channel, mem_deleteDisabledChannel.mpr ⟨hchannel, hnone channel hchannel⟩, hin⟩
    · rintro ⟨channel, hchannel, hin⟩
      exact ⟨channel, (mem_deleteDisabledChannel.mp hchannel).1, hin⟩

/-! ### Steps -/

theorem mirror_update_op_iff :
    Mirror (update db id input) ↔
      id = 0 ∨ ∃ channel ∈ db.channels.find? id, (input.merge channel).KeysDistinct := by
  unfold update
  by_cases hzero : id = 0
  · rw [if_pos hzero]
    exact ⟨fun _ => .inl hzero, fun _ => hmirror⟩
  · rw [if_neg hzero]
    cases hfound : db.channels.find? id with
    | none =>
      dsimp only
      constructor
      · -- an unknown channel gets abilities without a row
        intro hmirror
        exact absurd hmirror (not_mirror_of_unknown hfound)
      · rintro (heq | ⟨channel, hchannel, -⟩)
        · exact absurd heq hzero
        · cases hchannel
    | some channel =>
      obtain rfl : channel.id = id := key_of_find? hfound
      dsimp only
      rw [mirror_replaceChannel_iff hmirror (input.merge channel) hfound]
      constructor
      · intro hkeys
        exact .inr ⟨channel, rfl, hkeys⟩
      · rintro (heq | ⟨other, hother, hkeys⟩)
        · exact absurd heq hzero
        · cases hother
          exact hkeys

/-- An operation keeps the mirror exactly under its condition. -/
theorem mirror_step_iff (op : Op) : Mirror (step db op) ↔ Keeps db op := by
  cases op with
  | insert input =>
    have hone := mirror_insert_iff hmirror [input]
    rw [forall_mem_singleton] at hone
    exact hone
  | batchInsertChannels inputs => exact mirror_insert_iff hmirror inputs
  | update id input => exact mirror_update_op_iff hmirror
  | batchSetChannelTag ids tag => exact mirror_batchSetChannelTag_iff hmirror ids tag
  | editChannelByTag tag edit =>
    unfold step Keeps
    by_cases hmake : edit.shouldReCreateAbilities = true
    · simp only [if_pos hmake]
      exact mirror_edit_rebuild_iff hmirror hmake
    · simp only [if_neg hmake]
      exact mirror_edit_iff hmirror hmake
  | enableChannelByTag tag => exact iff_of_true (mirror_setStatusByTag hmirror) trivial
  | disableChannelByTag tag => exact iff_of_true (mirror_setStatusByTag hmirror) trivial
  | updateChannelStatus known id status =>
    exact iff_of_true (mirror_updateChannelStatus hmirror known) trivial
  | delete id => exact iff_of_true (mirror_deleteChannels hmirror [id]) trivial
  | batchDeleteChannels ids => exact iff_of_true (mirror_deleteChannels hmirror ids) trivial
  | deleteDisabledChannel => exact mirror_deleteDisabledChannel_iff hmirror

end Operations

end ChannelAdmin

/-- The mirror is there after each operation exactly if each meets its condition. -/
theorem abilities_mirror_iff (db : ChannelDB) (hmirror : ChannelAdmin.Mirror db)
    (ops : List ChannelAdmin.Op) :
    (∀ n, ChannelAdmin.Mirror (Run.exec ChannelAdmin.step db (ops.take n))) ↔
      Run.Along ChannelAdmin.Keeps ChannelAdmin.step db ops := by
  induction ops generalizing db with
  | nil => exact iff_of_true (fun n => by rw [take_nil]; exact hmirror) trivial
  | cons op ops ih =>
    have hstep := ChannelAdmin.mirror_step_iff hmirror op
    rw [Run.along_cons]
    constructor
    · intro hall
      have hafter : ChannelAdmin.Mirror (ChannelAdmin.step db op) := hall 1
      exact ⟨hstep.mp hafter, (ih _ hafter).mp fun n => hall (n + 1)⟩
    · rintro ⟨hkeeps, hrest⟩ n
      cases n with
      | zero => exact hmirror
      | succ n => exact (ih _ (hstep.mpr hkeeps)).mpr hrest n

namespace ChannelAdmin

def noChannels : ChannelDB := ⟨Table.empty, Rows.empty⟩

theorem mirror_noChannels : Mirror noChannels := by
  rw [mirror_iff]
  intro row
  exact iff_of_false not_mem_nil fun ⟨_, hchannel, _⟩ => absurd hchannel not_mem_nil

/-- A request for a channel with two groups and two models. -/
def exampleInput : ChannelInput where
  type := .openAI
  key := "k"
  status := status
  weight := some 3
  models := "gpt-4,o3"
  group := "default,vip"
  priority := none
  tag := some "t"
  channelInfo := none
  advancedCustom := none

/-- Two channels, of which one is disabled and both get other models; the disabled one is enabled
before the clean-up. -/
def exampleOps : List Op :=
  [.batchInsertChannels [exampleInput .enabled, exampleInput .unknown],
    .updateChannelStatus false 2 .autoDisabled,
    .editChannelByTag "t" ⟨some "u", some "o3", none, some 7, some 0⟩, .enableChannelByTag "u",
    .deleteDisabledChannel]

end ChannelAdmin

open ChannelAdmin

theorem abilities_mirror_cleanup :
    Mirror noChannels ∧ ∀ n, Mirror (Run.exec step noChannels (exampleOps.take n)) :=
  ⟨mirror_noChannels, (abilities_mirror_iff noChannels mirror_noChannels exampleOps).mpr
    (by decide +kernel)⟩

/-- A channel is created disabled and cleaned up; its four abilities stay behind. -/
theorem disabled_channels_deleted : (Run.exec step noChannels
        [.insert (exampleInput .manuallyDisabled), .deleteDisabledChannel]).channels.rows = [] ∧
      (Run.exec step noChannels
        [.insert (exampleInput .manuallyDisabled), .deleteDisabledChannel]).abilities.rows.length =
          4 ∧
      ¬ Mirror
        (Run.exec step noChannels
          [.insert (exampleInput .manuallyDisabled), .deleteDisabledChannel]) := by
  refine ⟨rfl, by decide +kernel, fun hmirror => ?_⟩
  have hleft : (⟨"default", "gpt-4", 1, false, 0, 3, some "t"⟩ : Ability) ∈
      (Run.exec step noChannels
        [.insert (exampleInput .manuallyDisabled),
          .deleteDisabledChannel]).abilities.rows := by decide +kernel
  obtain ⟨channel, hchannel, -⟩ := (ChannelAdmin.mirror_iff.mp hmirror _).mp hleft
  exact absurd hchannel not_mem_nil
