/-
Channels: an upstream account each, with the models it serves and the groups it serves them for.

The lists of models and groups are texts with commas, the keys of a channel a text with one key a
line or an array of JSON.  Some channels serve some request paths only (`supportsRequestPath`):
those tagged `acu-router` their native protocol, those of type Sub2API the paths of images for a
model that makes images, and those of type Advanced Custom the routes they list.

A second table has a row for each group and each model that a channel serves (`AbilityMirror`).
-/
import AcuGateway.Lib.Dict
import AcuGateway.Lib.Table
import AcuGateway.Lib.Text

open List
open Text (trimSpace contains hasPrefix hasSuffix cutPrefix cutSuffix split replaceFirst equalFold)

inductive ChannelStatus
  | unknown
  | enabled
  | manuallyDisabled
  | autoDisabled
deriving DecidableEq

inductive ChannelType
  | openAI
  | anthropic
  | advancedCustom
  | sub2API
  | other (number : Nat)
deriving DecidableEq

inductive MultiKeyMode
  | random
  | polling
  | other
deriving DecidableEq

/-- A route of an Advanced Custom channel. -/
structure AdvancedCustomRoute where
  incomingPath : String
  models : List String
deriving DecidableEq

/-- The state of the keys of a channel; a key without a status is enabled. -/
structure ChannelInfo where
  isMultiKey : Bool
  multiKeyStatusList : Dict Nat ChannelStatus
  multiKeyPollingIndex : Int
  multiKeyMode : MultiKeyMode
deriving DecidableEq

structure Channel where
  id : Int
  type : ChannelType
  key : String
  status : ChannelStatus
  weight : Nat
  models : String
  group : String
  priority : Int
  tag : Option String
  channelInfo : ChannelInfo
  /-- The routes of `GetOtherSettings().AdvancedCustom`. -/
  advancedCustom : Option (List AdvancedCustomRoute)
deriving DecidableEq

structure ChannelEnv where
  /-- The elements of an array of JSON, each as its text. -/
  rawArray : String → Option (List String)
  /-- A regular expression matches; one that is not valid matches nothing. -/
  matchString : String → String → Bool

/-! ### Paths and models -/

variable (configuredPath requestPath : String)

def matchAdvancedCustomIncomingPathTemplate : Bool :=
  if contains configuredPath "\x7bmodel\x7d" = false then configuredPath = requestPath
  else
    match split configuredPath "\x7bmodel\x7d" with
    | [before, after] =>
      let model := cutSuffix (cutPrefix requestPath before) after
      hasPrefix requestPath before && hasSuffix requestPath after && model ≠ "" &&
        !contains model "/"
    | _ => false

def matchAdvancedCustomIncomingPath : Bool :=
  matchAdvancedCustomIncomingPathTemplate configuredPath requestPath ||
    (contains configuredPath ":generateContent" &&
      matchAdvancedCustomIncomingPathTemplate
        (replaceFirst configuredPath ":generateContent" ":streamGenerateContent") requestPath)

def imageGenerationModels : List String :=
  ["dall-e-3", "dall-e-2", "prefix:gpt-image-", "prefix:imagen-", "flux-", "flux.1-"]

def isImageGenerationModel (modelName : String) : Bool :=
  let lower := String.ofList (modelName.toList.map Text.lowerChar)
  imageGenerationModels.any fun m =>
    if hasPrefix m "prefix:" then hasPrefix lower (cutPrefix m "prefix:") else contains lower m

def handleThinkingBudgetModel (name pattern wildcard : String) : String :=
  if hasPrefix name pattern && contains name "-thinking-" then wildcard else name

/-- The name under which a family of models is listed. -/
def formatMatchingModelName (name : String) : String :=
  let name :=
    if hasPrefix name "gemini-2.5-flash-lite" then
      handleThinkingBudgetModel name "gemini-2.5-flash-lite" "gemini-2.5-flash-lite-thinking-*"
    else if hasPrefix name "gemini-2.5-flash" then
      handleThinkingBudgetModel name "gemini-2.5-flash" "gemini-2.5-flash-thinking-*"
    else if hasPrefix name "gemini-2.5-pro" then
      handleThinkingBudgetModel name "gemini-2.5-pro" "gemini-2.5-pro-thinking-*"
    else name
  let name := if hasPrefix name "gpt-4-gizmo" then "gpt-4-gizmo-*" else name
  if hasPrefix name "gpt-4o-gizmo" then "gpt-4o-gizmo-*" else name

namespace ChannelEnv

variable (env : ChannelEnv)

def matchAdvancedCustomRouteModelRule (rule model : String) : Bool :=
  if hasPrefix rule "re:" = false then rule = model
  else cutPrefix rule "re:" ≠ "" && env.matchString (cutPrefix rule "re:") model

/-- A route that names no models is for all of them. -/
def matchAdvancedCustomRouteModel (models : List String) (model : String) : Bool :=
  let normalizedModels := (models.map trimSpace).filter (· ≠ "")
  normalizedModels.isEmpty || normalizedModels.any fun rule =>
    env.matchAdvancedCustomRouteModelRule rule model

def supportsPathForModel (routes : List AdvancedCustomRoute) (requestPath model : String) : Bool :=
  routes.any fun route =>
    matchAdvancedCustomIncomingPath (trimSpace route.incomingPath) requestPath &&
      env.matchAdvancedCustomRouteModel route.models (trimSpace model)

end ChannelEnv

namespace Channel

variable (env : ChannelEnv) (channel : Channel)

def getTag : String := channel.tag.getD ""

def isACURouter : Bool := equalFold (trimSpace channel.getTag) "acu-router"

variable (requestPath : String)

/-- The path without its query. -/
def pathOnly : String := String.ofList (requestPath.toList.takeWhile (· ≠ '?'))

def supportsNativePath : Bool :=
  if hasPrefix requestPath "/v1/responses" then channel.type = .openAI
  else if hasPrefix requestPath "/v1/messages" then channel.type = .anthropic
  else if hasPrefix requestPath "/v1/chat/completions" then channel.type = .openAI
  else if hasPrefix requestPath "/pg/chat/completions" then channel.type = .openAI
  else if hasPrefix requestPath "/v1beta/models/" then
    channel.type = .openAI &&
      (hasSuffix (pathOnly requestPath) ":generateContent" ||
        hasSuffix (pathOnly requestPath) ":streamGenerateContent")
  else false

/-- The routes of the channel allow the path for the model. -/
def routesSupport (requestPath model : String) : Bool :=
  match channel.advancedCustom with
  | none => false
  | some routes => env.supportsPathForModel routes requestPath model

def supportsRequestPath (requestPath modelName : String) : Bool :=
  if channel.isACURouter then channel.supportsNativePath requestPath
  else if channel.type = .sub2API ∧ isImageGenerationModel modelName = true then
    hasPrefix requestPath "/v1/images/generations" ||
      hasPrefix requestPath "/pg/images/generations" ||
      hasPrefix requestPath "/v1/chat/completions"
  else if channel.type ≠ .advancedCustom then true
  else channel.routesSupport env requestPath modelName

/-- `strings.Split(channel.Models, ",")` -/
def modelNames : List String := split channel.models ","

/-- `strings.Split(channel.Group, ",")` -/
def groupNames : List String := split channel.group ","

/-- The key without the line breaks at its ends, line by line. -/
def keyLines : List String :=
  split (String.ofList
    ((channel.key.toList.dropWhile (· = '\n')).reverse.dropWhile (· = '\n')).reverse) "\n"

def getKeys : List String :=
  if channel.key = "" then []
  else if hasPrefix (trimSpace channel.key) "[" then
    (env.rawArray (trimSpace channel.key)).getD channel.keyLines
  else channel.keyLines

end Channel

/-! ### Abilities -/

/-- A row of the table of abilities: the channel serves the model for the group. -/
structure Ability where
  group : String
  model : String
  channelId : Int
  enabled : Bool
  priority : Int
  weight : Nat
  tag : Option String
deriving DecidableEq

/-- The row of a channel for a group and a model. -/
def Channel.ability (channel : Channel) (group model : String) : Ability where
  group := group
  model := model
  channelId := channel.id
  enabled := channel.status = .enabled
  priority := channel.priority
  weight := channel.weight
  tag := channel.tag

/-- The abilities are those of the channels: one for each group and each model that a channel
lists. -/
structure AbilityMirror (channels : Table Channel.id) (abilities : List Ability) : Prop where
  nodup : abilities.Nodup
  mem : ∀ row, row ∈ abilities ↔
    ∃ channel ∈ channels.rows, ∃ group ∈ channel.groupNames, ∃ model ∈ channel.modelNames,
    row = channel.ability group model

/-- The rows of a channel, one for each group and each model. -/
def Channel.abilities (channel : Channel) : List Ability :=
  channel.groupNames.flatMap fun group => channel.modelNames.map fun model =>
    channel.ability group model

theorem Channel.mem_abilities {channel : Channel} {row : Ability} :
    row ∈ channel.abilities ↔ ∃ group ∈ channel.groupNames, ∃ model ∈ channel.modelNames,
      row = channel.ability group model := by
  unfold Channel.abilities
  simp only [mem_flatMap, mem_map]
  constructor
  · rintro ⟨group, hgroup, model, hmodel, rfl⟩
    exact ⟨group, hgroup, model, hmodel, rfl⟩
  · rintro ⟨group, hgroup, model, hmodel, rfl⟩
    exact ⟨group, hgroup, model, hmodel, rfl⟩

theorem Channel.nodup_abilities {channel : Channel} (hgroups : channel.groupNames.Nodup)
    (hmodels : channel.modelNames.Nodup) :
    channel.abilities.Nodup := by
  refine nodup_flatMap.mpr ⟨fun group _ => ?_, ?_⟩
  · exact hmodels.map fun model model' h => congrArg Ability.model h
  · refine hgroups.imp fun {group group'} hne => ?_
    refine disjoint_left.mpr fun row hrow hrow' => ?_
    obtain ⟨model, -, rfl⟩ := mem_map.mp hrow
    obtain ⟨model', -, heq⟩ := mem_map.mp hrow'
    exact hne (congrArg Ability.group heq).symm

/-- The rows of all channels mirror them, if none lists a group or a model twice. -/
theorem abilityMirror_flatMap (channels : Table Channel.id)
    (h : ∀ channel ∈ channels.rows, channel.groupNames.Nodup ∧ channel.modelNames.Nodup) :
    AbilityMirror channels (channels.rows.flatMap Channel.abilities) where
  nodup := by
    refine nodup_flatMap.mpr ⟨fun channel hchannel => ?_, ?_⟩
    · exact Channel.nodup_abilities (h channel hchannel).1 (h channel hchannel).2
    · refine (pairwise_map.mp channels.nodup).imp fun {channel channel'} hne => ?_
      refine disjoint_left.mpr fun row hrow hrow' => ?_
      obtain ⟨group, -, model, -, rfl⟩ := Channel.mem_abilities.mp hrow
      obtain ⟨group', -, model', -, heq⟩ := Channel.mem_abilities.mp hrow'
      exact hne (congrArg Ability.channelId heq)
  mem := by
    intro row
    rw [mem_flatMap]
    simp only [Channel.mem_abilities]
