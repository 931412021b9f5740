/-
From the messages of a Claude request to those of a chat request.

The blocks of a message go to three places: results of tools become messages of their own, texts and
images the parts of a content, and calls of tools the calls of a message.  A message with calls is
sent without the parts.

* `recodeContent` — the content of a result that is no text, on its way through the
  structures of blocks;
* `blockStep`, `messageStep` — the two loops;
* `Shows` — what of a Claude request is shown by what of a chat request;
* `NothingDropped` — no message has both calls and other content, and JSON is of a form
  that is kept;
* `blocks_kept_iff` — exactly then everything is shown once and in order;
* `text_beside_call_dropped` — a text that is lost.
-/
import AcuGateway.ChatRequest
import AcuGateway.Lib.Align
import AcuGateway.Lib.Json
import AcuGateway.Lib.Outcome

open List Outcome Option Align

namespace ClaudeRequestToChat

/-! ### The request -/

inductive BlockType
  | text
  | inputText
  | image
  | toolUse
  | toolResult
  | other (name : String)

inductive ResultContent
  | missing
  | text (text : String)
  | other (content : Json)

structure ClaudeMessageSource where
  mediaType : String
  data : String

/-- A block of a request; any field may be missing.  The data of a source are as they are
printed.  Numbers are those of the request, which is refused if one is out of range. -/
structure ClaudeMediaMessage where
  type : BlockType
  text : Option String := none
  source : Option ClaudeMessageSource := none
  id : String := ""
  name : String := ""
  input : Json := .null
  content : ResultContent := .missing
  toolUseId : String := ""

/-- A content is a string or is decoded to blocks, which may fail. -/
inductive InputContent
  | text (text : String)
  | blocks (blocks : List ClaudeMediaMessage)
  | undecodable (message : String)

structure InputMessage where
  role : ChatRole
  content : InputContent

inductive ClaudeSystem
  | missing
  | text (text : String)
  | blocks (texts : List (Option String))

structure ClaudeRequest where
  system : ClaudeSystem := .missing
  messages : List InputMessage

/-! ### The conversion -/

/-- The blocks of a content; none if it cannot be decoded. -/
def InputContent.parsed : InputContent → List ClaudeMediaMessage
  | .blocks decoded => decoded
  | _ => []

def searchToolNameByToolCallId (request : ClaudeRequest) (toolCallId : String) : String :=
  match (request.messages.flatMap fun message => message.content.parsed).find? fun block =>
      block.id = toolCallId with
  | some block => block.name
  | none => ""

/-! ### Contents of results -/

open Json (FieldKind recodeMembers fieldOf)

/-- `ClaudeMessageSource`. -/
def sourceFields : List (String × FieldKind) :=
  [("type", .requiredText), ("media_type", .text), ("data", .any), ("url", .text)]

inductive BlockField
  | plain (kind : FieldKind)
  | source

/-- `ClaudeMediaMessage`, without the usage that blocks of responses have. -/
def blockFields : List (String × BlockField) :=
  [("type", .plain .text), ("text", .plain .optionalText), ("model", .plain .text),
    ("source", .source), ("stop_reason", .plain .optionalText),
    ("partial_json", .plain .optionalText), ("role", .plain .text),
    ("thinking", .plain .optionalText), ("signature", .plain .text), ("delta", .plain .text),
    ("cache_control", .plain .raw), ("id", .plain .text), ("name", .plain .text),
    ("input", .plain .any),
    ("content", .plain .any), ("tool_use_id", .plain .text)]

def readsType (member : String × Json) : Bool :=
  (fieldOf sourceFields member.1).map Prod.fst = some "type"

/-- A source has a type, even if it is empty. -/
def recodeSource (members : List (String × Json)) : Option (List (String × Json)) :=
  (recodeMembers FieldKind.recode sourceFields members).map fun written =>
    if members.any readsType then written else ("type", .string "") :: written

def BlockField.recode : BlockField → Json → Option (Option Json)
  | .plain kind, v => kind.recode v
  | .source, .null => some none
  | .source, .object members => (recodeSource members).map fun written => some (.object written)
  | .source, _ => none

def recodeBlock : Json → Option Json
  | .object members => (recodeMembers BlockField.recode blockFields members).map .object
  | .null => some (.object [])
  | _ => none

def recodeBlocks : List Json → Option (List Json)
  | [] => some []
  | block :: blocks =>
    (recodeBlock block).bind fun written => (recodeBlocks blocks).map (written :: ·)

/-- `ParseMediaContent`, encoded again; what cannot be decoded is no content. -/
def recodeContent : Json → Json
  | .array blocks => ((recodeBlocks blocks).map Json.array).getD .null
  | _ => .null

/-! ### Messages -/

inductive ChatPart
  | text (text : JsonText)
  | imageUrl (url : String)

inductive ChatContent
  | null
  | text (text : JsonText)
  | parts (parts : List ChatPart)

structure ToolCall where
  id : String
  name : String
  arguments : JsonText

structure ChatMessage where
  role : ChatRole
  content : ChatContent := .null
  name : Option String := none
  toolCalls : Option (List ToolCall) := none
  toolCallId : String := ""

namespace ChatMessage

variable (message : ChatMessage)

def parseContent : List ChatPart :=
  match message.content with
  | .null => []
  | .text text => [.text text]
  | .parts parts => parts

def parseToolCalls : List ToolCall := message.toolCalls.getD []

/-- The text of a message that has one. -/
def stringContent : JsonText :=
  match message.content with
  | .text text => text
  | _ => .plain ""

end ChatMessage

open ChatMessage

variable (block : ClaudeMediaMessage)

def textPart : ChatPart := .text (.plain (block.text.getD ""))

def imagePart (source : ClaudeMessageSource) : ChatPart :=
  .imageUrl ("data:" ++ source.mediaType ++ ";base64," ++ source.data)

/-- The input was decoded with the request and again with the blocks of its message. -/
def toolCall : ToolCall where
  id := block.id
  name := block.name
  arguments := .encoded block.input.recast.recast

def resultText : ResultContent → JsonText
  | .missing => .encoded .null
  | .text text => .plain text
  | .other content => .encoded (recodeContent content.recast.decode).marshal

variable (request : ClaudeRequest)

def toolMessage (block : ClaudeMediaMessage) : ChatMessage where
  role := .tool
  name := some (if block.name = "" then searchToolNameByToolCallId request block.toolUseId
    else block.name)
  toolCallId := block.toolUseId
  content := .text (resultText block.content)

structure BlockState where
  openAIMessages : List ChatMessage
  toolCalls : List ToolCall
  mediaMessages : List ChatPart

/-- One block; an image without a source is dereferenced all the same. -/
def blockStep (s : BlockState) (block : ClaudeMediaMessage) : Outcome BlockState :=
  match block.type with
  | .text => .ok { s with mediaMessages := s.mediaMessages ++ [textPart block] }
  | .inputText => .ok { s with mediaMessages := s.mediaMessages ++ [textPart block] }
  | .image => (deref block.source).bind fun source =>
    .ok { s with mediaMessages := s.mediaMessages ++ [imagePart source] }
  | .toolUse => .ok { s with toolCalls := s.toolCalls ++ [toolCall block] }
  | .toolResult => .ok { s with openAIMessages := s.openAIMessages ++ [toolMessage request block] }
  | .other _ => .ok s

/-- Parts are left out if there are calls. -/
def blocksMessage (role : ChatRole) (s : BlockState) : ChatMessage where
  role := role
  toolCalls := if s.toolCalls = [] then none else some s.toolCalls
  content := if s.mediaMessages ≠ [] ∧ s.toolCalls = [] then .parts s.mediaMessages else .null

variable (openAIMessages : List ChatMessage)

def appendMessage (message : ChatMessage) : List ChatMessage :=
  if message.parseContent ≠ [] ∨ message.toolCalls ≠ none then openAIMessages ++ [message]
  else openAIMessages

variable (message : InputMessage)

def messageStep : Outcome (List ChatMessage) :=
  match message.content with
  | .text text =>
    .ok (appendMessage openAIMessages { role := message.role, content := .text (.plain text) })
  | .undecodable e => .error e
  | .blocks blocks => (fold (blockStep request) ⟨openAIMessages, [], []⟩ blocks).bind fun s =>
    .ok (appendMessage s.openAIMessages (blocksMessage message.role s))

variable (isOpenRouterClaude : Bool)

/-- The system blocks are one message; one channel takes them one by one. -/
def systemMessages : ClaudeSystem → List ChatMessage
  | .missing => []
  | .text text => if text = "" then [] else [{ role := .system, content := .text (.plain text) }]
  | .blocks texts =>
    if texts = [] then []
    else if isOpenRouterClaude then
      [{ role := .system, content := .parts (texts.map fun text => .text (.plain (text.getD ""))) }]
    else
      [{ role := .system, content :=
        .text (.plain (String.join (texts.map fun text => text.getD ""))) }]

def claudeMessagesRequestToOpenAIChat (request : ClaudeRequest) : Outcome (List ChatMessage) :=
  fold (messageStep request) (systemMessages isOpenRouterClaude request.system) request.messages

/-! ### Reading the conversation -/

/-- What a Claude request has in it. -/
inductive ClaudeThing
  | text (role : ChatRole) (text : String)
  | image (role : ChatRole) (source : ClaudeMessageSource)
  | call (id name : String) (input : Json)
  | result (id : String) (content : ResultContent)

inductive ChatThing
  | text (role : ChatRole) (text : JsonText)
  | image (role : ChatRole) (url : String)
  | call (call : ToolCall)
  | result (id : String) (text : JsonText)

/-- What is shown by what. -/
inductive Shows : ClaudeThing → ChatThing → Prop
  | text (role : ChatRole) (text : String) : Shows (.text role text) (.text role (.plain text))
  | image (role : ChatRole) (source : ClaudeMessageSource) :
    Shows (.image role source)
      (.image role ("data:" ++ source.mediaType ++ ";base64," ++ source.data))
  | call (id name : String) (input : Json) :
    Shows (.call id name input) (.call ⟨id, name, .encoded input⟩)
  | plain (id text : String) : Shows (.result id (.text text)) (.result id (.plain text))
  | json (id : String) (content : Json) :
    Shows (.result id (.other content)) (.result id (.encoded content))

def mediaThing? (role : ChatRole) (block : ClaudeMediaMessage) : Option ClaudeThing :=
  match block.type with
  | .text => block.text.map (.text role)
  | .image => block.source.map (.image role)
  | _ => none

def callThing? : Option ClaudeThing :=
  match block.type with
  | .toolUse => some (.call block.id block.name block.input)
  | _ => none

def resultThing? : Option ClaudeThing :=
  match block.type with
  | .toolResult => some (.result block.toolUseId block.content)
  | _ => none

/-- The results of a message, then its texts and images, then its calls, each in the order of the
blocks. -/
def claudeThings : List ClaudeThing :=
  match message.content with
  | .text text => [.text message.role text]
  | .blocks blocks =>
    blocks.filterMap resultThing? ++ blocks.filterMap (mediaThing? message.role) ++
      blocks.filterMap callThing?
  | .undecodable _ => []

def partThing? (role : ChatRole) : ChatPart → Option ChatThing
  | .text text => some (.text role text)
  | .imageUrl url => some (.image role url)

def chatThings (message : ChatMessage) : List ChatThing :=
  if message.role = .tool then [.result message.toolCallId message.stringContent]
  else message.parseContent.filterMap (partThing? message.role) ++ message.parseToolCalls.map .call

/-- No block of a content has a usage, which only those of responses have. -/
def NoUsage (content : Json) : Prop :=
  ∀ blocks, content = .array blocks → ∀ members, .object members ∈ blocks →
    ∀ member ∈ members, Text.equalFold "usage" member.1 = false

/-- A block of one of the four kinds, with the fields of its kind, in a message that may have it. -/
structure BlockInScope (role : ChatRole) (block : ClaudeMediaMessage) : Prop where
  kind : block.type = .text ∨ block.type = .image ∨ block.type = .toolUse ∨ block.type = .toolResult
  text : block.type = .text → block.text ≠ none
  image : block.type = .image → block.source ≠ none
  toolUse : block.type = .toolUse → role = .assistant ∧ block.input.InRange
  toolResult : block.type = .toolResult → role = .user ∧
    ∀ content, block.content = .other content → content.InRange ∧ NoUsage content

structure InScope (message : InputMessage) : Prop where
  role : message.role = .user ∨ message.role = .assistant
  decodable : ∀ e, message.content ≠ .undecodable e
  blocks : ∀ block ∈ message.content.parsed, BlockInScope message.role block

/-- A source with a type; its members are known, and no text but the type is empty. -/
def SourceKept (members : List (String × Json)) : Prop :=
  (∃ member ∈ members, member.1 = "type") ∧ ∀ member ∈ members,
    ∃ kind, fieldOf sourceFields member.1 = some (member.1, kind) ∧
      kind.keeps member.2 = true ∧ member.2.NumbersKept

/-- A member of a block that is known, not null and, where that would leave it out, not
empty. -/
def BlockField.Keeps : BlockField → Json → Prop
  | .plain kind, v => kind.keeps v = true ∧ v.NumbersKept
  | .source, v => ∃ members, v = .object members ∧ SourceKept members

def BlockKept (block : Json) : Prop :=
  ∃ members, block = .object members ∧ ∀ member ∈ members,
    ∃ field, fieldOf blockFields member.1 = some (member.1, field) ∧ field.Keeps member.2

/-- A content that is there: a text, null, or blocks with members that are kept. -/
def ResultKept (content : ResultContent) : Prop :=
  match content with
  | .missing => False
  | .text _ => True
  | .other content =>
    content = .null ∨ ∃ blocks, content = .array blocks ∧ ∀ block ∈ blocks, BlockKept block

/-- No message has both calls and texts or images, the numbers of inputs are shortest
decimals of floats, and contents of results are of a form that is kept. -/
structure NothingDropped (message : InputMessage) : Prop where
  apart : message.content.parsed.filterMap (mediaThing? message.role) = [] ∨
    message.content.parsed.filterMap callThing? = []
  inputs : ∀ block ∈ message.content.parsed, block.type = .toolUse → block.input.NumbersKept
  contents : ∀ block ∈ message.content.parsed, block.type = .toolResult → ResultKept block.content

/-! ### When the content of a result is kept -/

section Recode

open Json (mapMembers mapElements recodeMembers_iff MemberKept NumbersKept)

variable {members : List (String × Json)} {v content : Json} {blocks : List Json}

theorem source_members_iff :
    (∀ member ∈ members, MemberKept FieldKind.recode sourceFields member) ↔ ∀ member ∈ members,
      ∃ kind, fieldOf sourceFields member.1 = some (member.1, kind) ∧
        kind.keeps member.2 = true ∧ member.2.NumbersKept := by
  simp only [MemberKept, FieldKind.recode_iff]

theorem any_readsType_mapMembers (f : ℚ → ℚ) :
    (mapMembers f members).any readsType = members.any readsType := by
  induction members with
  | nil => rfl
  | cons member members ih => simp [mapMembers, ih, readsType]

theorem recodeSource_iff :
    (∃ l, recodeSource (mapMembers Float64.round members) = some l ∧
      mapMembers Float64.shortest l = members) ↔ SourceKept members := by
  unfold recodeSource SourceKept
  rw [any_readsType_mapMembers, ← source_members_iff, ← recodeMembers_iff]
  rcases htype : members.any readsType with _ | _
  · -- the type that is added is one that the source has not
    refine iff_of_false ?_ ?_
    · rintro ⟨l, hl, hsame⟩
      obtain ⟨written, -, rfl⟩ := Option.map_eq_some_iff.mp hl
      rw [← hsame] at htype
      simp [mapMembers, readsType, fieldOf, sourceFields] at htype
    · rintro ⟨⟨member, hmember, hname⟩, -⟩
      have hnone := (any_eq_false.mp htype) member hmember
      simp [readsType, fieldOf, sourceFields, hname] at hnone
  · simp only [if_true, Option.map_id']
    refine (and_iff_right_of_imp fun hall => ?_).symm
    obtain ⟨member, hmember, hreads⟩ := any_eq_true.mp htype
    obtain ⟨kind, hfield, -⟩ := recodeMembers_iff.mp hall member hmember
    simp only [readsType, hfield, Option.map_some, Option.some.injEq, decide_eq_true_eq] at hreads
    exact ⟨member, hmember, hreads⟩

theorem BlockField.recode_iff (field : BlockField) (v : Json) :
    (∃ w, field.recode v.decode = some (some w) ∧ w.marshal = v) ↔ field.Keeps v := by
  cases field with
  | plain kind => exact kind.recode_iff v
  | source =>
    -- a source is an object, and nothing else is decoded
    cases v with
    | object members =>
      have hiff := @recodeSource_iff members
      constructor
      · rintro ⟨w, hw, hsame⟩
        obtain ⟨l, hl, hw⟩ := Option.map_eq_some_iff.mp hw
        cases hw
        exact ⟨members, rfl, hiff.mp ⟨l, hl, Json.object.inj hsame⟩⟩
      · rintro ⟨_, ⟨⟩, hkept⟩
        obtain ⟨l, hl, hsame⟩ := hiff.mpr hkept
        refine ⟨.object l, ?_, congrArg Json.object hsame⟩
        show (recodeSource _).map _ = _
        rw [hl]
        rfl
    | _ => simp [BlockField.recode, BlockField.Keeps, Json.decode, Json.mapNumbers]

theorem recodeBlock_iff (block : Json) :
    (∃ w, recodeBlock block.decode = some w ∧ w.marshal = block) ↔ BlockKept block := by
  cases block with
  | object members =>
    have hiff : _ ↔ ∀ member ∈ members, MemberKept BlockField.recode blockFields member :=
      recodeMembers_iff
    -- an object is kept if each member is decoded and written back
    simp only [MemberKept, BlockField.recode_iff] at hiff
    constructor
    · rintro ⟨w, hw, hsame⟩
      obtain ⟨l, hl, rfl⟩ := Option.map_eq_some_iff.mp hw
      exact ⟨members, rfl, hiff.mp ⟨l, hl, Json.object.inj hsame⟩⟩
    · rintro ⟨_, ⟨⟩, hkept⟩
      obtain ⟨l, hl, hsame⟩ := hiff.mpr hkept
      refine ⟨.object l, ?_, congrArg Json.object hsame⟩
      show (recodeMembers _ _ _).map _ = _
      rw [hl]
      rfl
  | null => simp [recodeBlock, BlockKept, Json.decode, Json.marshal, Json.mapNumbers]
  | _ => simp [recodeBlock, BlockKept, Json.decode, Json.mapNumbers]

theorem recodeBlocks_iff :
    (∃ l, recodeBlocks (mapElements Float64.round blocks) = some l ∧
      mapElements Float64.shortest l = blocks) ↔ ∀ block ∈ blocks, BlockKept block := by
  induction blocks with
  | nil => exact iff_of_true ⟨[], rfl, rfl⟩ (by simp)
  | cons block blocks ih =>
    rw [forall_mem_cons, ← ih, ← recodeBlock_iff]
    constructor
    · rintro ⟨l, hl, hsame⟩
      obtain ⟨w, hw, hl⟩ := Option.bind_eq_some_iff.mp hl
      obtain ⟨rest, hrest, rfl⟩ := Option.map_eq_some_iff.mp hl
      obtain ⟨hfirst, hothers⟩ := List.cons.inj hsame
      exact ⟨⟨w, hw, hfirst⟩, rest, hrest, hothers⟩
    · rintro ⟨⟨w, hw, hfirst⟩, rest, hrest, hothers⟩
      refine ⟨w :: rest, ?_, cons_eq_cons.mpr ⟨hfirst, hothers⟩⟩
      rw [mapElements, recodeBlocks]
      simp only [Option.bind_eq_some_iff, Option.map_eq_some_iff]
      exact ⟨w, hw, rest, hrest, rfl⟩

theorem recodeContent_iff : (recodeContent content.recast.decode).marshal = content ↔
    content = .null ∨ ∃ blocks, content = .array blocks ∧ ∀ block ∈ blocks, BlockKept block := by
  rw [Json.decode_recast]
  cases content with
  | array blocks =>
    have hiff := @recodeBlocks_iff blocks
    -- what cannot be decoded is sent as null
    have hmarshal : (recodeContent (Json.array blocks).decode).marshal = .array blocks ↔
        ∃ l, recodeBlocks (mapElements Float64.round blocks) = some l ∧
          mapElements Float64.shortest l = blocks := by
      show (((recodeBlocks (mapElements Float64.round blocks)).map Json.array).getD .null).marshal =
        _ ↔ _
      rcases recodeBlocks (mapElements Float64.round blocks) with _ | l
      · simp [Json.marshal, Json.mapNumbers]
      · simp [Json.marshal, Json.mapNumbers]
    rw [hmarshal, hiff]
    simp
  | _ => simp [recodeContent, Json.decode, Json.marshal, Json.mapNumbers]

theorem toolCall_arguments_iff (block : ClaudeMediaMessage) :
    (toolCall block).arguments = .encoded block.input ↔ block.input.NumbersKept := by
  rw [← Json.marshal_decode_iff]
  show JsonText.encoded block.input.recast.recast = _ ↔ _
  rw [Json.recast_recast, JsonText.encoded.injEq]
  rfl

end Recode

/-! ### What becomes of a message -/

def mediaPart? : Option ChatPart :=
  match block.type with
  | .text => some (textPart block)
  | .inputText => some (textPart block)
  | .image => block.source.map imagePart
  | _ => none

def blockCall? : Option ToolCall :=
  match block.type with
  | .toolUse => some (toolCall block)
  | _ => none

def blockMessage? (block : ClaudeMediaMessage) : Option ChatMessage :=
  match block.type with
  | .toolResult => some (toolMessage request block)
  | _ => none

/-- Where the blocks go. -/
def sorted (blocks : List ClaudeMediaMessage) : BlockState where
  openAIMessages := openAIMessages ++ blocks.filterMap (blockMessage? request)
  toolCalls := blocks.filterMap (blockCall?)
  mediaMessages := blocks.filterMap mediaPart?

variable {request : ClaudeRequest} {blocks : List ClaudeMediaMessage}

theorem fold_blockStep (h : ∀ block ∈ blocks, block.type = .image → block.source ≠ none)
    (s : BlockState) :
    fold (blockStep request) s blocks =
      .ok ⟨s.openAIMessages ++ blocks.filterMap (blockMessage? request),
        s.toolCalls ++ blocks.filterMap (blockCall?),
          s.mediaMessages ++ blocks.filterMap mediaPart?⟩ := by
  induction blocks generalizing s with
  | nil => simp
  | cons block blocks ih =>
    obtain ⟨hblock, hblocks⟩ := forall_mem_cons.mp h
    have hrest := fun s => ih hblocks s
    rw [fold_cons]
    -- each type of block adds to one of the three lists
    cases htype : block.type with
    | text => simp [blockStep, htype, hrest, mediaPart?, blockCall?, blockMessage?]
    | inputText => simp [blockStep, htype, hrest, mediaPart?, blockCall?, blockMessage?]
    | toolUse => simp [blockStep, htype, hrest, mediaPart?, blockCall?, blockMessage?]
    | toolResult => simp [blockStep, htype, hrest, mediaPart?, blockCall?, blockMessage?]
    | other name => simp [blockStep, htype, hrest, mediaPart?, blockCall?, blockMessage?]
    | image =>
      obtain ⟨source, hsource⟩ := ne_none_iff_exists'.mp (hblock htype)
      simp [blockStep, htype, hsource, deref, hrest, mediaPart?, blockCall?, blockMessage?]

/-- The messages that a message is sent as. -/
def converted (request : ClaudeRequest) (message : InputMessage) : List ChatMessage :=
  match message.content with
  | .text text => [{ role := message.role, content := .text (.plain text) }]
  | .undecodable _ => []
  | .blocks blocks =>
    let s := sorted request [] blocks
    appendMessage s.openAIMessages (blocksMessage message.role s)

variable {openAIMessages : List ChatMessage}

theorem appendMessage_append (before : List ChatMessage) (message : ChatMessage) :
    appendMessage (before ++ openAIMessages) message =
      before ++ appendMessage openAIMessages message := by
  unfold appendMessage
  split_ifs
  · rw [append_assoc]
  · rfl

variable {message : InputMessage}

theorem messageStep_inScope (h : InScope message) :
    messageStep request openAIMessages message =
      .ok (openAIMessages ++ converted request message) := by
  unfold messageStep converted
  cases hcontent : message.content with
  | text text =>
    dsimp only
    unfold appendMessage
    rw [if_pos (.inl (by simp [parseContent]))]
  | undecodable e => exact absurd hcontent (h.decodable e)
  | blocks blocks =>
    -- an image without a source would be a nil pointer
    have hblocks : ∀ block ∈ blocks, block.type = .image → block.source ≠ none := by
      intro block hblock
      have hparsed : block ∈ message.content.parsed := by rwa [hcontent]
      exact (h.blocks block hparsed).image
    dsimp only
    rw [fold_blockStep hblocks, ok_bind]
    simp only [nil_append, sorted]
    rw [appendMessage_append]
    rfl

theorem fold_messageStep {messages : List InputMessage}
    (h : ∀ message ∈ messages, InScope message) :
    fold (messageStep request) openAIMessages messages =
      .ok (openAIMessages ++ messages.flatMap (converted request)) := by
  induction messages generalizing openAIMessages with
  | nil => simp
  | cons message messages ih =>
    obtain ⟨hmessage, hmessages⟩ := forall_mem_cons.mp h
    rw [fold_cons, messageStep_inScope hmessage, ok_bind, ih hmessages, flatMap_cons, append_assoc]

/-! ### What is shown -/

/-- The things that the blocks of a message are shown by, each kind for itself. -/
def resultShown? (block : ClaudeMediaMessage) : Option ChatThing :=
  match block.type with
  | .toolResult => some (.result block.toolUseId (resultText block.content))
  | _ => none

def mediaShown? (role : ChatRole) (block : ClaudeMediaMessage) : Option ChatThing :=
  (mediaPart? block).bind (partThing? role)

def callShown? (block : ClaudeMediaMessage) : Option ChatThing :=
  (blockCall? block).map .call

theorem chatThings_results :
    (blocks.filterMap (blockMessage? request)).flatMap chatThings =
      blocks.filterMap (resultShown?) := by
  induction blocks with
  | nil => rfl
  | cons block blocks ih =>
    cases htype : block.type with
    | toolResult =>
      simp [blockMessage?, resultShown?, htype, ih, chatThings, toolMessage, stringContent]
    | _ => simp [blockMessage?, resultShown?, htype, ih]

variable {role : ChatRole}

theorem chatThings_blocksMessage (hrole : role ≠ .tool) (s : BlockState) :
    chatThings (blocksMessage role s) =
      if s.toolCalls = [] then s.mediaMessages.filterMap (partThing? role)
      else s.toolCalls.map .call := by
  unfold chatThings blocksMessage
  rw [if_neg hrole]
  by_cases hcalls : s.toolCalls = []
  · by_cases hmedia : s.mediaMessages = []
    · simp [hcalls, hmedia, parseContent, parseToolCalls]
    · simp [hcalls, hmedia, parseContent, parseToolCalls]
  · simp [hcalls, parseContent, parseToolCalls]

/-- A message that is left out says nothing. -/
theorem chatThings_appendMessage {message : ChatMessage} (hrole : message.role ≠ .tool) :
    (appendMessage openAIMessages message).flatMap chatThings =
      openAIMessages.flatMap chatThings ++ chatThings message := by
  unfold appendMessage
  split_ifs with hsays
  · rw [flatMap_append, flatMap_singleton]
  · rw [not_or, not_not, not_not] at hsays
    have hnone : chatThings message = [] := by
      simp [chatThings, hrole, hsays.1, hsays.2, parseToolCalls]
    rw [hnone, append_nil]

/-- What a message is shown by. -/
def shownThings (message : InputMessage) : List ChatThing :=
  match message.content with
  | .text text => [.text message.role (.plain text)]
  | .undecodable _ => []
  | .blocks blocks => blocks.filterMap (resultShown?) ++
    if blocks.filterMap (blockCall?) = [] then blocks.filterMap (mediaShown? message.role)
    else blocks.filterMap (callShown?)

theorem chatThings_converted (h : InScope message) :
    (converted request message).flatMap chatThings = shownThings message := by
  have hrole : message.role ≠ .tool := by
    rcases h.role with huser | hassistant
    · rw [huser]
      decide
    · rw [hassistant]
      decide
  unfold converted shownThings
  cases message.content with
  | text text => simp [chatThings, hrole, parseContent, partThing?, parseToolCalls]
  | undecodable e => rfl
  | blocks blocks =>
    dsimp only
    rw [chatThings_appendMessage (by exact hrole), chatThings_blocksMessage hrole]
    have hresults : (sorted request [] blocks).openAIMessages.flatMap chatThings =
        blocks.filterMap (resultShown?) :=
      chatThings_results
    rw [hresults]
    -- with calls the message has no other content
    by_cases hcalls : blocks.filterMap (blockCall?) = []
    · rw [if_pos (by exact hcalls), if_pos hcalls]
      exact congrArg _ filterMap_filterMap
    · rw [if_neg (by exact hcalls), if_neg hcalls]
      exact congrArg _ map_filterMap

theorem results_isSome (block : ClaudeMediaMessage) :
    (resultThing? block).isSome = (resultShown? block).isSome := by
  cases htype : block.type with
  | toolResult => simp [resultThing?, resultShown?, htype]
  | _ => simp [resultThing?, resultShown?, htype]

theorem results_shown_iff :
    List.Forall₂ Shows (blocks.filterMap resultThing?) (blocks.filterMap resultShown?) ↔
      ∀ block ∈ blocks, block.type = .toolResult → ResultKept block.content := by
  rw [forall₂_filterMap_iff]
  · refine forall₂_congr fun block _ => ?_
    cases htype : block.type with
    | toolResult =>
      simp only [resultThing?, resultShown?, htype, Option.some.injEq, forall_const]
      -- a missing content is sent as null, a text as it is
      cases hcontent : block.content with
      | missing =>
        refine iff_of_false (fun hshows => ?_) nofun
        nomatch hshows _ _ rfl rfl
      | text text =>
        refine iff_of_true ?_ trivial
        rintro _ _ rfl rfl
        exact .plain _ _
      | other content =>
        rw [ResultKept, ← recodeContent_iff]
        constructor
        · intro hshows
          have hshown := hshows _ _ rfl rfl
          rw [resultText] at hshown
          generalize (recodeContent content.recast.decode).marshal = sent at hshown ⊢
          cases hshown
          rfl
        · rintro hvalue _ _ rfl rfl
          rw [resultText, hvalue]
          exact .json _ _
    | _ => simp [resultThing?, htype]
  · exact fun block _ => results_isSome block

theorem length_results_eq (blocks : List ClaudeMediaMessage) :
    (blocks.filterMap resultThing?).length = (blocks.filterMap (resultShown?)).length :=
  length_filterMap_eq fun block _ => results_isSome block

theorem calls_isSome : (callThing? block).isSome = (callShown? block).isSome := by
  cases htype : block.type with
  | toolUse => simp [callThing?, callShown?, blockCall?, htype]
  | _ => simp [callThing?, callShown?, blockCall?, htype]

theorem calls_shown_iff (blocks : List ClaudeMediaMessage) :
    List.Forall₂ Shows (blocks.filterMap callThing?) (blocks.filterMap callShown?) ↔
      ∀ block ∈ blocks, block.type = .toolUse → block.input.NumbersKept := by
  rw [forall₂_filterMap_iff fun block _ => calls_isSome block]
  refine forall₂_congr fun block _ => ?_
  -- an input goes through float64
  cases htype : block.type with
  | toolUse =>
    simp only [callThing?, callShown?, blockCall?, htype, map_some, Option.some.injEq, forall_const]
    rw [← toolCall_arguments_iff]
    constructor
    · intro hshows
      have hcall : Shows (.call block.id block.name block.input)
        (.call ⟨block.id, block.name, (toolCall block).arguments⟩) := hshows _ _ rfl rfl
      generalize (toolCall block).arguments = arguments at hcall ⊢
      cases hcall
      rfl
    · rintro hvalue _ _ rfl rfl
      show Shows _ (.call ⟨block.id, block.name, (toolCall block).arguments⟩)
      rw [hvalue]
      exact .call _ _ _
  | _ => simp [callThing?, htype]

theorem media_shown (h : ∀ block ∈ blocks, BlockInScope role block) :
    List.Forall₂ Shows (blocks.filterMap (mediaThing? role))
      (blocks.filterMap (mediaShown? role)) := by
  have hone : ∀ block ∈ blocks, (mediaThing? role block).isSome = (mediaShown? role block).isSome ∧
      ∀ x y, mediaThing? role block = some x → mediaShown? role block = some y → Shows x y := by
    intro block hblock
    -- a block within the scope has one of four types
    rcases (h block hblock).kind with htype | htype | htype | htype
    · obtain ⟨text, htext⟩ := ne_none_iff_exists'.mp ((h block hblock).text htype)
      simp only [mediaThing?, mediaShown?, mediaPart?, textPart, partThing?, htype, htext, map_some,
        getD_some, bind_some]
      refine ⟨rfl, ?_⟩
      rintro _ _ ⟨⟩ ⟨⟩
      exact .text role text
    · obtain ⟨source, hsource⟩ := ne_none_iff_exists'.mp ((h block hblock).image htype)
      simp only [mediaThing?, mediaShown?, mediaPart?, imagePart, partThing?, htype, hsource,
        map_some, bind_some]
      refine ⟨rfl, ?_⟩
      rintro _ _ ⟨⟩ ⟨⟩
      exact .image role source
    · simp [mediaThing?, mediaShown?, mediaPart?, htype]
    · simp [mediaThing?, mediaShown?, mediaPart?, htype]
  exact (forall₂_filterMap_iff fun block hblock => (hone block hblock).1).mpr fun block hblock =>
    (hone block hblock).2

theorem length_calls_eq (blocks : List ClaudeMediaMessage) :
    (blocks.filterMap callThing?).length = (blocks.filterMap (callShown?)).length :=
  length_filterMap_eq fun block _ => calls_isSome block

theorem blockCalls_eq_nil_iff :
    blocks.filterMap (blockCall?) = [] ↔ blocks.filterMap callThing? = [] := by
  have hshown : blocks.filterMap (callShown?) = (blocks.filterMap (blockCall?)).map .call :=
    map_filterMap.symm
  rw [← length_eq_zero_iff, ← length_eq_zero_iff, length_calls_eq, hshown, length_map]

/-- A message is shown exactly if nothing of it is dropped. -/
theorem message_shown_iff (h : InScope message) :
    List.Forall₂ Shows (claudeThings message) (shownThings message) ↔ NothingDropped message := by
  unfold claudeThings shownThings
  cases hcontent : message.content with
  | text text =>
    have hparsed : message.content.parsed = [] := congrArg _ hcontent
    exact iff_of_true (.cons (.text _ _) .nil)
      ⟨.inl (by rw [hparsed]; rfl), by simp [hparsed], by simp [hparsed]⟩
  | undecodable e => exact absurd hcontent (h.decodable e)
  | blocks blocks =>
    have hparsed : message.content.parsed = blocks := congrArg _ hcontent
    have hmedia := media_shown (hparsed ▸ h.blocks)
    have hresults := length_results_eq blocks
    dsimp only
    rw [append_assoc, forall₂_append_iff hresults, results_shown_iff]
    -- texts and images beside calls are dropped
    by_cases hcalls : blocks.filterMap callThing? = []
    · rw [if_pos (blockCalls_eq_nil_iff.mpr hcalls), hcalls, append_nil]
      have hinputs := (calls_shown_iff blocks).mp (by
        rw [hcalls, length_eq_zero_iff.mp
          ((length_calls_eq blocks).symm.trans (length_eq_zero_iff.mpr hcalls))]
        exact .nil)
      constructor
      · rintro ⟨hcontents, -⟩
        exact ⟨.inr (by rw [hparsed, hcalls]), by rwa [hparsed], by rwa [hparsed]⟩
      · intro hkept
        exact ⟨hparsed ▸ hkept.contents, hmedia⟩
    · rw [if_neg fun hnone => hcalls (blockCalls_eq_nil_iff.mp hnone)]
      constructor
      · rintro ⟨hcontents, hrest⟩
        have hlength := hrest.length_eq
        rw [length_append, length_calls_eq] at hlength
        have hnone : blocks.filterMap (mediaThing? message.role) = [] :=
          length_eq_zero_iff.mp (by omega)
        rw [hnone, nil_append, calls_shown_iff] at hrest
        exact ⟨.inl (by rw [hparsed, hnone]), by rwa [hparsed], by rwa [hparsed]⟩
      · intro hkept
        have hnone := hkept.apart.resolve_right (by rwa [hparsed])
        rw [hparsed] at hnone
        rw [hnone, nil_append, calls_shown_iff]
        exact ⟨hparsed ▸ hkept.contents, hparsed ▸ hkept.inputs⟩

theorem length_shownThings_le (h : InScope message) :
    (shownThings message).length ≤ (claudeThings message).length := by
  unfold claudeThings shownThings
  cases hcontent : message.content with
  | text text => exact Nat.le_refl 1
  | undecodable e => exact Nat.le_refl 0
  | blocks blocks =>
    have hparsed : message.content.parsed = blocks := congrArg _ hcontent
    have hmedia := (media_shown (hparsed ▸ h.blocks)).length_eq
    have hcalls := length_calls_eq blocks
    have hresults := length_results_eq blocks
    dsimp only
    rw [length_append, length_append, length_append]
    split_ifs <;> omega

/-- For all requests of texts, images, calls and results: the conversion returns, and after the
system message everything is shown once and in order, the results of a message first, exactly if no
message has both calls and texts or images, and JSON is sent with its value. -/
theorem blocks_kept_iff (isOpenRouterClaude : Bool) (request : ClaudeRequest)
    (hscope : ∀ message ∈ request.messages, InScope message) :
    ∃ messages, claudeMessagesRequestToOpenAIChat isOpenRouterClaude request =
        .ok (systemMessages isOpenRouterClaude request.system ++ messages) ∧
      (List.Forall₂ Shows (request.messages.flatMap claudeThings) (messages.flatMap chatThings) ↔
        ∀ message ∈ request.messages, NothingDropped message) := by
  refine ⟨_, fold_messageStep hscope, ?_⟩
  have hshown : (request.messages.flatMap (converted request)).flatMap chatThings =
      request.messages.flatMap (shownThings) := by
    rw [flatMap_assoc]
    exact flatMap_congr fun message hmessage => chatThings_converted (hscope message hmessage)
  rw [hshown, forall₂_flatMap_iff fun message hmessage =>
    length_shownThings_le (hscope message hmessage)]
  exact forall₂_congr fun message hmessage => message_shown_iff (hscope message hmessage)

def textBlock (text : String) : ClaudeMediaMessage := { type := .text, text := some text }

def callBlock : ClaudeMediaMessage :=
  { type := .toolUse, id := "c1", name := "weather",
    input := .object [("lat", .number (525 / 10))] }

def resultBlock : ClaudeMediaMessage :=
  { type := .toolResult, toolUseId := "c1"
    content := .other (.array [.object [("text", .string "sunny"), ("type", .string "text")]]) }

/-- A question, a call without words, and its result. -/
def silentCall : ClaudeRequest where
  messages :=
    [⟨.user, .text "weather?"⟩, ⟨.assistant, .blocks [callBlock]⟩,
      ⟨.user, .blocks [resultBlock, textBlock "thanks"]⟩]

theorem inScope_silentCall : ∀ message ∈ silentCall.messages, InScope message := by
  have hcall : BlockInScope .assistant callBlock := by
    refine ⟨.inr (.inr (.inl rfl)), nofun, nofun, fun _ => ⟨rfl, by decide +kernel⟩, nofun⟩
  have hresult : BlockInScope .user resultBlock := by
    refine ⟨.inr (.inr (.inr rfl)), nofun, nofun, nofun, fun _ => ⟨rfl, ?_⟩⟩
    rintro _ ⟨⟩
    refine ⟨by decide +kernel, ?_⟩
    rintro _ ⟨⟩ members hmembers
    cases mem_singleton.mp hmembers
    decide
  have htext : BlockInScope .user (textBlock "thanks") := by constructor <;> simp [textBlock]
  intro message hmessage
  simp only [silentCall, mem_cons, not_mem_nil, or_false] at hmessage
  rcases hmessage with rfl | rfl | rfl
  · exact ⟨.inl rfl, nofun, fun block hblock => absurd hblock not_mem_nil⟩
  · exact ⟨.inr rfl, nofun, forall_mem_singleton.mpr hcall⟩
  · exact ⟨.inl rfl, nofun, forall_mem_cons.mpr ⟨hresult, forall_mem_singleton.mpr htext⟩⟩

theorem nothingDropped_silentCall : ∀ message ∈ silentCall.messages, NothingDropped message := by
  have hresult : ResultKept resultBlock.content := by
    refine .inr ⟨_, rfl, forall_mem_singleton.mpr ⟨_, rfl, ?_⟩⟩
    refine forall_mem_cons.mpr ⟨⟨.plain .optionalText, rfl, ?_⟩,
      forall_mem_singleton.mpr ⟨.plain .text, rfl, ?_⟩⟩
    · exact ⟨rfl, by decide⟩
    · exact ⟨rfl, by decide⟩
  intro message hmessage
  simp only [silentCall, mem_cons, not_mem_nil, or_false] at hmessage
  rcases hmessage with rfl | rfl | rfl
  · exact ⟨.inl rfl, fun block hblock => absurd hblock not_mem_nil,
      fun block hblock => absurd hblock not_mem_nil⟩
  · exact ⟨.inl rfl, forall_mem_singleton.mpr fun _ => by decide +kernel,
      forall_mem_singleton.mpr nofun⟩
  · exact ⟨.inr rfl, forall_mem_cons.mpr ⟨nofun, forall_mem_singleton.mpr nofun⟩,
      forall_mem_cons.mpr ⟨fun _ => hresult, forall_mem_singleton.mpr nofun⟩⟩

theorem blocks_kept_silentCall :
    ∃ messages, claudeMessagesRequestToOpenAIChat false silentCall = .ok ([] ++ messages) ∧
      List.Forall₂ Shows (silentCall.messages.flatMap claudeThings)
        (messages.flatMap chatThings) := by
  obtain ⟨messages, hok, hiff⟩ := blocks_kept_iff false silentCall inScope_silentCall
  exact ⟨messages, hok, hiff.mpr nothingDropped_silentCall⟩

/-- An assistant that says something and calls a tool. -/
def textAndCall : ClaudeRequest where
  messages :=
    [⟨.user, .text "weather?"⟩, ⟨.assistant, .blocks [textBlock "let me look", callBlock]⟩]

/-- The text beside the call is lost. -/
theorem text_beside_call_dropped : claudeMessagesRequestToOpenAIChat false textAndCall =
        .ok [{ role := .user, content := .text (.plain "weather?") },
          { role := .assistant, toolCalls := some [toolCall callBlock] }] ∧
      ¬ List.Forall₂ Shows (textAndCall.messages.flatMap claudeThings)
        ([{ role := .user, content := .text (.plain "weather?") },
          { role := .assistant, toolCalls := some [toolCall callBlock] }].flatMap chatThings) := by
  refine ⟨rfl, fun hall => ?_⟩
  exact absurd hall.length_eq (by decide)

end ClaudeRequestToChat
