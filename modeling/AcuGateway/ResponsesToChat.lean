/-
Responses answers as OpenAI chat answers, streamed and in one message.

The converter for streams knows a tool call under up to three names: its output index, its
item id and its call id.  Arguments that come before their tool call is known wait, and the
response at the end is replayed for what has not been sent.

* `responsesResponseToChatCompletionsResponse` — a whole response as one message;
* `ResponsesToChatStreamState`, `ToolKey` — the state of the stream converter;
* `ensureToolForEvent`, `toolDelta`, `flushAllPendingTools` — tool calls;
* `convertEvent`, `responsesStreamEventToChatChunks` — one event as chunks;
* `chatChunksOf` — all chunks of a list of events.
-/
import AcuGateway.Lib.Dict
import AcuGateway.Lib.Transducer
import AcuGateway.ResponsesMessages
import Mathlib.Data.List.Sort

open Text (trimSpace byteLen dropBytes)

/-! ### Whole responses -/

variable (out : ResponsesOutput)

/-- The `output_text` parts of an item. -/
def outputTextOf : String :=
  String.join ((out.content.filter (·.type = .outputText)).map ResponsesOutputContent.text)

/-- All parts of an item. -/
def contentTextOf : String := String.join (out.content.map ResponsesOutputContent.text)

variable (resp : OpenAIResponsesResponse)

/-- The text of the messages of the assistant; where they have none, all texts there are. -/
def extractOutputTextFromResponses : String :=
  let messages := resp.output.filter fun out =>
    out.type = .message && (out.role = "" || out.role = "assistant")
  let text := String.join (messages.map outputTextOf)
  if text ≠ "" then text else String.join (resp.output.map contentTextOf)

def extractReasoningTextFromResponses : String :=
  String.join ((resp.output.filter (·.type = .reasoning)).map contentTextOf)

/-- A tool call of the response; one without a name is dropped. -/
def toolCallOf (out : ResponsesOutput) : Option ToolCallResponse :=
  if isResponsesToolOutputType out.type = false then none
  else if trimSpace out.name = "" then none
  else
    some {
      id := if trimSpace out.callId = "" then trimSpace out.id else trimSpace out.callId
      type := some "function"
      function := { name := trimSpace out.name, arguments := out.argumentsString } }

def responsesResponseToChatCompletionsResponse (id : String) : OpenAITextResponse :=
  let reasoning := extractReasoningTextFromResponses resp
  let toolCalls := resp.output.filterMap toolCallOf
  { id
    object := "chat.completion"
    created := resp.createdAt
    model := resp.model
    choices :=
      [{ message :=
          { role := "assistant"
            content := extractOutputTextFromResponses resp
            reasoningContent := if reasoning ≠ "" then some reasoning else none
            toolCalls }
         finishReason := (responsesFinishReasonFromStatus (some resp)).getD
           (if toolCalls.isEmpty then "stop" else "tool_calls") }]
    usage := usageFromResponsesUsage resp.usage }

/-! ### The state of the stream converter -/

/-- What a tool call is stored under. -/
inductive ToolKey
  | output (outputIndex : Int)
  | item (itemID : String)
  | call (callID : String)
deriving DecidableEq

def ToolKey.text : ToolKey → String
  | .output outputIndex => "output:" ++ toString outputIndex
  | .item itemID => "item:" ++ itemID
  | .call callID => "call:" ++ callID

structure ResponsesStreamTool where
  key : ToolKey
  callID : String := ""
  itemID : String := ""
  name : String := ""
  arguments : String := ""
  index : Nat
  sent : Bool := false
  nameSent : Bool := false
  /-- how many bytes of the arguments are sent -/
  argsSentAt : Nat := 0

/-- More arguments for the tool call. -/
def ResponsesStreamTool.more (arguments : String) (tool : ResponsesStreamTool) :
    ResponsesStreamTool :=
  { tool with arguments := tool.arguments ++ arguments }

@[simp] theorem ResponsesStreamTool.more_empty : ResponsesStreamTool.more "" = id := by
  funext tool
  simp [more]

/-- Tool calls are shared between keys: `tools` holds them in order of their index, and
`toolByKey` gives the place. -/
structure ResponsesToChatStreamState where
  id : String := ""
  model : String := ""
  created : Int := 0
  includeUsage : Bool := false
  usage : Option Usage := some {}
  sentStart : Bool := false
  finalized : Bool := false
  hasSentText : Bool := false
  sawToolCall : Bool := false
  hasSentReasoning : Bool := false
  needsReasoningSummaryBreak : Bool := false
  tools : List ResponsesStreamTool := []
  toolByKey : Dict ToolKey Nat := ∅
  outputIndexToKey : Dict Int ToolKey := ∅
  itemIDToKey : Dict String ToolKey := ∅
  callIDToKey : Dict String ToolKey := ∅
  pendingArgsByOutputIndex : Dict Int String := ∅
  pendingArgsByItemID : Dict String String := ∅
  usageText : String := ""

def newResponsesToChatStreamState (model : String) (includeUsage : Bool) (now : Int) :
    ResponsesToChatStreamState :=
  { model, includeUsage, created := now }

/-- A step of the converter, with the chunks it sends. -/
abbrev ChatStep := Emitter ResponsesToChatStreamState ChatCompletionsStreamResponse

variable (s : ResponsesToChatStreamState)

namespace ResponsesToChatStreamState

def makeChunk (delta : ChatStreamDelta) (finishReason : Option String) :
    ChatCompletionsStreamResponse :=
  { id := s.id
    object := "chat.completion.chunk"
    created := s.created
    model := s.model
    choices := [{ index := 0, delta, finishReason }] }

def applyResponseMetadata (response : Option OpenAIResponsesResponse)
    (s : ResponsesToChatStreamState) : ResponsesToChatStreamState :=
  match response with
  | none => s
  | some response =>
    { s with
      id := if response.id ≠ "" ∧ s.id = "" then response.id else s.id
      model := if response.model ≠ "" then response.model else s.model
      created := if response.createdAt ≠ 0 then response.createdAt else s.created
      usage := if response.usage.isSome then some (usageFromResponsesUsage response.usage)
        else s.usage }

/-- Write to the tool call at place `n`. -/
def modifyTool (n : Nat) (f : ResponsesStreamTool → ResponsesStreamTool)
    (s : ResponsesToChatStreamState) : ResponsesToChatStreamState :=
  { s with tools := s.tools.modify n f }

/-- A new tool call, with the next index. -/
def newTool (key : ToolKey) (callID : String) (s : ResponsesToChatStreamState) :
    ResponsesToChatStreamState × Nat :=
  ({ s with
      tools := s.tools ++ [{ key, callID, index := s.tools.length }]
      toolByKey := s.toolByKey.insert key s.tools.length }, s.tools.length)

end ResponsesToChatStreamState

open ResponsesToChatStreamState Emitter

/-! ### Text and reasoning -/

/-- The role goes out first, once. -/
def ensureStart : ChatStep := fun s =>
  if s.sentStart then (s, [])
  else
    ({ s with sentStart := true }, [s.makeChunk { role := "assistant", content := some "" } none])

variable (delta : String)

def textDelta : ChatStep :=
  if delta = "" then .emit []
  else
    seq (.modify fun s => { s with usageText := s.usageText ++ delta, hasSentText := true })
      (seq ensureStart (.emitFrom fun s => [s.makeChunk { content := some delta } none]))

/-- A break between two summaries, unless the next one begins with it. -/
def withSummaryBreak : String :=
  if "\n\n".toList.isPrefixOf delta.toList then delta
  else if "\n".toList.isPrefixOf delta.toList then "\n" ++ delta
  else "\n\n" ++ delta

def reasoningDelta : ChatStep := fun s =>
  if delta = "" then (s, [])
  else
    let delta := if s.needsReasoningSummaryBreak then withSummaryBreak delta else delta
    seq (.modify fun s =>
        { s with needsReasoningSummaryBreak := false, usageText := s.usageText ++ delta })
      (seq ensureStart
        (seq (.emitFrom fun s => [s.makeChunk { reasoningContent := some delta } none])
          (.modify fun s => { s with hasSentReasoning := true }))) s

/-! ### Tool calls -/

def fallbackToolKey (itemID callID : String) (outputIndex : Option Int) : Option ToolKey :=
  match outputIndex with
  | some i => some (.output i)
  | none =>
    if trimSpace itemID ≠ "" then some (.item (trimSpace itemID))
    else if trimSpace callID ≠ "" then some (.call (trimSpace callID))
    else none

variable (event : ResponsesStreamResponse)

def eventItemKey : Option ToolKey :=
  if trimSpace event.itemID ≠ "" then some (.item (trimSpace event.itemID)) else none

def keyForEvent : Option ToolKey :=
  match event.outputIndex, event.item with
  | some i, _ => some (.output i)
  | none, some item => fallbackToolKey item.id item.callId none <|> eventItemKey event
  | none, none => eventItemKey event

def fallbackCallID : String :=
  if trimSpace event.itemID ≠ "" then trimSpace event.itemID
  else
    match event.outputIndex with
    | some i => "call_output_" ++ toString i
    | none => ""

/-- The output index of an event names its tool call from now on, which takes the arguments
that wait under that index. -/
def bindOutputIndex (outputIndex : Option Int) (key : ToolKey) (n : Nat)
    (s : ResponsesToChatStreamState) : ResponsesToChatStreamState :=
  match outputIndex with
  | none => s
  | some i =>
    let bound := { s with outputIndexToKey := s.outputIndexToKey.insert i key }
    match s.pendingArgsByOutputIndex.lookup i with
    | none => bound
    | some pending =>
      if pending = "" then bound
      else
        { bound.modifyTool n (ResponsesStreamTool.more pending) with
          pendingArgsByOutputIndex := s.pendingArgsByOutputIndex.erase i }

def bindItemID (itemID : String) (key : ToolKey) (n : Nat) (s : ResponsesToChatStreamState) :
    ResponsesToChatStreamState :=
  if itemID = "" then s
  else
    let bound := { s.modifyTool n fun tool => { tool with itemID } with
      itemIDToKey := s.itemIDToKey.insert itemID key }
    match s.pendingArgsByItemID.lookup itemID with
    | none => bound
    | some pending =>
      if pending = "" then bound
      else
        { bound.modifyTool n (ResponsesStreamTool.more pending) with
          pendingArgsByItemID := s.pendingArgsByItemID.erase itemID }

variable (item : ResponsesOutput)

/-- The call id, or the item id where the item has no call id. -/
def bindCallID (key : ToolKey) (n : Nat) (s : ResponsesToChatStreamState) :
    ResponsesToChatStreamState :=
  if trimSpace item.callId ≠ "" then
    { s.modifyTool n fun tool => { tool with callID := trimSpace item.callId } with
      callIDToKey := s.callIDToKey.insert (trimSpace item.callId) key }
  else
    s.modifyTool n fun tool =>
      { tool with callID := if tool.callID = "" then trimSpace item.id else tool.callID }

def bindName (n : Nat) (s : ResponsesToChatStreamState) : ResponsesToChatStreamState :=
  if trimSpace item.name ≠ "" then
    s.modifyTool n fun tool => { tool with name := trimSpace item.name }
  else s

variable (s : ResponsesToChatStreamState)

/-- The tool call that an item belongs to, under whichever name it is known. -/
def knownTool : Option Nat :=
  let itemID := responseStreamEventItemID event
  (if itemID ≠ "" then (s.itemIDToKey.lookup itemID).bind s.toolByKey.lookup else none) <|>
  (if trimSpace item.callId ≠ "" then
    (s.callIDToKey.lookup (trimSpace item.callId)).bind s.toolByKey.lookup else none)

variable (key : ToolKey)

/-- The tool call stored under `key`; one known under another name is stored there too, and a
new one is opened where there is none. -/
def openTool (s : ResponsesToChatStreamState) : ResponsesToChatStreamState × Nat :=
  match s.toolByKey.lookup key with
  | some n => (s, n)
  | none =>
    match knownTool event item s with
    | some n => ({ s with toolByKey := s.toolByKey.insert key n }, n)
    | none => s.newTool key ""

/-- All names of an item are bound to its tool call. -/
def bindTool (n : Nat) (s : ResponsesToChatStreamState) : ResponsesToChatStreamState :=
  bindName item n (bindCallID item key n (bindItemID (responseStreamEventItemID event) key n
    (bindOutputIndex event.outputIndex key n s)))

/-- `none` for an item without any name. -/
def ensureToolForEvent : Option (ResponsesToChatStreamState × Nat) :=
  (keyForEvent event <|> fallbackToolKey item.id item.callId event.outputIndex).map fun key =>
    let (opened, n) := openTool event item key s
    (bindTool event item key n opened, n)

def findToolForEvent : Option Nat :=
  match event.outputIndex.bind s.outputIndexToKey.lookup with
  | some key => s.toolByKey.lookup key
  | none =>
    match (if trimSpace event.itemID ≠ "" then s.itemIDToKey.lookup (trimSpace event.itemID)
        else none) with
    | some key => s.toolByKey.lookup key
    | none => if event.item.isSome then (keyForEvent event).bind s.toolByKey.lookup else none

/-- The tool call stored under `key`, or a new one. -/
def openToolAt (callID : String) (s : ResponsesToChatStreamState) :
    ResponsesToChatStreamState × Nat :=
  match s.toolByKey.lookup key with
  | some n => (s, n)
  | none => s.newTool key callID

def ensureFallbackToolForEvent : Option (ResponsesToChatStreamState × Nat) :=
  let key : Option ToolKey := match event.outputIndex with
    | some i => some (.output i)
    | none => eventItemKey event
  key.map fun key =>
    let (opened, n) := openToolAt key (fallbackCallID event) s
    (bindItemID (responseStreamEventItemID event) key n
      (bindOutputIndex event.outputIndex key n opened), n)

variable (tool : ResponsesStreamTool)

/-- What `toolDelta` sends of the arguments, and how many bytes are sent then. -/
def ResponsesStreamTool.argsDelta (explicitDelta : String) : String × Nat :=
  if explicitDelta = "" ∧ tool.argsSentAt < byteLen tool.arguments then
    (dropBytes tool.argsSentAt tool.arguments, byteLen tool.arguments)
  else (explicitDelta, tool.argsSentAt + byteLen explicitDelta)

/-- The delta for the tool call: what is new of its arguments, and its name if it is new. -/
def ResponsesStreamTool.response (argsDelta : String) : ToolCallResponse :=
  { index := some tool.index
    id := if trimSpace tool.callID = "" then tool.key.text else trimSpace tool.callID
    type := some "function"
    function :=
      { name := if tool.nameSent then "" else tool.name
        arguments := argsDelta } }

/-- The tool call once a delta for it is sent. -/
def ResponsesStreamTool.settle (argsSentAt : Nat) (tool : ResponsesStreamTool) :
    ResponsesStreamTool :=
  { tool with nameSent := tool.nameSent || tool.name ≠ "", sent := true, argsSentAt }

namespace ResponsesStreamTool

variable (tool : ResponsesStreamTool) (argsSentAt : Nat)

theorem settle_index : (tool.settle argsSentAt).index = tool.index := by simp only [settle]

theorem settle_callID : (tool.settle argsSentAt).callID = tool.callID := by simp only [settle]

theorem settle_name : (tool.settle argsSentAt).name = tool.name := by simp only [settle]

theorem settle_nameSent :
    (tool.settle argsSentAt).nameSent = (tool.nameSent || decide (tool.name ≠ "")) := by
  simp only [settle]

end ResponsesStreamTool

open ResponsesStreamTool

def toolDelta (n : Nat) (explicitDelta : String) : ChatStep := fun s =>
  match s.tools[n]? with
  | none => (s, [])
  | some tool =>
    let (argsDelta, argsSentAt) := tool.argsDelta explicitDelta
    if tool.sent ∧ argsDelta = "" ∧ (tool.name = "" ∨ tool.nameSent) then (s, [])
    else
      let response := tool.response argsDelta
      seq ensureStart
        (seq (.emitFrom fun s => [s.makeChunk { toolCalls := [response] } none]) (.modify fun s =>
            { s.modifyTool n (·.settle argsSentAt) with
              usageText := s.usageText ++ argsDelta ++ response.function.name
              sawToolCall := true })) s

/-- An item with arguments carries all of them. -/
def ResponsesStreamTool.full : ResponsesStreamTool :=
  if item.argumentsString ≠ "" then { tool with arguments := item.argumentsString } else tool

theorem ResponsesStreamTool.full_eq : tool.full item = { tool with
        arguments := if item.argumentsString ≠ "" then item.argumentsString
          else tool.arguments } := by
  unfold full
  split <;> rfl

def toolItem : ChatStep := fun s =>
  match ensureToolForEvent event item s with
  | none => (s, [])
  | some (s, n) => toolDelta n "" (s.modifyTool n (ResponsesStreamTool.full item))

/-- Arguments for a tool call that is not known yet wait. -/
def waitForTool (s : ResponsesToChatStreamState) : ResponsesToChatStreamState :=
  match event.outputIndex with
  | some i =>
    let waiting := (s.pendingArgsByOutputIndex.lookup i).getD "" ++ event.delta
    { s with pendingArgsByOutputIndex := s.pendingArgsByOutputIndex.insert i waiting }
  | none =>
    let itemID := trimSpace event.itemID
    let waiting := (s.pendingArgsByItemID.lookup itemID).getD "" ++ event.delta
    if itemID ≠ "" then
      { s with pendingArgsByItemID := s.pendingArgsByItemID.insert itemID waiting }
    else s

def toolArgumentsDelta : ChatStep := fun s =>
  if event.delta = "" then (s, [])
  else
    match findToolForEvent event s with
    | none => (waitForTool event s, [])
    | some n =>
      toolDelta n event.delta (s.modifyTool n (more event.delta))

def flushPendingTool : ChatStep := fun s =>
  match findToolForEvent event s with
  | some n => toolDelta n "" s
  | none =>
    match ensureFallbackToolForEvent event s with
    | some (s, n) => toolDelta n "" s
    | none => (s, [])

/-! ### The end of the stream -/

def terminalOutput (out : ResponsesOutput) : ChatStep := fun s =>
  if out.type = .message ∧ s.hasSentText = false then textDelta (outputTextOf out) s
  else if out.type = .reasoning ∧ s.hasSentReasoning = false then
    reasoningDelta (contentTextOf out) s
  else if isResponsesToolOutputType out.type then toolItem { item := some out } out s
  else (s, [])

variable (response : Option OpenAIResponsesResponse)

/-- The response at the end, replayed for what has not been sent. -/
def terminalOutputChunks : ChatStep := fun s =>
  let outputs := (response.map OpenAIResponsesResponse.output).getD []
  (Transducer.final terminalOutput s outputs, Transducer.outputs terminalOutput s outputs)

/-- The keys of all tool calls and of all arguments that still wait, in order of their texts. -/
def flushKeys : List ToolKey :=
  let outputKeys :=
    (s.pendingArgsByOutputIndex.keys.map ToolKey.output).filter (· ∉ s.toolByKey.keys)
  let itemKeys := (s.pendingArgsByItemID.keys.map ToolKey.item).filter (· ∉ s.toolByKey.keys)
  (s.toolByKey.keys ++ outputKeys ++ itemKeys).insertionSort fun a b => a.text ≤ b.text

/-- The call id of a tool call of which only arguments have come. -/
def ToolKey.fallbackCallID : ToolKey → String
  | .output outputIndex => "call_output_" ++ toString outputIndex
  | .item itemID => itemID
  | .call callID => "call:" ++ callID

/-- The arguments that wait under `key`. -/
def takePending (key : ToolKey) (n : Nat) (s : ResponsesToChatStreamState) :
    ResponsesToChatStreamState :=
  match key with
  | .output outputIndex =>
    { s.modifyTool n (more ((s.pendingArgsByOutputIndex.lookup outputIndex).getD "")) with
      pendingArgsByOutputIndex := s.pendingArgsByOutputIndex.erase outputIndex }
  | .item itemID =>
    { s.modifyTool n (more ((s.pendingArgsByItemID.lookup itemID).getD "")) with
      pendingArgsByItemID := s.pendingArgsByItemID.erase itemID }
  | .call _ => s

def flushKey (key : ToolKey) : ChatStep := fun s =>
  let (opened, n) := openToolAt key key.fallbackCallID s
  toolDelta n "" (takePending key n opened)

def flushAllPendingTools : ChatStep := fun s =>
  (Transducer.final flushKey s (flushKeys s), Transducer.outputs flushKey s (flushKeys s))

def usageChunk : List ChatCompletionsStreamResponse :=
  if s.includeUsage ∧ s.usage.isSome then
    [{ id := s.id, object := "chat.completion.chunk", created := s.created, model := s.model
       usage := s.usage }]
  else []

variable (s : ResponsesToChatStreamState)

def finishReasonOf : String :=
  (responsesFinishReasonFromStatus response).getD (if s.sawToolCall then "tool_calls" else "stop")

def finalize : ChatStep := fun s =>
  if s.finalized then (s, [])
  else
    seq (.modify fun s => { s with finalized := true })
      (seq flushAllPendingTools (seq ensureStart (.emitFrom fun s =>
          s.makeChunk {} (some (finishReasonOf response s)) :: usageChunk s))) s

def finalizeResponsesToChatStream : ChatStep := finalize none

/-! ### Events -/

/-- The response that an event at the end of a stream carries. -/
def terminalResponse : Option OpenAIResponsesResponse :=
  if event.type = .incomplete then some (ensureIncompleteResponse event.response)
  else event.response

def terminalChunks : ChatStep :=
  seq (.modify (applyResponseMetadata (terminalResponse event)))
    (seq (terminalOutputChunks (terminalResponse event)) (finalize (terminalResponse event)))

/-- An event, unless it is an error. -/
def convertEvent : ChatStep :=
  match event.type with
  | .created => seq (.modify (applyResponseMetadata event.response)) ensureStart
  | .reasoningSummaryDelta | .reasoningTextDelta => reasoningDelta event.delta
  | .reasoningSummaryDone | .reasoningTextDone =>
    .modify fun s =>
      { s with needsReasoningSummaryBreak := s.needsReasoningSummaryBreak || s.hasSentReasoning }
  | .outputTextDelta => textDelta event.delta
  | .outputItemAdded | .outputItemDone =>
    match event.item with
    | none => .emit []
    | some item => if isResponsesToolOutputType item.type then toolItem event item else .emit []
  | .functionArgsDelta | .customToolInputDelta => toolArgumentsDelta event
  | .functionArgsDone | .customToolInputDone => flushPendingTool event
  | .completed | .done | .incomplete => terminalChunks event
  | .failed | .error | .outputTextDone | .other => .emit []

/-- An error event ends the conversion. -/
def streamError : Option String :=
  match event.type with
  | .failed => some "responses stream error: response.failed"
  | .error => some "responses stream error: response.error"
  | _ => none

def responsesStreamEventToChatChunks :
    Except String (ResponsesToChatStreamState × List ChatCompletionsStreamResponse) :=
  match streamError event with
  | some message => .error message
  | none => .ok (convertEvent event s)

/-- The chunks of a list of events. -/
def chatChunksOf (events : List ResponsesStreamResponse) :
    Except String (ResponsesToChatStreamState × List ChatCompletionsStreamResponse) :=
  Transducer.tryOutputs responsesStreamEventToChatChunks s events

theorem chatChunksOf_ok {events : List ResponsesStreamResponse}
    (h : ∀ event ∈ events, streamError event = none) :
    chatChunksOf s events =
      .ok (Transducer.final convertEvent s events, Transducer.outputs convertEvent s events) :=
  Transducer.tryOutputs_ok (fun event hevent s => by
    rw [responsesStreamEventToChatChunks, h event hevent]) s
