/-
OpenAI chat streams as Responses streams.

Text, reasoning and each tool call become output items: an item is announced when its first
delta comes, and closed when the answer is finished.  The response at the end lists all of
them, in the order in which they came.

* `ChatToResponsesStreamState` — the state of the converter;
* `appendTextDelta`, `appendReasoningDelta`, `appendToolCallDelta` — what a chunk may carry;
* `doneDeltaEvents`, `finalResponse` — the end of the answer;
* `chatCompletionsStreamChunkToResponsesEvents` — one chunk as events;
* `responsesEventsOf` — all events of a chat stream.
-/
import AcuGateway.Lib.Dict
import AcuGateway.Lib.Transducer
import AcuGateway.ResponsesMessages
import Mathlib.Data.List.Sort

open Text (trimSpace)

/-! ### The state -/

inductive ResponsesStatus
  | completed
  | incomplete
deriving DecidableEq

def ResponsesStatus.text : ResponsesStatus → String
  | completed => "completed"
  | incomplete => "incomplete"

structure ChatToResponsesStreamTool where
  chatIndex : Int
  outputIndex : Int
  id : String
  name : String
  arguments : String := ""
  done : Bool := false

/-- What stands at a place of the output. -/
inductive ChatToResponsesOutputRef
  | message
  | reasoning
  | tool (toolIndex : Int)
deriving DecidableEq

structure ChatToResponsesStreamState where
  id : String
  model : String
  created : Int
  usage : Usage := {}
  status : ResponsesStatus := .completed
  incompleteDetails : Option IncompleteDetails := none
  sentCreated : Bool := false
  textOutputIndex : Int := -1
  textStarted : Bool := false
  textDone : Bool := false
  reasoningIndex : Int := -1
  reasoningStarted : Bool := false
  reasoningDone : Bool := false
  finalized : Bool := false
  nextOutputIndex : Int := 0
  toolsByIndex : Dict Int ChatToResponsesStreamTool := ∅
  outputOrder : List ChatToResponsesOutputRef := []
  text : String := ""
  reasoning : String := ""

def newChatToResponsesStreamState (id model : String) (now : Int) : ChatToResponsesStreamState :=
  { id, model, created := now }

/-- A step of the converter, with the events it sends. -/
abbrev ResponsesStep := Emitter ChatToResponsesStreamState ResponsesStreamResponse

/-- The outcome of a finished answer, from its finish reason. -/
def responsesStatusFromChatFinishReason (finishReason : String) :
    ResponsesStatus × Option IncompleteDetails :=
  if trimSpace finishReason = "length" then (.incomplete, some { reason := "max_output_tokens" })
  else if trimSpace finishReason = "content_filter" then
    (.incomplete, some { reason := "content_filter" })
  else (.completed, none)

/-- A text as a JSON string. -/
def chatArgumentsRawMessage (arguments : String) : RawMessage := .str arguments

variable (s : ChatToResponsesStreamState)

namespace ChatToResponsesStreamState

def messageID : String := s.id ++ "_msg_0"

def reasoningID : String := s.id ++ "_reasoning_0"

def messageOutput : ResponsesOutput :=
  { type := .message
    id := s.messageID
    status := s.status.text
    role := "assistant"
    content := [{ type := .outputText, text := s.text }] }

def reasoningOutput : ResponsesOutput :=
  { type := .reasoning
    id := s.reasoningID
    status := s.status.text
    content := [{ type := .summaryText, text := s.reasoning }] }

/-- The next place of the output. -/
def nextIndex (ref : ChatToResponsesOutputRef) (s : ChatToResponsesStreamState) :
    ChatToResponsesStreamState × Int :=
  ({ s with
      nextOutputIndex := s.nextOutputIndex + 1
      outputOrder := s.outputOrder ++ [ref] }, s.nextOutputIndex)

end ChatToResponsesStreamState

open ChatToResponsesStreamState Emitter Transducer

variable (tool : ChatToResponsesStreamTool)

def toolOutput (status : ResponsesStatus) : ResponsesOutput :=
  { type := .functionCall
    id := tool.id
    status := status.text
    callId := tool.id
    name := tool.name
    arguments := chatArgumentsRawMessage tool.arguments }

/-! ### Deltas -/

def startText : ResponsesStep := fun s =>
  if s.textStarted then (s, [])
  else
    let (opened, index) := s.nextIndex .message
    ({ opened with textStarted := true, textOutputIndex := index },
      [{ type := .outputItemAdded
         outputIndex := some index
         item := some { type := .message, id := s.messageID
                        status := "in_progress", role := "assistant" } }])

def appendTextDelta (delta : String) : ResponsesStep :=
  seq startText (seq (.modify fun s => { s with text := s.text ++ delta }) (.emitFrom fun s =>
        [{ type := .outputTextDelta
           outputIndex := some s.textOutputIndex
           contentIndex := some 0
           delta
           itemID := s.messageID }]))

def startReasoning : ResponsesStep := fun s =>
  if s.reasoningStarted then (s, [])
  else
    let (opened, index) := s.nextIndex .reasoning
    ({ opened with reasoningStarted := true, reasoningIndex := index },
      [{ type := .outputItemAdded
         outputIndex := some index
         item := some { type := .reasoning, id := s.reasoningID, status := "in_progress" } }])

def appendReasoningDelta (delta : String) : ResponsesStep :=
  seq startReasoning
    (seq (.modify fun s => { s with reasoning := s.reasoning ++ delta }) (.emitFrom fun s =>
        [{ type := .reasoningSummaryDelta
           outputIndex := some s.reasoningIndex
           summaryIndex := some 0
           delta
           itemID := s.reasoningID }]))

/-- The tool call that a delta opens. -/
def openedTool (chatIndex outputIndex : Int) (toolCall : ToolCallResponse) :
    ChatToResponsesStreamTool :=
  { chatIndex
    outputIndex
    id := if trimSpace toolCall.id = "" then s.id ++ "_call_" ++ toString chatIndex
      else trimSpace toolCall.id
    name := trimSpace toolCall.function.name }

def toolAdded : ResponsesStreamResponse :=
  { type := .outputItemAdded
    outputIndex := some tool.outputIndex
    itemID := tool.id
    item := some
      { type := .functionCall
        id := tool.id
        status := "in_progress"
        callId := tool.id
        name := tool.name
        arguments := .str "" } }

/-- What a delta adds to its tool call. -/
def ChatToResponsesStreamTool.add (toolCall : ToolCallResponse) : ChatToResponsesStreamTool :=
  { tool with
    id := if trimSpace toolCall.id ≠ "" then trimSpace toolCall.id else tool.id
    name := if trimSpace toolCall.function.name ≠ "" then trimSpace toolCall.function.name
      else tool.name
    arguments := tool.arguments ++ toolCall.function.arguments }

namespace ChatToResponsesStreamTool

variable (tool : ChatToResponsesStreamTool) (toolCall : ToolCallResponse)

theorem add_chatIndex : (tool.add toolCall).chatIndex = tool.chatIndex := by simp only [add]

theorem add_outputIndex : (tool.add toolCall).outputIndex = tool.outputIndex := by simp only [add]

theorem add_name : (tool.add toolCall).name =
    if trimSpace toolCall.function.name ≠ "" then trimSpace toolCall.function.name
    else tool.name := by
  simp only [add]

theorem add_arguments :
    (tool.add toolCall).arguments = tool.arguments ++ toolCall.function.arguments := by
  simp only [add]

theorem add_done : (tool.add toolCall).done = tool.done := by simp only [add]

end ChatToResponsesStreamTool

def argumentsEvents (arguments : String) : List ResponsesStreamResponse :=
  if arguments ≠ "" then
    [{ type := .functionArgsDelta
       outputIndex := some tool.outputIndex
       itemID := tool.id
       delta := arguments }]
  else []

def appendToolCallDelta (toolCall : ToolCallResponse) : ResponsesStep := fun s =>
  let chatIndex := toolCall.index.getD 0
  let (s, tool, events) := match s.toolsByIndex.lookup chatIndex with
    | some tool => (s, tool, [])
    | none =>
      let (opened, outputIndex) := s.nextIndex (.tool chatIndex)
      let tool := openedTool s chatIndex outputIndex toolCall
      (opened, tool, [toolAdded tool])
  let tool := tool.add toolCall
  ({ s with toolsByIndex := s.toolsByIndex.insert chatIndex tool },
    events ++ argumentsEvents tool toolCall.function.arguments)

/-! ### The end of the answer -/

def doneText : ResponsesStep := fun s =>
  if s.textStarted ∧ s.textDone = false then
    ({ s with textDone := true },
      [{ type := .outputTextDone, outputIndex := some s.textOutputIndex, contentIndex := some 0
         itemID := s.messageID },
       { type := .outputItemDone, outputIndex := some s.textOutputIndex,
         item := some s.messageOutput }])
  else (s, [])

def doneReasoning : ResponsesStep := fun s =>
  if s.reasoningStarted ∧ s.reasoningDone = false then
    ({ s with reasoningDone := true },
      [{ type := .reasoningSummaryDone, outputIndex := some s.reasoningIndex, summaryIndex := some 0
         itemID := s.reasoningID, part := some { type := .summaryText, text := s.reasoning } },
       { type := .outputItemDone, outputIndex := some s.reasoningIndex
         item := some s.reasoningOutput }])
  else (s, [])

def doneTool (chatIndex : Int) : ResponsesStep := fun s =>
  match s.toolsByIndex.lookup chatIndex with
  | none => (s, [])
  | some tool =>
    if tool.done then (s, [])
    else
      ({ s with toolsByIndex := s.toolsByIndex.insert chatIndex { tool with done := true } },
        [{ type := .functionArgsDone, outputIndex := some tool.outputIndex, itemID := tool.id },
         { type := .outputItemDone, outputIndex := some tool.outputIndex
           item := some (toolOutput tool s.status) }])

/-- The indices of the tool calls, in order. -/
def sortedTools : List Int := s.toolsByIndex.keys.insertionSort (· ≤ ·)

def doneTools : ResponsesStep := fun s =>
  (final doneTool s (sortedTools s), outputs doneTool s (sortedTools s))

def doneDeltaEvents : ResponsesStep := seq doneText (seq doneReasoning doneTools)

def closeItem : ChatToResponsesOutputRef → ResponsesStep
  | .message => doneText
  | .reasoning => doneReasoning
  | .tool toolIndex => doneTool toolIndex

/-- The order in which items are closed. -/
def closingOrder : List ChatToResponsesOutputRef :=
  .message :: .reasoning :: (sortedTools s).map .tool

theorem doneDeltaEvents_eq : doneDeltaEvents s = drive closeItem (closingOrder s) s := by
  have htools : ∀ s', s'.toolsByIndex = s.toolsByIndex → doneTools s' =
      drive closeItem ((sortedTools s).map .tool) s' := by
    intro s' hs'
    rw [drive_map, doneTools, sortedTools, hs']
    rfl
  -- closing text and reasoning leaves the tools as they are
  have hkept : (doneReasoning (doneText s).1).1.toolsByIndex = s.toolsByIndex := by
    have hreasoning : ∀ s, (doneReasoning s).1.toolsByIndex = s.toolsByIndex := by
      intro s
      unfold doneReasoning
      split <;> rfl
    rw [hreasoning]
    unfold doneText
    split <;> rfl
  rw [closingOrder, drive_cons, drive_cons, doneDeltaEvents]
  simp only [seq, closeItem, htools _ hkept]

/-- What is not changed by closing items. -/
def ChatToResponsesStreamState.outcome : Bool × ResponsesStatus × Option IncompleteDetails :=
  (s.finalized, s.status, s.incompleteDetails)

/-- The events with which items are closed. -/
def closingTypes : List ResponsesEventType :=
  [.outputTextDone, .reasoningSummaryDone, .functionArgsDone, .outputItemDone]

theorem closeItem_keeps (ref : ChatToResponsesOutputRef) (s : ChatToResponsesStreamState) :
    (closeItem ref s).1.outcome = s.outcome ∧ ∀ event ∈ (closeItem ref s).2,
      event.type ∈ closingTypes := by
  cases ref with
  | message =>
    simp only [closeItem, doneText]
    split <;> simp [outcome, closingTypes]
  | reasoning =>
    simp only [closeItem, doneReasoning]
    split <;> simp [outcome, closingTypes]
  | tool k =>
    simp only [closeItem, doneTool]
    split
    · simp
    · split <;> simp [outcome, closingTypes]

theorem doneDeltaEvents_keeps : (doneDeltaEvents s).1.outcome = s.outcome := by
  rw [doneDeltaEvents_eq]
  exact Run.exec_invariant (fun s' ref h => (closeItem_keeps ref s').1.trans h) rfl (closingOrder s)

theorem doneDeltaEvents_emits : doneDeltaEvents.Emits fun event => event.type ∈ closingTypes := by
  intro s
  rw [doneDeltaEvents_eq]
  exact mem_outputs (fun ref s' => (closeItem_keeps ref s').2) s (closingOrder s)

def applyFinishReason (finishReason : String) (s : ChatToResponsesStreamState) :
    ChatToResponsesStreamState :=
  let (status, incompleteDetails) := responsesStatusFromChatFinishReason finishReason
  { s with status, incompleteDetails }

theorem applyFinishReason_eq (finishReason : String) :
    applyFinishReason finishReason s =
      { s with
        status := (responsesStatusFromChatFinishReason finishReason).1
        incompleteDetails := (responsesStatusFromChatFinishReason finishReason).2 } := by
  simp only [applyFinishReason]

def outputOf : ChatToResponsesOutputRef → Option ResponsesOutput
  | .message => some s.messageOutput
  | .reasoning => some s.reasoningOutput
  | .tool toolIndex => (s.toolsByIndex.lookup toolIndex).map (toolOutput · s.status)

def finalResponse : OpenAIResponsesResponse :=
  { id := s.id
    object := "response"
    createdAt := s.created
    status := .str s.status.text
    incompleteDetails := s.incompleteDetails
    model := s.model
    output := s.outputOrder.filterMap (outputOf s)
    usage := some s.usage }

def createdResponse : OpenAIResponsesResponse :=
  { id := s.id
    object := "response"
    createdAt := s.created
    status := .str "in_progress"
    model := s.model }

/-! ### Chunks -/

def ensureCreated : ResponsesStep := fun s =>
  if s.sentCreated then (s, [])
  else
    ({ s with sentCreated := true }, [{ type := .created, response := some (createdResponse s) }])

def appendToolCalls (toolCalls : List ToolCallResponse) : ResponsesStep := fun s =>
  (final appendToolCallDelta s toolCalls, outputs appendToolCallDelta s toolCalls)

def finishAnswer (finishReason : Option String) : ResponsesStep :=
  match finishReason with
  | none => .emit []
  | some finishReason =>
    if trimSpace finishReason ≠ "" then
      seq (.modify (applyFinishReason finishReason)) doneDeltaEvents
    else .emit []

def appendChoice (choice : ChatStreamChoice) : ResponsesStep :=
  seq
    (if choice.delta.getReasoningContent ≠ "" then
      appendReasoningDelta choice.delta.getReasoningContent else .emit [])
    (seq
      (if choice.delta.getContentString ≠ "" then
        appendTextDelta choice.delta.getContentString else .emit [])
      (seq (appendToolCalls choice.delta.toolCalls) (finishAnswer choice.finishReason)))

variable (chunk : ChatCompletionsStreamResponse)

def applyChunkMetadata (s : ChatToResponsesStreamState) :
    ChatToResponsesStreamState :=
  { s with
    id := if s.id = "" then chunk.id else s.id
    model := if s.model = "" then chunk.model else s.model
    created := if s.created = 0 then chunk.created else s.created
    usage := if chunk.usage.isSome then usageFromChatUsage chunk.usage else s.usage }

/-- One chunk.  No step of it fails. -/
def chatCompletionsStreamChunkToResponsesEvents : ResponsesStep :=
  seq (.modify (applyChunkMetadata chunk)) (seq ensureCreated fun s =>
      (final appendChoice s chunk.choices, outputs appendChoice s chunk.choices))

def finalizeChatCompletionsStreamToResponses : ResponsesStep := fun s =>
  if s.finalized then (s, [])
  else
    seq doneDeltaEvents (seq (.modify fun s => { s with finalized := true }) (.emitFrom fun s =>
          [{ type := if s.status = .incomplete then .incomplete else .completed
             response := some (finalResponse s) }])) s

/-- All events of a chat stream, the end included. -/
def responsesEventsOf (chunks : List ChatCompletionsStreamResponse) :
    List ResponsesStreamResponse :=
  outputs chatCompletionsStreamChunkToResponsesEvents s chunks ++
    (finalizeChatCompletionsStreamToResponses
      (final chatCompletionsStreamChunkToResponsesEvents s chunks)).2

/-- The last event. -/
def terminal : ResponsesStep :=
  seq (.modify fun s => { s with finalized := true }) (.emitFrom fun s =>
      [{ type := if s.status = .incomplete then .incomplete else .completed
         response := some (finalResponse s) }])

theorem finalize_eq {s : ChatToResponsesStreamState} (hopen : s.finalized = false) :
    finalizeChatCompletionsStreamToResponses s = doneDeltaEvents.seq terminal s := by
  rw [finalizeChatCompletionsStreamToResponses, if_neg (by simp [hopen])]
  rfl
