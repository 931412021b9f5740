/-
OpenAI chat chunks as Claude events.

The converter keeps which kind of content block is open and how blocks are numbered.
Text and thinking open one block at a time; the tool calls of a run of tool chunks are
open together, numbered from a base by the index of the call.

* `streamResponseOpenAI2Claude` — one chunk;
* `convertCall`, `claudeEvents` — a stream, with the chunks counted from one.
-/
import AcuGateway.Lib.Transducer
import AcuGateway.RelayMessages

/-! ### The state of a conversion -/

/-- The kind of content block that was written last. -/
inductive LastMessageType
  | none
  | text
  | tools
  | thinking
deriving DecidableEq

structure ClaudeConvertInfo where
  lastMessagesType : LastMessageType := .none
  index : Int := 0
  usage : Option Usage := none
  finishReason : String := ""
  done : Bool := false
  toolCallBaseIndex : Int := 0
  toolCallMaxIndexOffset : Int := 0

/-- A part of the conversion: it changes the state and emits events. -/
abbrev Conversion := Emitter ClaudeConvertInfo ClaudeResponse

/-! ### Closing -/

def generateStopBlock (index : Int) : ClaudeResponse :=
  { type := .contentBlockStop, index := some index }

variable (info : ClaudeConvertInfo)

/-- The stops of the blocks that are open. -/
def stopEvents : List ClaudeResponse :=
  match info.lastMessagesType with
  | .none => []
  | .text => [generateStopBlock info.index]
  | .thinking => [generateStopBlock info.index]
  | .tools =>
    (List.range (info.toolCallMaxIndexOffset + 1).toNat).map fun offset : Nat =>
      generateStopBlock (info.toolCallBaseIndex + offset)

def stopOpenBlocks : Conversion := fun info => (info, stopEvents info)

/-- The state with all blocks closed, and the next number to use. -/
def advance : ClaudeConvertInfo :=
  match info.lastMessagesType with
  | .none => info
  | .tools =>
    { info with
      index := info.toolCallBaseIndex + info.toolCallMaxIndexOffset + 1
      toolCallBaseIndex := 0
      toolCallMaxIndexOffset := 0
      lastMessagesType := .none }
  | _ => { info with index := info.index + 1, lastMessagesType := .none }

def stopOpenBlocksAndAdvance : Conversion := stopOpenBlocks.seq (.modify advance)

/-! ### Usage -/

def buildClaudeUsageFromOpenAIUsage (oaiUsage : Usage) : ClaudeUsage :=
  let reported := oaiUsage.billingUsage.bind fun b =>
    if b.source = "claude_messages" ∨ b.semantic = "anthropic" then b.claudeUsage else none
  match reported with
  | some claudeUsage => claudeUsage
  | none =>
    let split := normalizeCacheCreationSplit oaiUsage.promptTokensDetails.cachedCreationTokens
      oaiUsage.claudeCacheCreation5mTokens oaiUsage.claudeCacheCreation1hTokens
    let cacheCreationTokens := oaiUsage.promptTokensDetails.cacheCreationTokensTotal
    { inputTokens :=
        if 0 < oaiUsage.promptTokensDetails.cacheWriteTokens then
          max (wrap64 (wrap64 (oaiUsage.promptTokens -
            oaiUsage.promptTokensDetails.cachedTokens) - cacheCreationTokens)) 0
        else oaiUsage.promptTokens
      outputTokens := oaiUsage.completionTokens
      cacheCreationInputTokens := cacheCreationTokens
      cacheReadInputTokens := oaiUsage.promptTokensDetails.cachedTokens
      cacheCreation := if 0 < split.1 ∨ 0 < split.2 then some ⟨split.1, split.2⟩ else none }

def messageDeltaEvent (oaiUsage : Usage) (stopReason : String) : ClaudeResponse :=
  { type := .messageDelta
    usage := some (buildClaudeUsageFromOpenAIUsage oaiUsage)
    delta := some { stopReason := some stopReason } }

/-- The end of the message: the open blocks are closed, the usage is reported if there is one. -/
def closeMessage (oaiUsage : Option Usage) (stopReason : String) : Conversion :=
  stopOpenBlocks.seq <|
  (Emitter.emit
    ((oaiUsage.map (messageDeltaEvent · stopReason)).toList ++ [{ type := .messageStop }])).seq
  (.modify fun info => { info with done := true })

variable (response : ChatCompletionsStreamResponse)

/-- The usage of the chunk, or the one the caller has put into the state. -/
def availableUsage (info : ClaudeConvertInfo) : Option Usage := response.usage <|> info.usage

variable (choice : ChatStreamChoice)

/-- The finish reason of a choice that is finished. -/
def ChatStreamChoice.finished? : Option String := choice.finishReason.filter (· ≠ "")

/-- The end of a message on a finish reason. -/
def finishMessage (finishReason : String) : Conversion :=
  fun info => closeMessage (availableUsage response info)
    (openAIFinishReasonToClaudeStopReason finishReason) { info with finishReason }

/-! ### Content -/

/-- Text and thinking are streamed alike, in blocks and deltas of their own types. -/
inductive TextKind
  | text
  | thinking
deriving DecidableEq

namespace TextKind

def lastType : TextKind → LastMessageType
  | text => .text
  | thinking => .thinking

def blockType : TextKind → ClaudeMediaType
  | text => .text
  | thinking => .thinking

def opened : TextKind → ClaudeMediaMessage
  | text => { type := .text, text := some "" }
  | thinking => { type := .thinking, thinking := some "" }

def delta : TextKind → String → ClaudeMediaMessage
  | text, s => { type := .textDelta, text := some s }
  | thinking, s => { type := .thinkingDelta, thinking := some s }

end TextKind

/-- The text or thinking of a chunk; thinking comes first, and then the text is not read. -/
def ChatStreamDelta.written? (delta : ChatStreamDelta) : Option (TextKind × String) :=
  if delta.getReasoningContent ≠ "" then some (.thinking, delta.getReasoningContent)
  else if delta.getContentString ≠ "" then some (.text, delta.getContentString)
  else none

variable (index : Int)

def startBlock (block : ClaudeMediaMessage) : ClaudeResponse :=
  { type := .contentBlockStart, index := some index, contentBlock := some block }

def deltaBlock (delta : ClaudeMediaMessage) : ClaudeResponse :=
  { type := .contentBlockDelta, index := some index, delta := some delta }

/-- Close what is open, unless it is of the kind that goes on. -/
def switchTo (last : LastMessageType) : Conversion :=
  fun info => if info.lastMessagesType = last then (info, []) else stopOpenBlocksAndAdvance info

/-- Text in the first chunk always opens a block. -/
def firstText (kind : TextKind) (s : String) : Conversion :=
  (switchTo kind.lastType).seq fun info =>
    ({ info with lastMessagesType := kind.lastType },
      [startBlock info.index kind.opened, deltaBlock info.index (kind.delta s)])

/-- Text in a later chunk goes on in the open block, if that is of its kind. -/
def laterText (kind : TextKind) (s : String) : Conversion := fun info =>
  let opened := (switchTo kind.lastType).seq (fun info' =>
    ({ info' with lastMessagesType := kind.lastType },
      if info.lastMessagesType = kind.lastType then [] else [startBlock info'.index kind.opened]))
  opened.seq (fun info' => (info', [deltaBlock info'.index (kind.delta s)])) info

variable (call : ToolCallResponse)

def toolBlock : ClaudeMediaMessage :=
  { type := .toolUse, id := call.id, name := call.function.name, input := "\x7b\x7d" }

def jsonDelta (arguments : String) : ClaudeMediaMessage :=
  { type := .inputJsonDelta, partialJson := some arguments }

/-- The fragment of a call, if it has one. -/
def jsonEvents : List ClaudeResponse :=
  if call.function.arguments ≠ "" then
    [deltaBlock index (jsonDelta call.function.arguments)] else []

/-- The first chunk opens a block for the first call that it has. -/
def firstTool : Conversion := fun info =>
  ({ info with
      lastMessagesType := .tools
      toolCallBaseIndex := 0
      toolCallMaxIndexOffset := 0 },
    startBlock 0 (toolBlock call) :: jsonEvents 0 call)

/-- The number of a call among the calls of a run: its index, or else its place in the chunk. -/
def toolOffset (place : Nat) (call : ToolCallResponse) : Int := call.index.getD place

/-- A call of a later chunk: one with a name opens its block. -/
def toolEvents (base : Int) (offset : Int) (call : ToolCallResponse) : List ClaudeResponse :=
  (if call.function.name ≠ "" then [startBlock (base + offset) (toolBlock call)] else []) ++
  jsonEvents (base + offset) call

/-- The calls of a chunk, from place `place` on. -/
def laterCalls (base : Int) : Nat → List ToolCallResponse → List ClaudeResponse
  | _, [] => []
  | place, call :: calls =>
    toolEvents base (toolOffset place call) call ++ laterCalls base (place + 1) calls

/-- The greatest number of a call so far. -/
def maxOffset : Int → Nat → List ToolCallResponse → Int
  | greatest, _, [] => greatest
  | greatest, place, call :: calls =>
    maxOffset (if greatest < toolOffset place call then toolOffset place call else greatest)
      (place + 1) calls

/-- A run of tool chunks begins after what was open, or goes on. -/
def switchToTools : Conversion := fun info =>
  if info.lastMessagesType = .tools then (info, [])
  else stopOpenBlocksAndAdvance.seq (.modify fun info' =>
    { info' with toolCallBaseIndex := info'.index, toolCallMaxIndexOffset := 0 }) info

def laterTools (calls : List ToolCallResponse) : Conversion :=
  switchToTools.seq fun info =>
    let greatest := maxOffset info.toolCallMaxIndexOffset 0 calls
    ({ info with
        lastMessagesType := .tools
        toolCallMaxIndexOffset := greatest
        index := info.toolCallBaseIndex + greatest },
      laterCalls info.toolCallBaseIndex 0 calls)

/-! ### Chunks -/

variable (estimatePromptTokens : Int)

def messageStartEvent (response : ChatCompletionsStreamResponse) : ClaudeResponse :=
  { type := .messageStart
    message := some
      { id := response.id, model := response.model, type := .message, role := "assistant"
        usage := some { inputTokens := estimatePromptTokens } } }

def skip : Conversion := .emit []

def firstCalls : List ToolCallResponse → Conversion
  | [] => skip
  | call :: _ => firstTool call

variable (delta : ChatStreamDelta)

def firstWritten : Conversion :=
  match delta.written? with
  | none => skip
  | some (kind, s) => firstText kind s

def finishChoice : Conversion :=
  match choice.finished? with
  | none => skip
  | some finishReason => finishMessage response finishReason

/-- The first chunk: calls, then text, then the end, as far as there are any. -/
def firstChoice : Conversion :=
  (firstCalls choice.delta.toolCalls).seq <|
  (firstWritten choice.delta).seq (finishChoice response choice)

/-- A later chunk has calls or text; next to calls, text is not read. -/
def laterContent : Conversion :=
  match delta.toolCalls with
  | [] =>
    match delta.written? with
    | none => skip
    | some (kind, s) => laterText kind s
  | calls => laterTools calls

def laterChoice : Conversion := (laterContent choice.delta).seq (finishChoice response choice)

/-- A chunk without a choice ends the message if there is a usage. -/
def usageOnly : Conversion := fun info =>
  match availableUsage response info with
  | none => (info, [])
  | some oaiUsage =>
    let stopReason := openAIFinishReasonToClaudeStopReason info.finishReason
    closeMessage (some oaiUsage) (if stopReason = "" then "end_turn" else stopReason) info

def streamResponseOpenAI2Claude (sendResponseCount : Nat)
    (response : ChatCompletionsStreamResponse) : Conversion := fun info =>
  if info.done then (info, [])
  else if sendResponseCount = 1 then
    (Emitter.emit [messageStartEvent estimatePromptTokens response]).seq
      (match response.choices with
        | [] => skip
        | choice :: _ => firstChoice response choice) info
  else
    match response.choices with
    | [] => usageOnly response info
    | choice :: _ =>
      -- the end waits for the usage, in a chunk of its own
      match choice.finished?, response.usage with
      | some finishReason, none => ({ info with finishReason }, [])
      | _, _ => laterChoice response choice info

/-! ### Streams -/

/-- One call of the converter: the chunk, and the usage that the caller has put into the
state of the conversion by then. -/
structure ConvertCall where
  chunk : ChatCompletionsStreamResponse
  usage : Option Usage := none

/-- The number of chunks so far, and the state of the conversion. -/
structure ConvertState where
  sendResponseCount : Nat := 0
  info : ClaudeConvertInfo := {}

def convertCall (call : ConvertCall) : Emitter ConvertState ClaudeResponse := fun s =>
  let result := streamResponseOpenAI2Claude estimatePromptTokens (s.sendResponseCount + 1)
    call.chunk
    { s.info with usage := call.usage }
  ({ sendResponseCount := s.sendResponseCount + 1, info := result.1 }, result.2)

/-- The events for a stream of chunks. -/
def claudeEvents (calls : List ConvertCall) : List ClaudeResponse :=
  Transducer.outputs (convertCall estimatePromptTokens) {} calls
