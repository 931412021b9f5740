/-
The streamed messages of two relay formats.

An OpenAI chat stream is a list of chunks, each with the deltas of its choices; a
Claude stream is a list of events, which open, fill and close numbered content
blocks.  The converters between the formats read and write these.
-/
import AcuGateway.Usage

open Text (lowerIs)

/-! ### OpenAI chat chunks -/

structure FunctionResponse where
  name : String := ""
  arguments : String := ""
deriving DecidableEq

structure ToolCallResponse where
  index : Option Int := none
  id : String := ""
  type : Option String := none
  function : FunctionResponse := {}
deriving DecidableEq

/-- What a chunk adds to a choice. -/
structure ChatStreamDelta where
  content : Option String := none
  reasoningContent : Option String := none
  reasoning : Option String := none
  role : String := ""
  toolCalls : List ToolCallResponse := []

namespace ChatStreamDelta

variable (delta : ChatStreamDelta)

def getContentString : String := delta.content.getD ""

/-- The reasoning text, under either of the two names that upstreams use for it. -/
def getReasoningContent : String := (delta.reasoningContent <|> delta.reasoning).getD ""

end ChatStreamDelta

structure ChatStreamChoice where
  delta : ChatStreamDelta := {}
  finishReason : Option String := none
  index : Int := 0

structure ChatCompletionsStreamResponse where
  id : String := ""
  object : String := ""
  created : Int := 0
  model : String := ""
  choices : List ChatStreamChoice := []
  usage : Option Usage := none

/-- A whole answer, in one message. -/
structure ChatMessage where
  role : String := ""
  content : String := ""
  reasoningContent : Option String := none
  toolCalls : List ToolCallResponse := []
deriving DecidableEq

structure OpenAITextResponseChoice where
  index : Int := 0
  message : ChatMessage := {}
  finishReason : String := ""
deriving DecidableEq

structure OpenAITextResponse where
  id : String := ""
  model : String := ""
  object : String := ""
  created : Int := 0
  choices : List OpenAITextResponseChoice := []
  usage : Usage := {}

/-! ### Claude events -/

inductive ClaudeEventType
  | messageStart
  | contentBlockStart
  | contentBlockDelta
  | contentBlockStop
  | messageDelta
  | messageStop
  | message
  | other
deriving DecidableEq

/-- The types of content blocks and of their deltas. -/
inductive ClaudeMediaType
  | text
  | thinking
  | toolUse
  | textDelta
  | thinkingDelta
  | inputJsonDelta
  | signatureDelta
  | message
  | other
deriving DecidableEq

structure ClaudeMediaMessage where
  type : ClaudeMediaType := .other
  text : Option String := none
  model : String := ""
  usage : Option ClaudeUsage := none
  stopReason : Option String := none
  partialJson : Option String := none
  role : String := ""
  thinking : Option String := none
  id : String := ""
  name : String := ""
  /-- the arguments of a tool, as they marshal -/
  input : String := ""

namespace ClaudeMediaMessage

def getText (m : ClaudeMediaMessage) : String := m.text.getD ""

end ClaudeMediaMessage

structure ClaudeResponse where
  id : String := ""
  type : ClaudeEventType
  content : List ClaudeMediaMessage := []
  stopReason : String := ""
  model : String := ""
  usage : Option ClaudeUsage := none
  index : Option Int := none
  contentBlock : Option ClaudeMediaMessage := none
  delta : Option ClaudeMediaMessage := none
  message : Option ClaudeMediaMessage := none

/-! ### Finish reasons -/

def claudeStopReasonToOpenAIFinishReason (stopReason : String) : String :=
  if lowerIs stopReason "stop_sequence" || lowerIs stopReason "end_turn" then "stop"
  else if lowerIs stopReason "max_tokens" then "length"
  else if lowerIs stopReason "tool_use" then "tool_calls"
  else if lowerIs stopReason "refusal" then "content_filter"
  else stopReason

def openAIFinishReasonToClaudeStopReason (finishReason : String) : String :=
  if lowerIs finishReason "stop" then "end_turn"
  else if lowerIs finishReason "stop_sequence" then "stop_sequence"
  else if lowerIs finishReason "length" || lowerIs finishReason "max_tokens" then "max_tokens"
  else if lowerIs finishReason "content_filter" then "refusal"
  else if lowerIs finishReason "tool_calls" then "tool_use"
  else finishReason
