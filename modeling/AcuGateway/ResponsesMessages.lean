/-
The OpenAI Responses format.

A response is a list of output items: messages, reasoning and tool calls.  Streamed, it is
a list of events, which announce the items, fill them and end with the whole response.
-/
import AcuGateway.RelayMessages

open Text (trimSpace)

/-! ### Responses -/

/-- A JSON value that is kept as it came. -/
inductive RawMessage
  | absent
  | null
  | str (value : String)
  /-- an object, an array, a number or a truth value, as text -/
  | other (text : String)
deriving DecidableEq

/-- Strings as their decoded value, other JSON values as raw text. -/
def jsonRawMessageToString : RawMessage → String
  | .absent => ""
  | .null => ""
  | .str value => value
  | .other text => text

inductive ResponsesOutputType
  | functionCall
  | customToolCall
  | message
  | reasoning
  | other
deriving DecidableEq

def isResponsesToolOutputType (outputType : ResponsesOutputType) : Bool :=
  outputType = .functionCall || outputType = .customToolCall

inductive ResponsesContentType
  | outputText
  | summaryText
  | other
deriving DecidableEq

structure ResponsesOutputContent where
  type : ResponsesContentType
  text : String := ""

/-- An output item. -/
structure ResponsesOutput where
  type : ResponsesOutputType
  id : String := ""
  status : String := ""
  role : String := ""
  content : List ResponsesOutputContent := []
  callId : String := ""
  name : String := ""
  arguments : RawMessage := .absent

def ResponsesOutput.argumentsString (out : ResponsesOutput) : String :=
  jsonRawMessageToString out.arguments

structure IncompleteDetails where
  reason : String := ""
deriving DecidableEq

structure OpenAIResponsesResponse where
  id : String := ""
  object : String := ""
  createdAt : Int := 0
  status : RawMessage := .absent
  incompleteDetails : Option IncompleteDetails := none
  model : String := ""
  output : List ResponsesOutput := []
  usage : Option Usage := none

/-- The status, if it is a string. -/
def responseStatusString (resp : OpenAIResponsesResponse) : String :=
  match resp.status with
  | .str status => trimSpace status
  | _ => ""

variable (resp : Option OpenAIResponsesResponse)

def ensureIncompleteResponse : OpenAIResponsesResponse :=
  let resp := resp.getD {}
  if resp.status = .absent then { resp with status := .str "incomplete" } else resp

/-- The finish reason of an incomplete response. -/
def responsesFinishReasonFromStatus : Option String :=
  match resp with
  | none => none
  | some resp =>
    if responseStatusString resp ≠ "incomplete" then none
    else
      let reason := trimSpace ((resp.incompleteDetails.map IncompleteDetails.reason).getD "")
      some (if reason = "content_filter" then "content_filter" else "length")

variable {resp : OpenAIResponsesResponse}

theorem responsesFinishReasonFromStatus_incomplete (h : responseStatusString resp = "incomplete") :
    responsesFinishReasonFromStatus (some resp) =
      some (if trimSpace ((resp.incompleteDetails.map IncompleteDetails.reason).getD "") =
        "content_filter"
        then "content_filter" else "length") := by
  simp [responsesFinishReasonFromStatus, h]

theorem responsesFinishReasonFromStatus_other (h : responseStatusString resp ≠ "incomplete") :
    responsesFinishReasonFromStatus (some resp) = none := if_pos h

/-! ### Events -/

inductive ResponsesEventType
  | created
  | completed
  | done
  | incomplete
  | failed
  | error
  | outputTextDelta
  | outputTextDone
  | outputItemAdded
  | outputItemDone
  | functionArgsDelta
  | functionArgsDone
  | customToolInputDelta
  | customToolInputDone
  | reasoningSummaryDelta
  | reasoningSummaryDone
  | reasoningTextDelta
  | reasoningTextDone
  | other
deriving DecidableEq

structure ResponsesReasoningSummaryPart where
  type : ResponsesContentType
  text : String := ""

structure ResponsesStreamResponse where
  type : ResponsesEventType := .other
  response : Option OpenAIResponsesResponse := none
  delta : String := ""
  item : Option ResponsesOutput := none
  outputIndex : Option Int := none
  contentIndex : Option Int := none
  summaryIndex : Option Int := none
  itemID : String := ""
  part : Option ResponsesReasoningSummaryPart := none

/-- The id of the item that an event is about. -/
def responseStreamEventItemID (event : ResponsesStreamResponse) : String :=
  match event.item with
  | some item => if trimSpace item.id ≠ "" then trimSpace item.id else trimSpace event.itemID
  | none => trimSpace event.itemID
