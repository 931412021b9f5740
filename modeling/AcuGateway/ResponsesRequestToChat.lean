/-
From the input items of a Responses request to the messages of a chat request.

Items are folded into a list of messages.  Calls of tools go to the last message if that is an
assistant's, outputs of functions become messages of the role `tool`, and whatever is left is taken
for a message.

* `responsesInputItemToChatMessages` — one item;
* `itemTurns`, `chatTurns`, `Shows` — the turns of a conversation, before and after;
* `Kept` — when an item is shown as the turn that it is;
* `turns_kept_iff` — exactly then all turns are kept;
* `custom_output_becomes_user` — the output of a custom tool, shown as an empty message of the user.
-/
import AcuGateway.Lib.Align
import AcuGateway.Lib.Json
import AcuGateway.Lib.Outcome
import AcuGateway.Lib.Text

open List Outcome

namespace ResponsesRequestToChat

open Text (trimSpace)

/-! ### Requests and messages -/

inductive ItemType
  | functionCall
  | customToolCall
  | functionCallOutput
  | customToolCallOutput
  | reasoning
  | message
  | other (name : String)

/-- A field that may hold any JSON. -/
inductive Field
  | missing
  | text (text : String)
  | other (value : Json)

inductive Part
  | text (text : String)
  | other (part : Json)

inductive Content
  | missing
  | text (text : String)
  | parts (parts : List Part)
  | other (value : Json)

/-- An item of the input, with the fields that are read; a text that is missing is empty. -/
structure InputItem where
  type : ItemType
  role : String := ""
  content : Content := .missing
  id : String := ""
  callId : String := ""
  name : String := ""
  arguments : Field := .missing
  input : Field := .missing
  output : Field := .missing

def Field.value? : Field → Option Json
  | .other value => some value
  | _ => none

def Part.value? : Part → Option Json
  | .other part => some part
  | .text _ => none

def Content.values : Content → List Json
  | .parts all => all.filterMap Part.value?
  | .other value => [value]
  | _ => []

/-- What is no text in an item. -/
def InputItem.values (item : InputItem) : List Json :=
  item.content.values ++ [item.arguments, item.input, item.output].filterMap Field.value?

/-- The numbers of an item are in the range of floats. -/
def InputItem.InRange (item : InputItem) : Prop := ∀ v ∈ item.values, v.InRange
deriving Decidable

inductive ToolCallType
  | function
  | custom
deriving DecidableEq

structure ToolCall where
  id : String
  type : ToolCallType
  name : String
  arguments : JsonText

inductive ChatContent
  | missing
  | text (text : JsonText)
  | parts (parts : List Part)
  | other (value : Json)

structure ChatMessage where
  role : String
  content : ChatContent := .missing
  toolCalls : List ToolCall := []
  toolCallId : String := ""

-- the part of a chat message for a part that is no text
variable (partToChat : Json → Json)

/-! ### The conversion -/

/-- A field in memory. -/
def Field.decode : Field → Field
  | .other value => .other value.decode
  | field => field

def Part.decode : Part → Part
  | .other part => .other part.decode
  | part => part

def Content.decode : Content → Content
  | .parts all => .parts (all.map Part.decode)
  | .other value => .other value.decode
  | content => content

/-- An item as it is decoded into a map. -/
def InputItem.decode (item : InputItem) : InputItem :=
  { item with
    content := item.content.decode
    arguments := item.arguments.decode
    input := item.input.decode
    output := item.output.decode }

def partText : Part → String
  | .text text => text
  | .other _ => ""

def isText : Part → Bool
  | .text _ => true
  | .other _ => false

variable (item : InputItem)

variable (messages : List ChatMessage)

variable (request : OpenAIResponsesRequest)

inductive Turn
  | message (role text : String)
  | call (id name : String) (arguments : Field)
  | output (id : String) (output : Field)

inductive ChatTurn
  | said (role : String) (content : ChatContent) (toolCallId : String)
  | called (role : String) (call : ToolCall)

/-- The text stands for what is in the field. -/
def Stands (field : Field) (text : JsonText) : Prop :=
  match field with
  | .missing => text = .plain ""
  | .text t => text = .plain t
  | .other value => text = .encoded value

/-- Which turn of a chat shows which turn. -/
inductive Shows : Turn → ChatTurn → Prop
  | message (role text : String) : Shows (.message role text) (.said role (.text (.plain text)) "")
  | call {id name : String} {arguments : JsonText} {type : ToolCallType} {field : Field}
    (h : Stands field arguments) :
    Shows (.call id name field) (.called "assistant" ⟨id, type, name, arguments⟩)
  | output {id : String} {text : JsonText} {field : Field} (h : Stands field text) :
    Shows (.output id field) (.said "tool" (.text text) id)

/-- The text of a content that is a text or has texts only. -/
def contentText? : Content → Option String
  | .missing => some ""
  | .text text => some text
  | .parts parts => if parts.all isText then some (String.join (parts.map partText)) else none
  | .other _ => none

/-- An item without a `call_id` is known by its `id`. -/
def givenCallId : String := if item.callId = "" then item.id else item.callId

variable (message : ChatMessage)

/-- An item of one of the six types, with texts only if it is a message.  The output of a
custom tool has no content of its own beside an output that is no text. -/
structure InScope (item : InputItem) : Prop where
  type : ∀ name, item.type ≠ .other name
  content : item.type = .message → contentText? item.content ≠ none
  output : item.type = .customToolCallOutput → item.content = .missing ∨ item.output.value? = none

/-- A field that is no text has numbers that stay what they are. -/
def FieldKept (field : Field) : Prop := ∀ value ∈ field.value?, value.NumbersKept
deriving Decidable

/-- Names and ids have no blanks around them, and the item is not one of the types that are taken
for messages of the user. -/
def Kept : Prop :=
  match item.type with
  | .functionCall =>
    trimSpace (givenCallId item) = givenCallId item ∧ trimSpace item.name = item.name ∧
      FieldKept item.arguments
  | .customToolCall =>
    trimSpace (givenCallId item) = givenCallId item ∧ trimSpace item.name = item.name ∧
      FieldKept item.input
  | .functionCallOutput => trimSpace item.callId = item.callId ∧ FieldKept item.output
  -- unless it has the form of a message of the role `tool` as well
  | .customToolCallOutput => trimSpace item.role = "tool" ∧ item.callId = "" ∧
    ∃ text, contentText? item.content = some text ∧ Stands item.output (.plain text)
  | .reasoning => False
  | .message => trimSpace item.role = item.role
  | .other _ => False

/-! ### What becomes of an item -/

variable {partToChat} {message : ChatMessage}

variable {messages}

variable {messages' : List ChatMessage}

variable {items : List InputItem}

variable {id' : String} {field : Field}

variable {role : String} {content : ChatContent}

end ResponsesRequestToChat
