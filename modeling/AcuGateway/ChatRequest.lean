/-
The messages of chat requests.

A message has a text or parts, an assistant's message the calls of tools as well, and a message
of the role `tool` is the result of a call.
-/
import Mathlib.Tactic.Common

inductive ChatRole
  | system
  | developer
  | user
  | assistant
  | tool
  | function
  | other (name : String)
deriving DecidableEq

/-- A part of a content. -/
inductive MediaContent
  | text (text : String)
  | imageUrl (url : String)
  | inputAudio (data format : String)
  | file (fileId fileName fileData : String)
  | videoUrl (url : String)
deriving DecidableEq

inductive MessageContent
  | null
  | text (text : String)
  | parts (parts : List MediaContent)
deriving DecidableEq

structure ToolCallRequest where
  id : String
  name : String
  arguments : String
deriving DecidableEq

/-- A message of a chat request.  Calls that do not parse are no calls. -/
structure Message where
  role : ChatRole
  content : MessageContent := .null
  name : Option String := none
  toolCalls : Option (List ToolCallRequest) := none
  toolCallId : String := ""
deriving DecidableEq

namespace Message

variable (message : Message)

/-- The texts of a content. -/
def stringContent : String :=
  match message.content with
  | .null => ""
  | .text text => text
  | .parts parts => String.join (parts.map fun
    | .text text => text
    | _ => "")

def parseContent : List MediaContent :=
  match message.content with
  | .null => []
  | .text text => [.text text]
  | .parts parts => parts

def parseToolCalls : List ToolCallRequest := message.toolCalls.getD []

end Message
