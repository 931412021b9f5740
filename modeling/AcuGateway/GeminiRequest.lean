/-
The contents of Gemini requests.

A part has a text or data, or is the call of a function or the response to one; calls and responses
have no ids.
-/
import Mathlib.Tactic.Common

inductive GeminiRole
  | user
  | model
  | function
  | other (name : String)
deriving DecidableEq

structure GeminiBlob where
  mimeType : String
  data : String

/-- `α` are arguments and responses. -/
structure GeminiFunction (α : Type) where
  name : String
  payload : α

/-- A part of a content; a text that is missing is empty. -/
structure GeminiRequestPart (α : Type) where
  text : String := ""
  inlineData : Option GeminiBlob := none
  fileData : Option GeminiBlob := none
  functionCall : Option (GeminiFunction α) := none
  functionResponse : Option (GeminiFunction α) := none

structure GeminiContent (α : Type) where
  role : GeminiRole
  parts : List (GeminiRequestPart α)
