/-
The answers of Gemini as chat answers.

Every candidate of a response becomes a choice.  The loop remembers that a tool was called, but it
remembers it for the whole response: once a candidate has called a tool, all choices after it end in
`tool_calls`.

* `responseGeminiChat2OpenAI` — the conversion;
* `candidate_alone_iff` — the candidates are converted on their own when none without a call comes
  after one with a call.
-/
import AcuGateway.RelayMessages

open List Option

/-- Inline data is given by its mime type and its content, a function call by its name and its
arguments, if they can be marshalled. -/
structure GeminiAnswerPart where
  text : String := ""
  thought : Bool := false
  inlineData : Option (String × String) := none
  functionCall : Option (String × Option String) := none
  executableCode : Option (String × String) := none
  codeExecutionResult : Option String := none

structure GeminiChatCandidate where
  parts : List GeminiAnswerPart := []
  finishReason : Option String := none
  index : Int := 0

/-- A message as it is built; `writeSep` puts a line break between the pieces of its content. -/
structure GeminiMessage where
  pieces : List String := []
  reasoningContent : Option String := none
  toolCalls : List ToolCallResponse := []
  finishReason : String := "stop"

/-- Without the generated id. -/
def geminiResponseToolCall (call : String × Option String) : Option ToolCallResponse :=
  call.2.map fun arguments => { type := some "function", function := { name := call.1, arguments } }

namespace GeminiMessage

variable (m : GeminiMessage)

def write (piece : String) : GeminiMessage := { m with pieces := m.pieces ++ [piece] }

def content : String := "\n".intercalate m.pieces

def addPart (part : GeminiAnswerPart) : GeminiMessage :=
  match part.inlineData, part.functionCall with
  | some (mimeType, data), _ =>
    m.write
      ((if "image".toList.isPrefixOf mimeType.toList then "![image]" else "[media]") ++
        "(data:" ++ mimeType ++ ";base64," ++ data ++ ")")
  | none, some call =>
    { m with
      toolCalls := m.toolCalls ++ (geminiResponseToolCall call).toList
      finishReason := "tool_calls" }
  | none, none =>
    if part.thought then { m with reasoningContent := some part.text }
    else match part.executableCode, part.codeExecutionResult with
      | some (language, code), _ => m.write ("```" ++ language ++ "\n" ++ code ++ "\n```")
      | none, some output => m.write ("```output\n" ++ output ++ "\n```")
      | none, none => if part.text = "\n" then m else m.write part.text

end GeminiMessage

/-- The reasons that the source lists by name are treated like all the others. -/
def geminiFinishReason (finishReason : String) : String :=
  if finishReason = "STOP" then "stop" else if finishReason = "MAX_TOKENS" then "length"
  else "content_filter"

namespace GeminiChatCandidate

def message (c : GeminiChatCandidate) : GeminiMessage := c.parts.foldl .addPart {}

def choice (isToolCall : Bool) (c : GeminiChatCandidate) : OpenAITextResponseChoice where
  index := c.index
  message :=
    { role := "assistant", content := c.message.content,
      reasoningContent := c.message.reasoningContent, toolCalls := c.message.toolCalls }
  finishReason :=
    if isToolCall then "tool_calls"
    else (c.finishReason.map geminiFinishReason).getD c.message.finishReason

/-- The loop over the candidates, with the flag that is declared before it. -/
def choices : Bool → List GeminiChatCandidate → List OpenAITextResponseChoice
  | _, [] => []
  | isToolCall, c :: cs =>
    let isToolCall := isToolCall || !c.message.toolCalls.isEmpty
    c.choice isToolCall :: choices isToolCall cs

end GeminiChatCandidate

def responseGeminiChat2OpenAI (id : String) (created : Int)
    (candidates : List GeminiChatCandidate) :
    OpenAITextResponse where
  id := id
  object := "chat.completion"
  created := created
  choices := GeminiChatCandidate.choices false candidates

/-! ### Candidates on their own -/

def GeminiAnswerPart.call (part : GeminiAnswerPart) : Option (String × Option String) :=
  if part.inlineData.isNone then part.functionCall else none

theorem GeminiMessage.addPart_toolCalls (m : GeminiMessage) (part : GeminiAnswerPart) :
    (m.addPart part).toolCalls = m.toolCalls ++ (part.call.bind geminiResponseToolCall).toList ∧
      (m.addPart part).finishReason = if part.call.isSome then "tool_calls"
        else m.finishReason := by
  unfold addPart GeminiAnswerPart.call write
  repeat' split
  all_goals simp_all

theorem GeminiMessage.foldl_toolCalls (parts : List GeminiAnswerPart) (m : GeminiMessage) :
    (parts.foldl addPart m).toolCalls =
        m.toolCalls ++ parts.flatMap (fun part => (part.call.bind geminiResponseToolCall).toList) ∧
      (parts.foldl addPart m).finishReason =
        if parts.any (·.call.isSome) then "tool_calls" else m.finishReason := by
  induction parts generalizing m with
  | nil => simp
  | cons part parts ih =>
    obtain ⟨hcalls, hreason⟩ := m.addPart_toolCalls part
    obtain ⟨hcalls', hreason'⟩ := ih (m.addPart part)
    rw [foldl_cons, hcalls', hreason', hcalls, hreason, any_cons, flatMap_cons, append_assoc]
    refine ⟨rfl, ?_⟩
    cases part.call.isSome <;> simp

namespace GeminiChatCandidate

variable (c : GeminiChatCandidate)

/-- It calls a function, with arguments that can be marshalled. -/
def CallsTool : Prop :=
  ∃ part ∈ c.parts, (part.call.bind geminiResponseToolCall).isSome deriving Decidable

/-- A call that is lost is enough if Gemini gives no reason of its own. -/
def EndsInCall : Prop :=
  c.CallsTool ∨ c.finishReason = none ∧ ∃ part ∈ c.parts, part.call.isSome deriving Decidable

variable (c : GeminiChatCandidate) (cs : List GeminiChatCandidate)

theorem callsTool_iff : (!c.message.toolCalls.isEmpty) = true ↔ c.CallsTool := by
  rw [message, (GeminiMessage.foldl_toolCalls c.parts {}).1, CallsTool]
  simp [isSome_iff_ne_none]

theorem geminiFinishReason_ne (finishReason : String) :
    geminiFinishReason finishReason ≠ "tool_calls" := by
  unfold geminiFinishReason
  repeat' split
  all_goals decide

theorem choice_eq_iff : c.choice true = c.choice (!c.message.toolCalls.isEmpty) ↔ c.EndsInCall := by
  have hreason : c.message.finishReason = if c.parts.any (·.call.isSome) then "tool_calls"
      else "stop" :=
    (GeminiMessage.foldl_toolCalls c.parts {}).2
  rw [EndsInCall, ← callsTool_iff]
  cases !c.message.toolCalls.isEmpty with
  | true => simp
  | false =>
    cases hf : c.finishReason with
    | some reason => simpa [choice, hf] using (geminiFinishReason_ne reason).symm
    | none => simp [choice, hf, hreason, isSome_iff_ne_none]

theorem choices_eq_map_iff (seen : Bool) :
    choices seen cs = cs.map (fun c => c.choice (!c.message.toolCalls.isEmpty)) ↔
      (seen → ∀ c ∈ cs, c.EndsInCall) ∧ cs.Pairwise fun a b => a.CallsTool → b.EndsInCall := by
  induction cs generalizing seen with
  | nil => simp [choices]
  | cons c cs ih =>
    rw [choices, map_cons, cons.injEq, ih, pairwise_cons, forall_mem_cons, Bool.or_eq_true,
      callsTool_iff]
    -- a call of an earlier candidate changes the reason of this one
    have hhead : c.choice (seen || !c.message.toolCalls.isEmpty) =
        c.choice (!c.message.toolCalls.isEmpty) ↔ (seen → c.EndsInCall) := by
      cases seen with
      | true => simpa using c.choice_eq_iff
      | false => simp
    rw [hhead]
    constructor
    · rintro ⟨hown, hrest, hlater⟩
      exact ⟨fun hseen => ⟨hown hseen, hrest (.inl hseen)⟩,
        fun b hb hcalls => hrest (.inr hcalls) b hb, hlater⟩
    · rintro ⟨hseen, hcalls, hlater⟩
      exact ⟨fun h => (hseen h).1, fun h b hb => h.elim (fun h => (hseen h).2 b hb) fun h =>
        hcalls b hb h, hlater⟩

/-- A choice is what its candidate alone gives, unless a candidate without a call comes after one
with a call. -/
theorem candidate_alone_iff (id : String) (created : Int) :
    (∀ i : Nat, (responseGeminiChat2OpenAI id created cs).choices[i]? =
        cs[i]?.bind fun c => (responseGeminiChat2OpenAI id created [c]).choices.head?) ↔
      cs.Pairwise fun a b => a.CallsTool → b.EndsInCall := by
  have hmap := choices_eq_map_iff cs false
  rw [List.ext_getElem?_iff] at hmap
  simpa [responseGeminiChat2OpenAI, choices, Option.map_eq_bind, Function.comp_def] using hmap

/-- The second candidate only answers, but its choice ends in a tool call. -/
theorem plain_after_call :
    let call : GeminiChatCandidate := { parts := [{ functionCall := some ("search", some "[]") }] }
    let plain : GeminiChatCandidate :=
      { parts := [{ text := "hi" }], finishReason := some "STOP", index := 1 }
    ¬ ∀ i : Nat, (responseGeminiChat2OpenAI "" 0 [call, plain]).choices[i]? =
      [call, plain][i]?.bind fun c => (responseGeminiChat2OpenAI "" 0 [c]).choices.head? := by
  intro call plain h
  have hsecond := h 1
  revert hsecond
  decide +kernel

end GeminiChatCandidate
