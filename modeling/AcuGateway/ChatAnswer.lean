/-
What a client reads from a streamed chat answer.

The deltas of the chunks are put together: the text, the reasoning, and the tool
calls, whose fragments belong together when they have the same index.

* `addToolCall` — fragments of tool calls, put together by index;
* `ChatAnswer.add`, `answerOf` — the answer that a list of chunks amounts to.
-/
import AcuGateway.RelayMessages

/-- A tool call, as far as it has arrived. -/
structure AnswerTool where
  index : Int
  id : String := ""
  name : String := ""
  arguments : String := ""

/-- An id or a name may come again with a later fragment, as long as it is the same. -/
def againOrMore (s piece : String) : String := if piece = s then s else s ++ piece

@[simp] theorem againOrMore_self (s : String) : againOrMore s s = s := if_pos rfl

@[simp] theorem againOrMore_empty (s : String) : againOrMore s "" = s := by
  simp [againOrMore]

@[simp] theorem empty_againOrMore (s : String) : againOrMore "" s = s := by
  simp [againOrMore]

def AnswerTool.add (tool : AnswerTool) (call : ToolCallResponse) : AnswerTool :=
  { tool with
    id := againOrMore tool.id call.id
    name := againOrMore tool.name call.function.name
    arguments := tool.arguments ++ call.function.arguments }

namespace AnswerTool

variable (tool : AnswerTool) (call : ToolCallResponse)

theorem add_index : (tool.add call).index = tool.index := by simp only [add]

theorem add_id : (tool.add call).id = againOrMore tool.id call.id := by simp only [add]

theorem add_name : (tool.add call).name = againOrMore tool.name call.function.name := by
  simp only [add]

end AnswerTool

/-- A fragment goes to the tool call of its index, which it opens if it is the first. -/
def addToolCall (tools : List AnswerTool) (call : ToolCallResponse) : List AnswerTool :=
  let index := call.index.getD 0
  if tools.any (·.index = index) then
    tools.map fun tool => if tool.index = index then tool.add call else tool
  else tools ++ [AnswerTool.add { index } call]

variable {tools : List AnswerTool} {call : ToolCallResponse}

theorem addToolCall_new (h : ∀ tool ∈ tools, tool.index ≠ call.index.getD 0) :
    addToolCall tools call = tools ++ [AnswerTool.add { index := call.index.getD 0 } call] := by
  have hnone : tools.any (·.index = call.index.getD 0) = false := by
    simpa using h
  simp [addToolCall, hnone]

theorem addToolCall_known {tool : AnswerTool} (hmem : tool ∈ tools)
    (h : tool.index = call.index.getD 0) :
    addToolCall tools call = tools.map fun tool => if tool.index = call.index.getD 0 then
      tool.add call else tool := by
  have hsome : tools.any (·.index = call.index.getD 0) = true := by
    simpa using ⟨tool, hmem, h⟩
  simp [addToolCall, hsome]

/-- A streamed answer, as far as it has arrived. -/
structure ChatAnswer where
  text : String := ""
  reasoning : String := ""
  tools : List AnswerTool := []
  roles : List String := []
  finishReasons : List String := []

namespace ChatAnswer

/-- One chunk; a stream with a single choice has its deltas in the first choice. -/
def add (answer : ChatAnswer) (chunk : ChatCompletionsStreamResponse) : ChatAnswer :=
  match chunk.choices.head? with
  | none => answer
  | some choice =>
    { text := answer.text ++ choice.delta.getContentString
      reasoning := answer.reasoning ++ choice.delta.getReasoningContent
      tools := choice.delta.toolCalls.foldl addToolCall answer.tools
      roles := answer.roles ++ if choice.delta.role = "" then [] else [choice.delta.role]
      finishReasons := answer.finishReasons ++ choice.finishReason.toList }

/-- A chunk that only adds to the answer, without a role and without an end. -/
theorem add_delta (answer : ChatAnswer) (chunk : ChatCompletionsStreamResponse)
    (delta : ChatStreamDelta) (hchoices : chunk.choices = [{ delta }]) (hrole : delta.role = "") :
    answer.add chunk =
      { answer with
        text := answer.text ++ delta.getContentString
        reasoning := answer.reasoning ++ delta.getReasoningContent
        tools := delta.toolCalls.foldl addToolCall answer.tools } := by
  simp [add, hchoices, hrole]

end ChatAnswer

def answerOf (chunks : List ChatCompletionsStreamResponse) : ChatAnswer :=
  chunks.foldl ChatAnswer.add {}
