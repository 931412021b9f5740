/-
Claude answers as OpenAI chat answers, streamed and in one message.

* `streamResponseClaude2OpenAI`, `responseClaude2OpenAI` — the two converters;
* `answerOf_messageChunks` — what the chunks of a streamed message amount to: all its
  text and all its thinking, in order;
* `streamed_answer_agrees_iff` — when the two converters give the same answer: the one
  for whole messages keeps the last text block and one thinking block only;
* `first_text_lost` — an answer with text before and after a tool call.
-/
import AcuGateway.ChatAnswer

open List ChatStreamDelta

/-! ### The converters -/

/-- An event as a chunk; most kinds of event have none.  The outer `none` is the
dereference of a missing `partial_json`. -/
def streamResponseClaude2OpenAI (claudeResponse : ClaudeResponse) :
    Option (Option ChatCompletionsStreamResponse) :=
  let response : ChatCompletionsStreamResponse :=
    { object := "chat.completion.chunk", model := claudeResponse.model }
  let fcIdx := claudeResponse.index.getD 0
  let single := fun delta : ChatStreamDelta => { response with choices := [{ delta }] }
  match claudeResponse.type with
  | .messageStart =>
    let named := match claudeResponse.message with
      | none => response
      | some message => { response with id := message.id, model := message.model }
    some (some { named with choices := [{ delta := { content := some "", role := "assistant" } }] })
  | .contentBlockStart =>
    match claudeResponse.contentBlock with
    | none => some none
    | some block =>
      match block.type with
      | .text => some (some (single { content := block.text }))
      | .toolUse =>
        some (some (single { toolCalls :=
          [{ index := some fcIdx, id := block.id, type := some "function"
             function := { name := block.name } }] }))
      | _ => some (some (single {}))
  | .contentBlockDelta =>
    match claudeResponse.delta with
    | none => some (some (single {}))
    | some delta =>
      match delta.type with
      | .inputJsonDelta =>
        -- a chunk with tool calls has no content
        delta.partialJson.map fun json => some (single { toolCalls :=
          [{ index := some fcIdx, type := some "function", function := { arguments := json } }] })
      | .signatureDelta =>
        some (some (single { content := delta.text, reasoningContent := some "\n" }))
      | .thinkingDelta =>
        some (some (single { content := delta.text, reasoningContent := delta.thinking }))
      | _ => some (some (single { content := delta.text }))
  | .messageDelta =>
    let finishReason := (claudeResponse.delta.bind ClaudeMediaMessage.stopReason).map
      claudeStopReasonToOpenAIFinishReason
    some (some { response with choices := [{ finishReason := finishReason.filter (· ≠ "null") }] })
  | _ => some none

/-- The blocks of a message, folded. -/
structure FoldedBlocks where
  responseText : String
  thinkingContent : String := ""
  tools : List ToolCallResponse := []

def foldBlock (folded : FoldedBlocks) (message : ClaudeMediaMessage) : FoldedBlocks :=
  match message.type with
  | .toolUse =>
    { folded with tools := folded.tools ++
        [{ id := message.id, type := some "function"
           function := { name := message.name, arguments := message.input } }] }
  | .thinking => { folded with thinkingContent := message.thinking.getD folded.thinkingContent }
  | .text => { folded with responseText := message.getText }
  | _ => folded

def responseClaude2OpenAI (created : Int) (claudeResponse : ClaudeResponse) : OpenAITextResponse :=
  let first := claudeResponse.content.head?
  let responseThinking := (first.bind ClaudeMediaMessage.thinking).getD ""
  let folded := claudeResponse.content.foldl foldBlock
    { responseText := (first.map ClaudeMediaMessage.getText).getD "" }
  let reasoningContent :=
    if folded.thinkingContent ≠ "" then some folded.thinkingContent
    else if responseThinking ≠ "" then some responseThinking
    else none
  { id := claudeResponse.id
    object := "chat.completion"
    created
    model := claudeResponse.model
    choices :=
      [{ message :=
          { role := "assistant", content := folded.responseText, reasoningContent
            toolCalls := folded.tools }
         finishReason := claudeStopReasonToOpenAIFinishReason claudeResponse.stopReason }] }

/-! ### Messages and their streams -/

inductive ClaudeBlock
  | text (text : Option String)
  | thinking (thinking : Option String)
  | toolUse (id name input : String)

namespace ClaudeBlock

def media : ClaudeBlock → ClaudeMediaMessage
  | text t => { type := .text, text := t }
  | thinking t => { type := .thinking, thinking := t }
  | toolUse id name input => { type := .toolUse, id, name, input }

/-- The text of a text block. -/
def text? : ClaudeBlock → Option String
  | text t => some (t.getD "")
  | _ => none

/-- The thinking of a thinking block that has one. -/
def thinking? : ClaudeBlock → Option String
  | thinking t => t
  | _ => none

/-- The block as it is opened, still empty. -/
def opened : ClaudeBlock → ClaudeMediaMessage
  | text _ => { type := .text, text := some "" }
  | thinking _ => { type := .thinking, thinking := some "" }
  | toolUse id name _ => { type := .toolUse, id, name, input := "\x7b\x7d" }

/-- A piece of the block. -/
def piece : ClaudeBlock → String → ClaudeMediaMessage
  | text _, s => { type := .textDelta, text := some s }
  | thinking _, s => { type := .thinkingDelta, thinking := some s }
  | toolUse .., s => { type := .inputJsonDelta, partialJson := some s }

end ClaudeBlock

open ClaudeBlock

/-- A block and the pieces it is streamed in. -/
structure StreamedBlock where
  block : ClaudeBlock
  pieces : List String
  /-- a thinking block may end with a signature -/
  signed : Bool := false
  text_pieces : ∀ t, block.text? = some t → String.join pieces = t
  thinking_pieces : ∀ t, block = .thinking t → String.join pieces = t.getD ""

def signatureDelta (index : Int) : ClaudeResponse :=
  { type := .contentBlockDelta, index := some index, delta := some { type := .signatureDelta } }

variable (b : StreamedBlock)

def StreamedBlock.events (index : Int) : List ClaudeResponse :=
  { type := .contentBlockStart, index := some index, contentBlock := some b.block.opened } ::
  (b.pieces.map fun s =>
    { type := .contentBlockDelta, index := some index, delta := some (b.block.piece s) }) ++
  (if b.signed then [signatureDelta index] else []) ++
  [{ type := .contentBlockStop, index := some index }]

/-- The events of the blocks from number `index` on. -/
def blockEvents : Int → List StreamedBlock → List ClaudeResponse
  | _, [] => []
  | index, b :: blocks => b.events index ++ blockEvents (index + 1) blocks

/-- The event stream of a message. -/
def messageEvents (message : ClaudeResponse) (blocks : List StreamedBlock) : List ClaudeResponse :=
  { type := .messageStart
    message := some { type := .message, id := message.id, model := message.model } } ::
  blockEvents 0 blocks ++
  [{ type := .messageDelta, delta := some { stopReason := some message.stopReason } },
   { type := .messageStop }]

/-- Whether an event is not the signature of a thinking block. -/
def ClaudeResponse.unsigned (event : ClaudeResponse) : Bool :=
  (event.delta.map ClaudeMediaMessage.type) ≠ some .signatureDelta

/-- The chunks of a stream, without the newline that stands for a signature. -/
def chunksOf (events : List ClaudeResponse) : Option (List ChatCompletionsStreamResponse) :=
  ((events.filter ClaudeResponse.unsigned).mapM streamResponseClaude2OpenAI).map (·.filterMap id)

/-! ### What the chunks amount to -/

open StreamedBlock

/-- The chunks of the events take a client from one answer to the other. -/
def Reads (events : List ClaudeResponse) (answer answer' : ChatAnswer) : Prop :=
  ∃ chunks, chunksOf events = some chunks ∧ chunks.foldl ChatAnswer.add answer = answer'

namespace Reads

variable {answer answer' answer'' : ChatAnswer}

theorem nil (answer : ChatAnswer) : Reads [] answer answer := ⟨[], rfl, rfl⟩

theorem append {events events' : List ClaudeResponse} (h : Reads events answer answer')
    (h' : Reads events' answer' answer'') : Reads (events ++ events') answer answer'' := by
  obtain ⟨chunks, hchunks, rfl⟩ := h
  obtain ⟨chunks', hchunks', rfl⟩ := h'
  refine ⟨chunks ++ chunks', ?_, foldl_append⟩
  unfold chunksOf at hchunks hchunks' ⊢
  rw [Option.map_eq_some_iff] at hchunks hchunks'
  obtain ⟨l, hl, rfl⟩ := hchunks
  obtain ⟨l', hl', rfl⟩ := hchunks'
  simp [filter_append, hl, hl', filterMap_append]

variable {chunk : ChatCompletionsStreamResponse} {event : ClaudeResponse}

theorem one (hunsigned : event.unsigned = true)
    (hchunk : streamResponseClaude2OpenAI event = some (some chunk)) :
    Reads [event] answer (answer.add chunk) := by
  refine ⟨[chunk], ?_, rfl⟩
  simp [chunksOf, hunsigned, hchunk]

/-- An event whose chunk adds a delta. -/
theorem delta {delta : ChatStreamDelta} (hunsigned : event.unsigned = true)
    (hchunk : streamResponseClaude2OpenAI event = some (some chunk))
    (hchoices : chunk.choices = [{ delta }]) (hrole : delta.role = "")
    (hanswer : answer' =
      { answer with
        text := answer.text ++ delta.getContentString
        reasoning := answer.reasoning ++ delta.getReasoningContent
        tools := delta.toolCalls.foldl addToolCall answer.tools }) :
    Reads [event] answer answer' := by
  rw [hanswer, ← answer.add_delta chunk delta hchoices hrole]
  exact one hunsigned hchunk

theorem skip (h : event.unsigned = false ∨ streamResponseClaude2OpenAI event = some none) :
    Reads [event] answer answer := by
  refine ⟨[], ?_, rfl⟩
  cases hunsigned : event.unsigned with
  | false => simp [chunksOf, hunsigned]
  | true =>
    have hnone : streamResponseClaude2OpenAI event = some none := by simpa [hunsigned] using h
    simp [chunksOf, hunsigned, hnone]

/-- A text that arrives in pieces. -/
theorem pieces {e : String → ClaudeResponse} {F : String → ChatAnswer}
    (h : ∀ s piece, Reads [e piece] (F s) (F (s ++ piece))) (l : List String) (s : String) :
    Reads (l.map e) (F s) (F (s ++ String.join l)) := by
  induction l generalizing s with
  | nil => simpa using nil (F s)
  | cons piece l ih =>
    have hrest := ih (s ++ piece)
    rw [String.append_assoc] at hrest
    rw [String.join_cons]
    exact append (h s piece) hrest

end Reads

/-- What a block adds to an answer. -/
def StreamedBlock.addTo (index : Int) (answer : ChatAnswer) : ChatAnswer :=
  match b.block with
  | .text t => { answer with text := answer.text ++ t.getD "" }
  | .thinking t => { answer with reasoning := answer.reasoning ++ t.getD "" }
  | .toolUse id name _ =>
    { answer with tools := answer.tools ++
      [{ index, id, name, arguments := String.join b.pieces }] }

/-- Fragments for the last tool call, which has the index of the fragments. -/
theorem foldl_addToolCall_last (tools : List AnswerTool) (tool : AnswerTool)
    (hnew : ∀ t ∈ tools, t.index ≠ tool.index) (call : ToolCallResponse)
    (hcall : call.index = some tool.index) :
    addToolCall (tools ++ [tool]) call = tools ++ [tool.add call] := by
  have hlast : tool.index = call.index.getD 0 := by rw [hcall]; rfl
  rw [addToolCall_known (mem_append_right tools (mem_singleton_self tool)) hlast, map_append]
  congr 1
  · rw [← hlast]
    conv_rhs => rw [← map_id tools]
    exact map_congr_left fun t ht => if_neg (hnew t ht)
  · simp [← hlast]

/-- The deltas of a block. -/
def pieceEvents (block : ClaudeBlock) (index : Int) (pieces : List String) : List ClaudeResponse :=
  pieces.map fun s =>
    { type := .contentBlockDelta, index := some index, delta := some (block.piece s) }

variable (index : Int) (pieces : List String) (answer : ChatAnswer)

/-- Each piece adds to what the pieces before it have made of the answer. -/
theorem reads_pieces {block : ClaudeBlock} {F : String → ChatAnswer} (hstart : F "" = answer)
    (h : ∀ s piece, Reads (pieceEvents block index [piece]) (F s) (F (s ++ piece))) :
    Reads (pieceEvents block index pieces) answer (F (String.join pieces)) := by
  have hpieces := Reads.pieces h pieces ""
  rwa [String.empty_append, hstart] at hpieces

theorem reads_text (t : Option String) :
    Reads (pieceEvents (.text t) index pieces) answer
      { answer with text := answer.text ++ String.join pieces } := by
  refine reads_pieces (F := fun s => { answer with text := answer.text ++ s }) index pieces answer
    (by simp)
    fun s piece => ?_
  refine Reads.delta rfl rfl rfl rfl ?_
  simp [ClaudeBlock.piece, getContentString, getReasoningContent, String.append_assoc]

theorem reads_thinking (t : Option String) : Reads (pieceEvents (.thinking t) index pieces) answer
      { answer with reasoning := answer.reasoning ++ String.join pieces } := by
  refine reads_pieces (F := fun s => { answer with reasoning := answer.reasoning ++ s }) index
    pieces answer (by simp)
    fun s piece => ?_
  refine Reads.delta rfl rfl rfl rfl ?_
  simp [ClaudeBlock.piece, getContentString, getReasoningContent, String.append_assoc]

/-- A tool: each piece goes to the tool call that was opened with the block. -/
theorem reads_toolUse (id name input : String) (hnew : ∀ t ∈ answer.tools, t.index ≠ index) :
    Reads (pieceEvents (.toolUse id name input) index pieces)
      { answer with tools := answer.tools ++ [{ index, id, name }] }
      { answer with tools := answer.tools ++
        [{ index, id, name, arguments := String.join pieces }] } := by
  refine reads_pieces
    (F := fun s => { answer with tools := answer.tools ++ [{ index, id, name, arguments := s }] })
    index pieces _ rfl fun s piece => ?_
  refine Reads.delta rfl rfl rfl rfl ?_
  rw [foldl_cons, foldl_addToolCall_last _ _ hnew _ rfl]
  simp [AnswerTool.add, getContentString, getReasoningContent]

theorem StreamedBlock.reads (hnew : ∀ t ∈ answer.tools, t.index ≠ index) :
    Reads (b.events index) answer (b.addTo index answer) := by
  -- the end of a block adds nothing to the answer
  have hend : ∀ answer', Reads ((if b.signed then [signatureDelta index] else []) ++
      [{ type := .contentBlockStop, index := some index }]) answer' answer' := by
    intro answer'
    refine Reads.append ?_ (Reads.skip (.inr rfl))
    split
    · exact Reads.skip (.inl rfl)
    · exact Reads.nil answer'
  obtain ⟨block, pieces, signed, htext, hthinking⟩ := b
  unfold events
  rw [append_assoc]
  cases block with
  | text t =>
    have hopen : Reads [{ type := .contentBlockStart, index := some index
                          contentBlock := some (ClaudeBlock.text t).opened }] answer answer := by
      refine Reads.delta rfl rfl rfl rfl ?_
      simp [ClaudeBlock.opened, getContentString, getReasoningContent]
    have hpieces := reads_text index pieces answer t
    rw [htext _ rfl] at hpieces
    exact (hopen.append hpieces).append (hend _)
  | thinking t =>
    have hopen : Reads [{ type := .contentBlockStart, index := some index
                          contentBlock := some (ClaudeBlock.thinking t).opened }] answer
                            answer := by
      refine Reads.delta rfl rfl rfl rfl ?_
      simp [getContentString, getReasoningContent]
    have hpieces := reads_thinking index pieces answer t
    rw [hthinking t rfl] at hpieces
    exact (hopen.append hpieces).append (hend _)
  | toolUse id name input =>
    have hopen : Reads [{ type := .contentBlockStart, index := some index
                          contentBlock := some (ClaudeBlock.toolUse id name input).opened }] answer
        { answer with tools := answer.tools ++ [{ index, id, name }] } := by
      refine Reads.delta rfl rfl rfl rfl ?_
      rw [foldl_cons, addToolCall_new hnew]
      simp [ClaudeBlock.opened, AnswerTool.add, getContentString, getReasoningContent]
    exact (hopen.append (reads_toolUse index pieces answer id name input hnew)).append (hend _)

/-- The id and the name of a tool. -/
def ClaudeBlock.tool? : ClaudeBlock → Option (String × String)
  | .toolUse id name _ => some (id, name)
  | _ => none

variable (blocks : List ClaudeBlock)

/-- What the blocks hold, kind by kind. -/
def blockTexts : List String := blocks.filterMap text?

def blockThinking : List String := blocks.filterMap thinking?

def blockTools : List (String × String) := blocks.filterMap tool?

/-- The id and the name of a tool call that a client has put together. -/
def AnswerTool.named (tool : AnswerTool) : String × String := (tool.id, tool.name)

/-- What one block adds, kind by kind. -/
theorem StreamedBlock.addTo_parts :
    (b.addTo index answer).text = answer.text ++ String.join (blockTexts [b.block]) ∧
    (b.addTo index answer).reasoning = answer.reasoning ++ String.join (blockThinking [b.block]) ∧
    (b.addTo index answer).tools.map AnswerTool.named =
      answer.tools.map AnswerTool.named ++ blockTools [b.block] := by
  obtain ⟨block, pieces, signed, htext, hthinking⟩ := b
  simp only [addTo, blockTexts, blockThinking, blockTools, filterMap_cons, filterMap_nil]
  cases block with
  | text t => simp [text?, thinking?, tool?, String.join_cons]
  | thinking t =>
    cases t with
    | none => simp [text?, thinking?, tool?]
    | some t => simp [text?, thinking?, tool?, String.join_cons]
  | toolUse id name input =>
    simp [text?, thinking?, tool?, AnswerTool.named]

theorem StreamedBlock.addTo_indices {index : Int} {answer : ChatAnswer}
    (h : ∀ t ∈ answer.tools, t.index < index) :
    ∀ t ∈ (b.addTo index answer).tools, t.index < index + 1 := by
  have hold : ∀ t ∈ answer.tools, t.index < index + 1 := by
    intro t ht
    have := h t ht
    omega
  unfold addTo
  cases b.block with
  | text t => exact hold
  | thinking t => exact hold
  | toolUse id name input =>
    intro t ht
    -- the new tool has the index of its block
    rcases mem_append.mp ht with ht | ht
    · exact hold t ht
    · rw [mem_singleton.mp ht]
      show index < index + 1
      omega

/-- What the blocks of a message add up to. -/
theorem reads_blocks (blocks : List StreamedBlock) (index : Int) (answer : ChatAnswer)
    (hindices : ∀ t ∈ answer.tools, t.index < index) :
    ∃ answer', Reads (blockEvents index blocks) answer answer' ∧
      answer'.text = answer.text ++ String.join (blockTexts (blocks.map block)) ∧
      answer'.reasoning = answer.reasoning ++ String.join (blockThinking (blocks.map block)) ∧
      answer'.tools.map AnswerTool.named =
        answer.tools.map AnswerTool.named ++ blockTools (blocks.map block) := by
  induction blocks generalizing index answer with
  | nil => exact ⟨answer, Reads.nil answer, by simp [blockTexts, blockThinking, blockTools]⟩
  | cons b blocks ih =>
    -- earlier blocks have smaller indices
    have hnew : ∀ t ∈ answer.tools, t.index ≠ index := by
      intro t ht
      have := hindices t ht
      omega
    obtain ⟨htext, hthinking, htools⟩ := b.addTo_parts index answer
    obtain ⟨answer', hreads, htext', hthinking', htools'⟩ :=
      ih (index + 1) (b.addTo index answer) (b.addTo_indices hindices)
    refine ⟨answer', (b.reads index answer hnew).append hreads, ?_, ?_, ?_⟩
    · rw [htext', htext, String.append_assoc, ← String.join_append, blockTexts, blockTexts,
        ← filterMap_append]
      rfl
    · rw [hthinking', hthinking, String.append_assoc, ← String.join_append, blockThinking,
        blockThinking, ← filterMap_append]
      rfl
    · rw [htools', htools, append_assoc, blockTools, blockTools, ← filterMap_append]
      rfl

/-- The chunks of a streamed message amount to all its text, thinking and tools, in order. -/
theorem answerOf_messageChunks (message : ClaudeResponse) (blocks : List StreamedBlock) :
    ∃ chunks, chunksOf (messageEvents message blocks) = some chunks ∧
      (answerOf chunks).text = String.join (blockTexts (blocks.map block)) ∧
      (answerOf chunks).reasoning = String.join (blockThinking (blocks.map block)) ∧
      (answerOf chunks).tools.map AnswerTool.named = blockTools (blocks.map block) := by
  obtain ⟨answer, hreads, htext, hthinking, htools⟩ :=
    reads_blocks blocks 0 { roles := ["assistant"] } (by simp)
  -- the start gives the role, the end the reason
  have hstart : Reads [{ type := .messageStart
                         message := some { type := .message, id := message.id
                                           model := message.model } }] {}
      { roles := ["assistant"] } := ⟨_, rfl, rfl⟩
  obtain ⟨answer', hend, htext', hthinking', htools'⟩ : ∃ answer', Reads
      [{ type := .messageDelta, delta := some { stopReason := some message.stopReason } },
       { type := .messageStop }] answer answer' ∧ answer'.text = answer.text ∧
      answer'.reasoning = answer.reasoning ∧ answer'.tools = answer.tools := by
    refine ⟨_, Reads.append (Reads.one rfl rfl) (Reads.skip (.inr rfl)), ?_⟩
    simp [ChatAnswer.add, getContentString, getReasoningContent]
  obtain ⟨chunks, hchunks, hanswer⟩ := (hstart.append hreads).append hend
  refine ⟨chunks, hchunks, ?_⟩
  rw [answerOf, hanswer, htext', hthinking', htools', htext, hthinking, htools]
  simp

/-! ### The whole message -/

/-- The call that a tool block becomes. -/
def ClaudeBlock.call? : ClaudeBlock → Option ToolCallResponse
  | .toolUse id name input =>
    some { id, type := some "function", function := { name, arguments := input } }
  | _ => none

/-- The fold keeps the last text and the last thinking. -/
theorem foldl_foldBlock (folded : FoldedBlocks) : (blocks.map media).foldl foldBlock folded =
      { responseText := (blockTexts blocks).getLast?.getD folded.responseText
        thinkingContent := (blockThinking blocks).getLast?.getD folded.thinkingContent
        tools := folded.tools ++ blocks.filterMap call? } := by
  induction blocks generalizing folded with
  | nil => simp [blockTexts, blockThinking]
  | cons block blocks ih =>
    rw [map_cons, foldl_cons, ih]
    simp only [blockTexts, blockThinking, filterMap_cons]
    -- of several texts the last one is kept, and so of several thoughts
    cases block with
    | text t =>
      simp [foldBlock, media, text?, thinking?, call?, ClaudeMediaMessage.getText, getLast?_cons]
    | thinking t =>
      cases t with
      | none =>
        simp [foldBlock, media, text?, thinking?, call?]
      | some t =>
        simp [foldBlock, media, text?, thinking?, call?, getLast?_cons]
    | toolUse id name input =>
      simp [foldBlock, media, text?, thinking?, call?]

/-- The text, the reasoning and the tools of an answer in one message. -/
structure MessageIs (response : OpenAITextResponse) (text reasoning : String)
    (tools : List (String × String)) : Prop where
  text : response.choices.map (·.message.content) = [text]
  reasoning : response.choices.map (·.message.reasoningContent.getD "") = [reasoning]
  tools : response.choices.map
    (·.message.toolCalls.map fun call => (call.id, call.function.name)) = [tools]

/-- The thinking that is kept: the last one, or else that of the first block. -/
def keptThinking : String :=
  let last := (blockThinking blocks).getLast?.getD ""
  if last ≠ "" then last else (blocks.head?.bind thinking?).getD ""

theorem ClaudeBlock.media_thinking (block : ClaudeBlock) :
    block.media.thinking = block.thinking? := by
  cases block <;> rfl

/-- Without a text block the first block has no text either. -/
theorem getLast?_blockTexts_first : (blockTexts blocks).getLast?.getD
      (((blocks.map media).head?.map ClaudeMediaMessage.getText).getD "") =
    (blockTexts blocks).getLast?.getD "" := by
  cases htexts : (blockTexts blocks).getLast? with
  | some t => rfl
  | none =>
    have hnil : blockTexts blocks = [] := getLast?_eq_none_iff.mp htexts
    cases blocks with
    | nil => rfl
    | cons block blocks =>
      cases block with
      | text t => simp [blockTexts, text?] at hnil
      | thinking t => rfl
      | toolUse id name input => rfl

theorem responseClaude2OpenAI_is (created : Int) (message : ClaudeResponse)
    (blocks : List ClaudeBlock) (hcontent : message.content = blocks.map media) :
    MessageIs (responseClaude2OpenAI created message) ((blockTexts blocks).getLast?.getD "")
      (keptThinking blocks) (blockTools blocks) := by
  -- the thinking of the first block is a fallback
  have hfirst : (message.content.head?.bind ClaudeMediaMessage.thinking).getD "" =
      (blocks.head?.bind thinking?).getD "" := by
    rw [hcontent]
    cases blocks with
    | nil => rfl
    | cons block blocks => simp [media_thinking]
  unfold responseClaude2OpenAI
  simp only [hfirst]
  simp only [hcontent, foldl_foldBlock, getLast?_blockTexts_first]
  refine ⟨rfl, ?_, ?_⟩
  · unfold keptThinking
    simp only [map_cons, map_nil]
    split_ifs with hlast hhead
    · rfl
    · rfl
    · simp only [ne_eq, not_not] at hhead
      rw [hhead]
      rfl
  · simp only [map_cons, map_nil, nil_append, map_filterMap, blockTools]
    congr 1
    apply filterMap_congr
    intro block _
    cases block <;> rfl

/-! ### Agreement -/

/-- Streamed or not, the answer is the same. -/
structure SameAnswer (streamed : ChatAnswer) (response : OpenAITextResponse) : Prop where
  text : response.choices.map (·.message.content) = [streamed.text]
  reasoning : response.choices.map (·.message.reasoningContent.getD "") = [streamed.reasoning]
  tools : response.choices.map (·.message.toolCalls.map fun call => (call.id, call.function.name)) =
    [streamed.tools.map AnswerTool.named]

/-- Only the last text block has a text. -/
def OnlyLastText : Prop := ∀ t ∈ (blockTexts blocks).dropLast, t = ""

/-- Only the last thinking block has a thinking, or only the first block of the message. -/
def OneThinking : Prop :=
  (∀ t ∈ (blockThinking blocks).dropLast, t = "") ∨ ∀ t ∈ blockThinking blocks.tail, t = ""

theorem blockThinking_head : blockThinking blocks =
      (blocks.head?.bind thinking?).toList ++ blockThinking blocks.tail := by
  cases blocks with
  | nil => rfl
  | cons block blocks =>
    simp only [blockThinking, filterMap_cons, head?_cons, tail_cons, Option.bind_some]
    cases block.thinking? <;> rfl

theorem join_blockThinking :
    String.join (blockThinking blocks) = (blocks.head?.bind thinking?).getD "" ++
        String.join (blockThinking blocks.tail) := by
  rw [blockThinking_head, String.join_append]
  cases blocks.head?.bind thinking? <;> simp [String.join_cons]

/-- A last thinking that is not empty is the first block's if the later ones are. -/
theorem join_eq_last_of_tail (hlast : (blockThinking blocks).getLast?.getD "" ≠ "")
    (htail : ∀ t ∈ blockThinking blocks.tail, t = "") :
    String.join (blockThinking blocks) = (blockThinking blocks).getLast?.getD "" := by
  rw [Text.join_eq_getLast_iff]
  rw [blockThinking_head, getLast?_append] at hlast
  cases hend : (blockThinking blocks.tail).getLast? with
  | some t =>
    have hempty := htail t (mem_of_getLast? hend)
    rw [hend, hempty] at hlast
    exact absurd rfl hlast
  | none =>
    rw [blockThinking_head, getLast?_eq_none_iff.mp hend, append_nil]
    cases blocks.head?.bind thinking? <;> simp

theorem join_eq_keptThinking_iff :
    String.join (blockThinking blocks) = keptThinking blocks ↔ OneThinking blocks := by
  unfold keptThinking OneThinking
  rw [← Text.join_eq_getLast_iff]
  by_cases hlast : (blockThinking blocks).getLast?.getD "" = ""
  · rw [hlast, ← Text.join_eq_empty_iff (blockThinking blocks.tail), join_blockThinking]
    simp only [ne_eq, not_true_eq_false, if_false, String.append_eq_left_iff,
      String.append_eq_empty_iff]
    exact ⟨.inr, fun h => h.elim And.right id⟩
  · simp only [ne_eq, hlast, not_false_eq_true, if_true]
    exact ⟨.inl, fun h => h.elim id (join_eq_last_of_tail blocks hlast)⟩

/-- A message is answered alike, streamed and in one piece, exactly if only its last text
block has a text, and only its last thinking block or its first block has a thinking. -/
theorem streamed_answer_agrees_iff (created : Int) (message : ClaudeResponse)
    (blocks : List StreamedBlock) :
    let content := blocks.map block
    ∃ chunks, chunksOf (messageEvents message blocks) = some chunks ∧
      (SameAnswer (answerOf chunks)
        (responseClaude2OpenAI created { message with content := content.map media }) ↔
        OnlyLastText content ∧ OneThinking content) := by
  intro content
  obtain ⟨chunks, hchunks, htext, hthinking, htools⟩ := answerOf_messageChunks message blocks
  have his := responseClaude2OpenAI_is created { message with content := content.map media }
    content rfl
  refine ⟨chunks, hchunks, ?_⟩
  have hreasoning := join_eq_keptThinking_iff content
  have hlast := Text.join_eq_getLast_iff (blockTexts content)
  constructor
  · intro h
    have hsame := h.text.symm.trans his.text
    have hsame' := h.reasoning.symm.trans his.reasoning
    simp only [htext, hthinking, List.cons.injEq, and_true] at hsame hsame'
    exact ⟨hlast.mp hsame, hreasoning.mp hsame'⟩
  · rintro ⟨hone, hone'⟩
    refine ⟨?_, ?_, ?_⟩
    · rw [his.text, htext, hlast.mpr hone]
    · rw [his.reasoning, hthinking, hreasoning.mpr hone']
    · rw [his.tools, htools]

/-- Text, a tool call, and text again. -/
def twoTexts : List StreamedBlock :=
  [{ block := .text (some "Let me look."), pieces := ["Let me ", "look."]
     text_pieces := by rintro t ⟨⟩; decide, thinking_pieces := fun _ h => (by cases h) },
   { block := .toolUse "toolu_1" "search" "\x7b\x7d", pieces := []
     text_pieces := fun _ h => (by cases h), thinking_pieces := fun _ h => (by cases h) },
   { block := .text (some "It rains."), pieces := ["It rains."]
     text_pieces := by rintro t ⟨⟩; decide, thinking_pieces := fun _ h => (by cases h) }]

theorem first_text_lost :
    ∃ chunks, chunksOf (messageEvents { type := .message } twoTexts) = some chunks ∧
      (answerOf chunks).text = "Let me look.It rains." ∧
      ((responseClaude2OpenAI 0
        { type := .message, content := twoTexts.map (·.block.media) }).choices.map
        (·.message.content)) = ["It rains."] ∧
      ¬ SameAnswer (answerOf chunks) (responseClaude2OpenAI 0
        { type := .message, content := twoTexts.map (·.block.media) }) := by
  obtain ⟨chunks, hchunks, htext, -, -⟩ := answerOf_messageChunks { type := .message } twoTexts
  have hstreamed : (answerOf chunks).text = "Let me look.It rains." := by
    rw [htext]
    decide
  have hwhole : ((responseClaude2OpenAI 0 { type := .message
                                            content := twoTexts.map (·.block.media) }).choices.map
      (·.message.content)) = ["It rains."] := by
    decide
  refine ⟨chunks, hchunks, hstreamed, hwhole, fun h => ?_⟩
  rw [h.text, hstreamed] at hwhole
  exact absurd hwhole (by decide)
