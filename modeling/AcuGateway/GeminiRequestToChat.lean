/-
From the contents of a Gemini request to the messages of a chat request.

Calls and their results need ids in a chat.  The ids are counted within one content, but the
responses to the calls of a content come in another one.

* `partStep`, `contentStep` — the two loops;
* `Conversation` — contents in which each call is answered later;
* `Bound` — ids are distinct, results are bound to their calls, and no text is lost;
* `results_bound_iff` — this is so only if there are no calls at all;
* `result_bound_to_nothing` — one call and its response.
-/
import AcuGateway.ChatRequest
import AcuGateway.GeminiRequest
import AcuGateway.Lib.Run
import AcuGateway.Lib.Text

open List Message Run GeminiRequestPart

namespace GeminiRequestToChat

variable {α : Type} (toJSONString : α → String)

/-! ### The conversion -/

def convertGeminiRoleToOpenAI : GeminiRole → ChatRole
  | .user => .user
  | .model => .assistant
  | .function => .function
  | .other _ => .user

def callId (n : Nat) : String := "call_" ++ toString n

structure ContentState where
  messages : List Message
  mediaContents : List MediaContent := []
  toolCalls : List ToolCallRequest := []

/-- One part; the first field that is there decides. -/
def partStep (s : ContentState) (part : GeminiRequestPart α) : ContentState :=
  if part.text ≠ "" then { s with mediaContents := s.mediaContents ++ [.text part.text] }
  else match part.inlineData, part.fileData, part.functionCall, part.functionResponse with
  | some blob, _, _, _ =>
    { s with mediaContents := s.mediaContents ++
      [.imageUrl ("data:" ++ blob.mimeType ++ ";base64," ++ blob.data)] }
  | none, some file, _, _ => { s with mediaContents := s.mediaContents ++ [.imageUrl file.data] }
  | none, none, some call, _ =>
    { s with toolCalls := s.toolCalls ++
      [⟨callId (s.toolCalls.length + 1), call.name, toJSONString call.payload⟩] }
  | none, none, none, some response =>
    { s with messages := s.messages ++
      [{ role := .tool, toolCallId := callId s.toolCalls.length,
         content := .text (toJSONString response.payload) }] }
  | none, none, none, none => s

/-- Calls take the place of all other content. -/
def contentMessage (role : ChatRole) (s : ContentState) : Message :=
  if s.toolCalls ≠ [] then { role := role, toolCalls := some s.toolCalls }
  else match s.mediaContents with
  | [] => { role := role }
  | [.text text] => { role := role, content := .text text }
  | mediaContents => { role := role, content := .parts mediaContents }

variable (messages : List Message) (content : GeminiContent α)

def contentStep : List Message :=
  let s := exec (partStep toJSONString) { messages := messages } content.parts
  let message := contentMessage (convertGeminiRoleToOpenAI content.role) s
  if message.parseContent ≠ [] ∨ message.toolCalls ≠ none then s.messages ++ [message]
  else s.messages

def extractTextFromGeminiParts (parts : List (GeminiRequestPart α)) : String :=
  "\n".intercalate ((parts.map text).filter (· ≠ ""))

structure GeminiChatRequest (α : Type) where
  contents : List (GeminiContent α)
  systemInstructions : Option (List (GeminiRequestPart α)) := none

variable (request : GeminiChatRequest α)

def systemMessages : List Message :=
  match request.systemInstructions with
  | some parts => [{ role := .system, content := .text (extractTextFromGeminiParts parts) }]
  | none => []

def geminiGenerateContentRequestToOpenAIChat : List Message :=
  systemMessages request ++ exec (contentStep toJSONString) [] request.contents

/-! ### What is to be kept -/

def contentTexts : List String := (content.parts.map text).filter (· ≠ "")

def contentCalls : List (GeminiFunction α) := content.parts.filterMap functionCall

def contentResponses : List (GeminiFunction α) := content.parts.filterMap functionResponse

structure IsText (part : GeminiRequestPart α) : Prop where
  inlineData : part.inlineData = none
  fileData : part.fileData = none
  functionCall : part.functionCall = none
  functionResponse : part.functionResponse = none

structure IsCall (part : GeminiRequestPart α) : Prop where
  text : part.text = ""
  inlineData : part.inlineData = none
  fileData : part.fileData = none
  functionCall : part.functionCall ≠ none
  functionResponse : part.functionResponse = none

structure IsResponse (part : GeminiRequestPart α) : Prop where
  text : part.text = ""
  inlineData : part.inlineData = none
  fileData : part.fileData = none
  functionCall : part.functionCall = none
  functionResponse : part.functionResponse ≠ none

/-- The model talks and calls, the user talks and responds, and each call is answered, in order, in
a later content. -/
structure Conversation (contents : List (GeminiContent α)) : Prop where
  speakers : ∀ content ∈ contents, content.role = .model ∧
    (∀ part ∈ content.parts, IsText part ∨ IsCall part) ∨
      content.role = .user ∧ ∀ part ∈ content.parts, IsText part ∨ IsResponse part
  later : ∀ before content after, contents = before ++ content :: after →
    ((before ++ [content]).flatMap contentResponses).length ≤ (before.flatMap contentCalls).length
  answered : (contents.flatMap contentResponses).length = (contents.flatMap contentCalls).length

def messageCalls : List ToolCallRequest := messages.flatMap parseToolCalls

def toolMessages : List Message := messages.filter fun message => message.role = .tool

def messageTexts : List String :=
  (messages.filter fun message => message.role ≠ .tool).flatMap fun message =>
    message.parseContent.filterMap fun
    | .text text => some text
    | _ => none

/-- Ids are distinct, the calls are those of the contents, the result of each call has its id, and
each text is there once. -/
structure Bound (contents : List (GeminiContent α)) (messages : List Message) : Prop where
  distinct : ((messageCalls messages).map ToolCallRequest.id).Nodup
  calls : (messageCalls messages).map (fun call => (call.name, call.arguments)) =
    (contents.flatMap contentCalls).map fun call => (call.name, toJSONString call.payload)
  results : (toolMessages messages).map
    (fun message => (message.toolCallId, message.stringContent)) =
    ((messageCalls messages).map ToolCallRequest.id).zip
      ((contents.flatMap contentResponses).map fun response => toJSONString response.payload)
  texts : (messageTexts messages).Perm (contents.flatMap contentTexts)

/-! ### Contents without calls -/

variable {toJSONString}

def resultMessage (toJSONString : α → String) (id : String) (response : GeminiFunction α) :
    Message :=
  { role := .tool, toolCallId := id, content := .text (toJSONString response.payload) }

variable {part : GeminiRequestPart α}

theorem partStep_isText (h : IsText part) (s : ContentState) : partStep toJSONString s part =
      { s with mediaContents := s.mediaContents ++ ([part.text].filter (· ≠ "")).map .text } := by
  unfold partStep
  by_cases htext : part.text = ""
  · rw [if_neg (not_not.mpr htext), h.inlineData, h.fileData, h.functionCall,
      h.functionResponse, htext]
    simp
  · rw [if_pos htext]
    simp [htext]

theorem partStep_isResponse (h : IsResponse part) (s : ContentState) :
    ∃ response, part.functionResponse = some response ∧ partStep toJSONString s part =
      { s with messages := s.messages ++
        [resultMessage toJSONString (callId s.toolCalls.length) response] } := by
  obtain ⟨response, hresponse⟩ := Option.ne_none_iff_exists'.mp h.functionResponse
  refine ⟨response, hresponse, ?_⟩
  unfold partStep
  rw [if_neg (not_not.mpr h.text), h.inlineData, h.fileData, h.functionCall, hresponse]
  rfl

/-- Texts and responses: the responses become messages, all with one id. -/
theorem exec_partStep {parts : List (GeminiRequestPart α)}
    (h : ∀ part ∈ parts, IsText part ∨ IsResponse part) (s : ContentState) :
    exec (partStep toJSONString) s parts =
      { s with
        messages := s.messages ++ (parts.filterMap functionResponse).map
          (resultMessage toJSONString (callId s.toolCalls.length))
        mediaContents := s.mediaContents ++ ((parts.map text).filter (· ≠ "")).map .text } := by
  induction parts generalizing s with
  | nil => simp
  | cons part parts ih =>
    obtain ⟨hpart, hparts⟩ := forall_mem_cons.mp h
    rw [exec_cons, ih hparts]
    rcases hpart with htext | hresponse
    · have hsplit : ((part :: parts).map text).filter (· ≠ "") =
          [part.text].filter (· ≠ "") ++ (parts.map text).filter (· ≠ "") := by
        rw [map_cons, ← singleton_append, filter_append]
      rw [partStep_isText htext, filterMap_cons_none htext.functionResponse, hsplit, map_append,
        ← append_assoc]
    · obtain ⟨response, hsome, hstep⟩ := partStep_isResponse hresponse s
      rw [hstep, filterMap_cons_some hsome, map_cons, map_cons, hresponse.text]
      simp

/-! ### Ids of calls -/

theorem parseToolCalls_contentMessage (role : ChatRole) (s : ContentState) :
    (contentMessage role s).parseToolCalls = s.toolCalls := by
  unfold contentMessage
  by_cases hcalls : s.toolCalls = []
  · rw [if_neg (not_not.mpr hcalls), hcalls]
    split <;> rfl
  · rw [if_pos hcalls]
    rfl

/-- The ids of calls count from one. -/
def CountsFromOne (calls : List ToolCallRequest) : Prop :=
  ∀ call ∈ calls, ∃ n, call.id = callId (n + 1)

theorem messageCalls_append (messages' : List Message) :
    messageCalls (messages ++ messages') = messageCalls messages ++ messageCalls messages' :=
  flatMap_append

variable {s : ContentState}

theorem countsFromOne_partStep
    (h : CountsFromOne (messageCalls s.messages) ∧ CountsFromOne s.toolCalls)
    (part : GeminiRequestPart α) :
    CountsFromOne (messageCalls (partStep toJSONString s part).messages) ∧
      CountsFromOne (partStep toJSONString s part).toolCalls := by
  unfold partStep
  split_ifs
  · exact h
  · split
    · exact h
    · exact h
    · refine ⟨h.1, forall_mem_append.mpr ⟨h.2, forall_mem_singleton.mpr ⟨_, rfl⟩⟩⟩
    · refine ⟨?_, h.2⟩
      rw [messageCalls_append]
      exact forall_mem_append.mpr ⟨h.1, fun call hcall => absurd hcall not_mem_nil⟩
    · exact h

variable {messages : List Message} {message : Message} {content : GeminiContent α}

theorem countsFromOne_contentStep (h : CountsFromOne (messageCalls messages)) :
    CountsFromOne (messageCalls (contentStep toJSONString messages content)) := by
  have hinit : CountsFromOne ({ messages := messages } : ContentState).toolCalls :=
    fun call hcall => absurd hcall not_mem_nil
  -- within one content the calls are numbered from one
  have hparts := exec_invariant
    (fun s part (hs : CountsFromOne (messageCalls s.messages) ∧ CountsFromOne s.toolCalls) =>
      @countsFromOne_partStep α toJSONString s hs part)
    (s := { messages := messages }) ⟨h, hinit⟩ content.parts
  unfold contentStep
  dsimp only
  split_ifs
  · rw [messageCalls_append]
    refine forall_mem_append.mpr ⟨hparts.1, ?_⟩
    show CountsFromOne (messageCalls [_])
    rw [messageCalls, flatMap_singleton, parseToolCalls_contentMessage]
    exact hparts.2
  · exact hparts.1

theorem countsFromOne_exec (contents : List (GeminiContent α)) :
    CountsFromOne (messageCalls (exec (contentStep toJSONString) [] contents)) :=
  exec_invariant
    (fun messages _ (h : CountsFromOne (messageCalls messages)) => countsFromOne_contentStep h)
    (fun _ hcall => absurd hcall not_mem_nil) contents

theorem callId_zero_ne (n : Nat) : callId 0 ≠ callId (n + 1) := by
  intro h
  have hprinted : toString 0 = toString (n + 1) := (String.append_right_inj "call_").mp h
  exact absurd (Text.toString_inj hprinted) (by omega)

/-! ### Messages that stay -/

theorem mem_partStep (h : message ∈ s.messages) :
    message ∈ (partStep toJSONString s part).messages := by
  unfold partStep
  split_ifs
  · exact h
  · split
    · exact h
    · exact h
    · exact h
    · exact mem_append_left _ h
    · exact h

theorem mem_exec_partStep (h : message ∈ s.messages) (parts : List (GeminiRequestPart α)) :
    message ∈ (exec (partStep toJSONString) s parts).messages := by
  have hstep : ∀ (s : ContentState) (part : GeminiRequestPart α), message ∈ s.messages →
      message ∈ (partStep toJSONString s part).messages := fun s part hs => mem_partStep hs
  exact exec_invariant hstep h parts

theorem mem_contentStep_of_parts
    (h : message ∈ (exec (partStep toJSONString) { messages := messages } content.parts).messages) :
    message ∈ contentStep toJSONString messages content := by
  unfold contentStep
  dsimp only
  split_ifs
  · exact mem_append_left _ h
  · exact h

theorem mem_contentStep (h : message ∈ messages) :
    message ∈ contentStep toJSONString messages content :=
  mem_contentStep_of_parts (mem_exec_partStep h content.parts)

theorem mem_exec_contentStep (h : message ∈ messages) (contents : List (GeminiContent α)) :
    message ∈ exec (contentStep toJSONString) messages contents :=
  exec_invariant (fun messages _ (hm : message ∈ messages) => mem_contentStep hm) h contents

variable {contents : List (GeminiContent α)}

/-- A response in a content of the user is bound to an id that no call has. -/
theorem exists_unbound (h : Conversation contents)
    (hresponse : contents.flatMap contentResponses ≠ []) :
    ∃ message ∈ exec (contentStep toJSONString) messages contents, message.role = .tool ∧
      message.toolCallId = callId 0 := by
  obtain ⟨response, hmem⟩ := exists_mem_of_ne_nil _ hresponse
  obtain ⟨content, hcontent, hin⟩ := mem_flatMap.mp hmem
  obtain ⟨part, hpart, hsome⟩ := mem_filterMap.mp hin
  -- a response comes in a content of the user
  have huser : ∀ part ∈ content.parts, IsText part ∨ IsResponse part := by
    rcases h.speakers content hcontent with ⟨-, hmodel⟩ | ⟨-, huser⟩
    · rcases hmodel part hpart with htext | hcall
      · exact absurd (hsome.symm.trans htext.functionResponse) (by simp)
      · exact absurd (hsome.symm.trans hcall.functionResponse) (by simp)
    · exact huser
  obtain ⟨before, after, rfl⟩ := append_of_mem hcontent
  refine ⟨resultMessage toJSONString (callId 0) response, ?_, rfl, rfl⟩
  rw [exec_append, exec_cons]
  refine mem_exec_contentStep (mem_contentStep_of_parts ?_) after
  rw [exec_partStep huser]
  exact mem_append_right _ (mem_map_of_mem hin)

/-! ### Contents of texts -/

theorem contentStep_texts (h : ∀ part ∈ content.parts, IsText part)
    (hrole : content.role = .model ∨ content.role = .user) :
    ∃ added : List Message, contentStep toJSONString messages content = messages ++ added ∧
      messageCalls added = [] ∧ toolMessages added = [] ∧
        messageTexts added = contentTexts content := by
  have hnone : content.parts.filterMap functionResponse = [] :=
    filterMap_eq_nil_iff.mpr fun part hpart => (h part hpart).functionResponse
  have hexec := @exec_partStep α toJSONString content.parts (fun part hpart => .inl (h part hpart))
    { messages := messages }
  rw [hnone, map_nil, append_nil, nil_append] at hexec
  have hspeaker : convertGeminiRoleToOpenAI content.role ≠ .tool := by
    rcases hrole with hmodel | huser
    · rw [hmodel]
      decide
    · rw [huser]
      decide
  unfold contentStep
  rw [hexec]
  dsimp only
  cases htexts : contentTexts content with
  | nil =>
    refine ⟨[], ?_, rfl, rfl, rfl⟩
    have hmedia : ((content.parts.map text).filter (· ≠ "")).map MediaContent.text = [] := by
      rw [map_eq_nil_iff]
      exact htexts
    rw [hmedia, append_nil]
    simp [contentMessage, parseContent]
  | cons text texts =>
    have hmedia : ((content.parts.map GeminiRequestPart.text).filter (· ≠ "")).map
        MediaContent.text = .text text :: texts.map .text := by
      rw [← map_cons]
      exact congrArg _ htexts
    rw [hmedia]
    -- a single text is the content itself
    rcases texts with _ | ⟨next, texts⟩
    all_goals
      refine ⟨[_], if_pos ?_, ?_, ?_, ?_⟩
      · simp [contentMessage, parseContent]
      · simp [messageCalls, contentMessage, parseToolCalls]
      · simp [toolMessages, contentMessage, hspeaker]
      · simp [messageTexts, contentMessage, hspeaker, parseContent]

theorem exec_texts
    (h : ∀ content ∈ contents, (∀ part ∈ content.parts, IsText part) ∧
      (content.role = .model ∨ content.role = .user))
    (messages : List Message) :
    ∃ added : List Message, exec (contentStep toJSONString) messages contents = messages ++ added ∧
      messageCalls added = [] ∧ toolMessages added = [] ∧
        messageTexts added = contents.flatMap contentTexts := by
  induction contents generalizing messages with
  | nil => exact ⟨[], (append_nil messages).symm, rfl, rfl, rfl⟩
  | cons content contents ih =>
    obtain ⟨⟨hparts, hrole⟩, hrest⟩ := forall_mem_cons.mp h
    obtain ⟨first, hstep, hcalls, htools, htexts⟩ := contentStep_texts hparts hrole
    obtain ⟨others, hexec, hcalls', htools', htexts'⟩ := ih hrest (messages ++ first)
    refine ⟨first ++ others, ?_, ?_, ?_, ?_⟩
    · rw [exec_cons, hstep, hexec, append_assoc]
    · rw [messageCalls_append, hcalls, hcalls', append_nil]
    · unfold toolMessages at htools htools' ⊢
      rw [filter_append, htools, htools', append_nil]
    · unfold messageTexts at htexts htexts' ⊢
      rw [filter_append, flatMap_append, htexts, htexts', flatMap_cons]

/-- Without calls there are only texts. -/
theorem Conversation.only_texts (h : Conversation contents)
    (hcalls : contents.flatMap contentCalls = []) :
    ∀ content ∈ contents, (∀ part ∈ content.parts, IsText part) ∧
      (content.role = .model ∨ content.role = .user) := by
  have hresponses : contents.flatMap contentResponses = [] := by
    have hanswered := h.answered
    rw [hcalls] at hanswered
    exact length_eq_zero_iff.mp hanswered
  intro content hcontent
  have hnoCall : ∀ part ∈ content.parts, part.functionCall = none :=
    filterMap_eq_nil_iff.mp (flatMap_eq_nil_iff.mp hcalls content hcontent)
  have hnoResponse : ∀ part ∈ content.parts, part.functionResponse = none :=
    filterMap_eq_nil_iff.mp (flatMap_eq_nil_iff.mp hresponses content hcontent)
  rcases h.speakers content hcontent with ⟨hrole, hparts⟩ | ⟨hrole, hparts⟩
  · refine ⟨fun part hpart => (hparts part hpart).resolve_right fun hcall => ?_, .inl hrole⟩
    exact hcall.functionCall (hnoCall part hpart)
  · refine ⟨fun part hpart => (hparts part hpart).resolve_right fun hresponse => ?_, .inr hrole⟩
    exact hresponse.functionResponse (hnoResponse part hpart)

/-- For all conversations in which each call is answered later: after the system message, the
results are bound to their calls and the texts are kept exactly if there is no call. -/
theorem results_bound_iff (toJSONString : α → String) (request : GeminiChatRequest α)
    (h : Conversation request.contents) :
    ∃ messages, geminiGenerateContentRequestToOpenAIChat toJSONString request =
      systemMessages request ++ messages ∧
      (Bound toJSONString request.contents messages ↔
        request.contents.flatMap contentCalls = []) := by
  refine ⟨_, rfl, fun hbound => ?_, fun hcalls => ?_⟩
  · -- a response gets the number of calls in its own content, which has none
    by_contra hcalls
    have hresponses : request.contents.flatMap contentResponses ≠ [] := by
      intro hnone
      have hanswered := h.answered
      rw [hnone] at hanswered
      exact hcalls (length_eq_zero_iff.mp hanswered.symm)
    obtain ⟨message, hmessage, htool, hid⟩ := exists_unbound h hresponses
    have hresult : (message.toolCallId, message.stringContent) ∈
        ((messageCalls (exec (contentStep toJSONString) [] request.contents)).map
          ToolCallRequest.id).zip
          ((request.contents.flatMap contentResponses).map fun response =>
              toJSONString response.payload) := by
      rw [← hbound.results]
      exact mem_map_of_mem (mem_filter.mpr ⟨hmessage, decide_eq_true htool⟩)
    obtain ⟨call, hcall, hcallId⟩ := mem_map.mp (of_mem_zip hresult).1
    obtain ⟨n, hn⟩ := countsFromOne_exec request.contents call hcall
    exact callId_zero_ne n (hid.symm.trans (hcallId.symm.trans hn))
  · obtain ⟨added, hexec, hnoCalls, hnoTools, htexts⟩ := exec_texts (h.only_texts hcalls) []
    rw [nil_append] at hexec
    rw [hexec]
    refine ⟨?_, ?_, ?_, ?_⟩
    · rw [hnoCalls]
      exact nodup_nil
    · rw [hnoCalls, hcalls]
      rfl
    · rw [hnoTools, hnoCalls]
      rfl
    · rw [htexts]

/-- A greeting. -/
def greeting : GeminiChatRequest String where
  contents := [⟨.user, [{ text := "hello" }]⟩, ⟨.model, [{ text := "hi" }, { text := "there" }]⟩]

theorem conversation_greeting : Conversation greeting.contents := by
  have htext : ∀ text, IsText ({ text := text } : GeminiRequestPart String) :=
    fun _ => ⟨rfl, rfl, rfl, rfl⟩
  refine ⟨?_, ?_, rfl⟩
  · refine forall_mem_cons.mpr ⟨.inr ⟨rfl, ?_⟩, forall_mem_singleton.mpr (.inl ⟨rfl, ?_⟩)⟩
    · exact forall_mem_singleton.mpr (.inl (htext _))
    · exact forall_mem_cons.mpr ⟨.inl (htext _), forall_mem_singleton.mpr (.inl (htext _))⟩
  · intro before content after heq
    have hnone : ∀ content ∈ greeting.contents, contentResponses content = [] := by decide
    have hstart : (before ++ [content]).flatMap contentResponses = [] := by
      refine flatMap_eq_nil_iff.mpr fun c hc => hnone c ?_
      rw [heq, ← singleton_append, ← append_assoc]
      exact mem_append_left _ hc
    rw [hstart]
    exact Nat.zero_le _

theorem results_bound_greeting :
    Conversation greeting.contents ∧ greeting.contents.flatMap contentCalls = [] ∧
      ∃ messages, geminiGenerateContentRequestToOpenAIChat id greeting = [] ++ messages ∧
        (Bound id greeting.contents messages ↔ greeting.contents.flatMap contentCalls = []) :=
  ⟨conversation_greeting, rfl, results_bound_iff id greeting conversation_greeting⟩

/-- One call and its response. -/
def oneCall : List (GeminiContent String) :=
  [⟨.model, [{ functionCall := some ⟨"weather", "\x7b\x7d"⟩ }]⟩,
    ⟨.user, [{ functionResponse := some ⟨"weather", "sunny"⟩ }]⟩]

def afterOneCall : List Message :=
  [{ role := .assistant, toolCalls := some [⟨"call_1", "weather", "\x7b\x7d"⟩] },
    { role := .tool, toolCallId := "call_0", content := .text "sunny" }]

theorem conversation_oneCall : Conversation oneCall := by
  refine ⟨?_, ?_, rfl⟩
  · refine forall_mem_cons.mpr ⟨.inl ⟨rfl, ?_⟩, forall_mem_singleton.mpr (.inr ⟨rfl, ?_⟩)⟩
    · exact forall_mem_singleton.mpr (.inr ⟨rfl, rfl, rfl, nofun, rfl⟩)
    · exact forall_mem_singleton.mpr (.inr ⟨rfl, rfl, rfl, rfl, nofun⟩)
  · -- no response comes before its call
    intro before content after heq
    match before, heq with
    | [], heq =>
      cases heq
      exact Nat.le_refl 0
    | [_], heq =>
      cases heq
      exact Nat.le_refl 1
    | _ :: _ :: before, heq =>
      have hlength := congrArg List.length heq
      simp [oneCall] at hlength

/-- The result of the call `call_1` says that it is the result of `call_0`. -/
theorem result_bound_to_nothing :
    Conversation oneCall ∧ geminiGenerateContentRequestToOpenAIChat id { contents := oneCall } =
      afterOneCall ∧ ¬ Bound id oneCall afterOneCall := by
  refine ⟨conversation_oneCall, by decide, fun hbound => ?_⟩
  exact absurd hbound.results (by decide)

end GeminiRequestToChat
