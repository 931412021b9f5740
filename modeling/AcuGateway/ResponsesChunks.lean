/-
What a client has read of a Responses stream that is converted to chat chunks.

The converter and its client are looked at together, as one state.

* `reads_textDelta`, `reads_reasoningDelta`, `reads_toolDelta` — the state after each kind of
  chunk;
* `Linked` — the tool calls of the client are those of the converter, one by one, with
  `Linked.known` and `Linked.new` for a delta to one of them;
* `flushAllPendingTools_quiet` — the end of a stream in which nothing waits.
-/
import AcuGateway.ChatAnswer
import AcuGateway.ResponsesToolNames

open List ChatStreamDelta Emitter Option ResponsesStreamTool
open Text (byteLen)
open ResponsesToChatStreamState

/-- The converter and its client. -/
abbrev ChatLink := ResponsesToChatStreamState × ChatAnswer

/-- A step of the converter, whose chunks the client reads. -/
def readChunks (f : ChatStep) : ChatLink → ChatLink := reads ChatAnswer.add f

@[simp] theorem readChunks_seq (f g : ChatStep) (p : ChatLink) :
    readChunks (f.seq g) p = readChunks g (readChunks f p) := reads_seq f g p

@[simp] theorem readChunks_modify (h : ResponsesToChatStreamState → ResponsesToChatStreamState)
    (p : ChatLink) : readChunks (.modify h) p = (h p.1, p.2) := rfl

@[simp] theorem readChunks_emitFrom
    (f : ResponsesToChatStreamState → List ChatCompletionsStreamResponse) (p : ChatLink) :
    readChunks (.emitFrom f) p = (p.1, (f p.1).foldl ChatAnswer.add p.2) := rfl

@[simp] theorem readChunks_nothing (p : ChatLink) : readChunks (.emit []) p = p := rfl

variable {f : ChatStep} {s s' : ResponsesToChatStreamState} {tools : List AnswerTool}
  {call : ToolCallResponse}

/-- Two steps that end in the same state with the same chunks. -/
theorem readChunks_congr {g : ChatStep} (h : f s = g s')
    (a : ChatAnswer) : readChunks f (s, a) = readChunks g (s', a) := by
  simp only [readChunks, reads, h]

theorem readChunks_silent (h : f s = (s', [])) (a : ChatAnswer) :
    readChunks f (s, a) = (s', a) := by
  simp [readChunks, reads, h]

/-! ### Text and reasoning -/

/-- The answer once its role has arrived. -/
def ChatAnswer.started (a : ChatAnswer) (sentStart : Bool) : ChatAnswer :=
  if sentStart then a else { a with roles := a.roles ++ ["assistant"] }

@[simp] theorem started_fields (a : ChatAnswer) (sentStart : Bool) :
    (a.started sentStart).text = a.text ∧ (a.started sentStart).reasoning = a.reasoning ∧
      (a.started sentStart).tools = a.tools ∧
      (a.started sentStart).finishReasons = a.finishReasons := by
  unfold ChatAnswer.started
  split <;> exact ⟨rfl, rfl, rfl, rfl⟩

theorem reads_ensureStart (a : ChatAnswer) :
    readChunks ensureStart (s, a) = ({ s with sentStart := true }, a.started s.sentStart) := by
  cases hstart : s.sentStart with
  | true =>
    have hs : { s with sentStart := true } = s := by rw [← hstart]
    simp [readChunks, reads, ensureStart, ChatAnswer.started, hstart, hs]
  | false =>
    simp [readChunks, reads, ensureStart, ChatAnswer.started, hstart, ChatAnswer.add,
      makeChunk, getContentString, getReasoningContent]

/-- A chunk with a delta that has no role. -/
theorem add_makeChunk (a : ChatAnswer) (delta : ChatStreamDelta)
    (hrole : delta.role = "") :
    a.add (s.makeChunk delta none) =
      { a with
        text := a.text ++ delta.getContentString
        reasoning := a.reasoning ++ delta.getReasoningContent
        tools := delta.toolCalls.foldl addToolCall a.tools } :=
  a.add_delta _ delta rfl hrole

section

variable {delta : String} (hdelta : delta ≠ "") (s : ResponsesToChatStreamState)

include hdelta

theorem reads_textDelta (a : ChatAnswer) : readChunks (textDelta delta) (s, a) =
      ({ s with usageText := s.usageText ++ delta, hasSentText := true, sentStart := true },
        { a.started s.sentStart with text := a.text ++ delta }) := by
  rw [textDelta, if_neg hdelta, readChunks_seq, readChunks_seq, readChunks_modify,
    reads_ensureStart]
  simp [add_makeChunk, getContentString, getReasoningContent]

/-- After a summary that is done, the delta begins with a break. -/
theorem reads_reasoningDelta_sent (a : ChatAnswer) : readChunks (reasoningDelta delta) (s, a) =
      let sent := if s.needsReasoningSummaryBreak then withSummaryBreak delta else delta
      ({ s with
          needsReasoningSummaryBreak := false
          usageText := s.usageText ++ sent
          hasSentReasoning := true
          sentStart := true },
        { a.started s.sentStart with reasoning := a.reasoning ++ sent }) := by
  have hseq : reasoningDelta delta s = seq _ _ s := if_neg hdelta
  rw [readChunks_congr hseq, readChunks_seq, readChunks_seq, readChunks_modify, reads_ensureStart]
  simp [add_makeChunk, getContentString, getReasoningContent]

theorem reads_reasoningDelta (hbreak : s.needsReasoningSummaryBreak = false) (a : ChatAnswer) :
    readChunks (reasoningDelta delta) (s, a) =
      ({ s with usageText := s.usageText ++ delta, hasSentReasoning := true, sentStart := true },
        { a.started s.sentStart with reasoning := a.reasoning ++ delta }) := by
  rw [reads_reasoningDelta_sent hdelta]
  simp [hbreak]

end

/-! ### Deltas for tool calls -/

/-- Nothing of the tool call is left to send. -/
def ResponsesStreamTool.Quiet (tool : ResponsesStreamTool) (explicitDelta : String) : Prop :=
  tool.sent = true ∧ (tool.argsDelta explicitDelta).1 = "" ∧ (tool.name = "" ∨ tool.nameSent = true)

variable {tool : ResponsesStreamTool}

/-- A tool call of which nothing was sent sends all its arguments. -/
theorem argsDelta_fresh (h : tool.argsSentAt = 0) :
    tool.argsDelta "" = (tool.arguments, byteLen tool.arguments) := by
  by_cases hargs : tool.arguments = ""
  · simp [argsDelta, h, hargs]
  · have hpos := Text.byteLen_pos hargs
    simp [argsDelta, h, hpos]

variable {a : ChatAnswer} {n : Nat} {explicitDelta : String}

section

variable (hn : s.tools[n]? = some tool)

include hn

theorem toolDelta_quiet (h : tool.Quiet explicitDelta) : toolDelta n explicitDelta s = (s, []) := by
  simp only [toolDelta, hn]
  exact if_pos h

theorem reads_toolDelta_quiet (h : tool.Quiet explicitDelta) :
    readChunks (toolDelta n explicitDelta) (s, a) = (s, a) := by
  rw [readChunks_silent (toolDelta_quiet hn h)]

theorem reads_toolDelta (h : ¬ tool.Quiet explicitDelta) :
    readChunks (toolDelta n explicitDelta) (s, a) =
      let response := tool.response (tool.argsDelta explicitDelta).1
      ({ s.modifyTool n (·.settle (tool.argsDelta explicitDelta).2) with
          sentStart := true
          sawToolCall := true
          usageText := s.usageText ++ (tool.argsDelta explicitDelta).1 ++ response.function.name },
        { a.started s.sentStart with tools := addToolCall a.tools response }) := by
  have hseq : toolDelta n explicitDelta s = seq ensureStart (seq (.emitFrom fun s =>
          [s.makeChunk { toolCalls := [tool.response (tool.argsDelta explicitDelta).1] } none])
        (.modify fun s =>
          { s.modifyTool n (·.settle (tool.argsDelta explicitDelta).2) with
            usageText := s.usageText ++ (tool.argsDelta explicitDelta).1 ++
              (tool.response (tool.argsDelta explicitDelta).1).function.name
            sawToolCall := true })) s := by
    simp only [toolDelta, hn]
    exact if_neg h
  rw [readChunks_congr hseq, readChunks_seq, reads_ensureStart]
  simp [add_makeChunk, getContentString, getReasoningContent, modifyTool]

end

/-! ### What tool calls leave alone -/

/-- The role has been sent once or not at all. -/
def Begun (p : ChatLink) : Prop := p.2.roles = if p.1.sentStart then ["assistant"] else []

theorem Begun.started (h : Begun (s, a)) : (a.started s.sentStart).roles = ["assistant"] := by
  unfold Begun at h
  cases hstart : s.sentStart <;> simp_all [ChatAnswer.started]

/-- Between `p` and `p'` there were tool calls only. -/
structure OnlyTools (p p' : ChatLink) : Prop where
  hasSentText : p'.1.hasSentText = p.1.hasSentText
  hasSentReasoning : p'.1.hasSentReasoning = p.1.hasSentReasoning
  summaryBreak : p'.1.needsReasoningSummaryBreak = p.1.needsReasoningSummaryBreak
  finalized : p'.1.finalized = p.1.finalized
  text : p'.2.text = p.2.text
  reasoning : p'.2.reasoning = p.2.reasoning
  finishReasons : p'.2.finishReasons = p.2.finishReasons
  begun : Begun p → Begun p'

/-- `s'` knows the tool calls of `s` under the same names, and the same arguments wait. -/
def SameNames (s s' : ResponsesToChatStreamState) : Prop := s'.nameMaps = s.nameMaps

namespace SameNames

variable (h : SameNames s s')

include h

theorem named : s'.named = s.named := congrArg (·.named) h

theorem toolAt : s'.toolAt = s.toolAt := congrArg (·.toolAt) h

theorem toolOfOutput : s'.toolOfOutput = s.toolOfOutput := congrArg (·.toolOfOutput) h

theorem toolOfItem : s'.toolOfItem = s.toolOfItem := congrArg (·.toolOfItem) h

theorem outputs : s'.pendingArgsByOutputIndex = s.pendingArgsByOutputIndex :=
  congrArg (·.pendingArgsByOutputIndex) h

theorem items : s'.pendingArgsByItemID = s.pendingArgsByItemID := congrArg (·.pendingArgsByItemID) h

theorem noDangling (hd : s.NoDangling) : s'.NoDangling := by
  have hd' : s'.nameMaps.NoDangling := h ▸ ⟨hd.output, hd.item, hd.call⟩
  exact ⟨hd'.output, hd'.item, hd'.call⟩

end SameNames

variable {p p' : ChatLink}

theorem OnlyTools.trans {p'' : ChatLink} (h : OnlyTools p p') (h' : OnlyTools p' p'') :
    OnlyTools p p'' :=
  ⟨h'.hasSentText.trans h.hasSentText, h'.hasSentReasoning.trans h.hasSentReasoning,
    h'.summaryBreak.trans h.summaryBreak, h'.finalized.trans h.finalized, h'.text.trans h.text,
    h'.reasoning.trans h.reasoning, h'.finishReasons.trans h.finishReasons,
    fun hbegun => h'.begun (h.begun hbegun)⟩

theorem OnlyTools.of_flags (h : s'.flags = s.flags) (a : ChatAnswer) :
    OnlyTools (s, a) (s', a) := by
  have hfield : ∀ {β : Type} (g : ResponsesToChatStreamState → β), g s'.flags = g s.flags :=
    fun g => congrArg g h
  refine ⟨hfield (·.hasSentText), hfield (·.hasSentReasoning),
    hfield (·.needsReasoningSummaryBreak), hfield (·.finalized), rfl, rfl, rfl, fun hbegun => ?_⟩
  have hstart : s'.sentStart = s.sentStart := hfield (·.sentStart)
  unfold Begun at hbegun ⊢
  rw [hstart]
  exact hbegun

section

variable (n : Nat) (explicitDelta : String) (s : ResponsesToChatStreamState) (a : ChatAnswer)

/-- A delta for a tool call changes nothing, or one tool call. -/
theorem reads_toolDelta_cases : readChunks (toolDelta n explicitDelta) (s, a) = (s, a) ∨
      ∃ (f : ResponsesStreamTool → ResponsesStreamTool) (usageText : String)
        (tools : List AnswerTool),
        readChunks (toolDelta n explicitDelta) (s, a) =
          ({ s.modifyTool n f with sentStart := true, sawToolCall := true, usageText },
            { a.started s.sentStart with tools }) := by
  cases hn : s.tools[n]? with
  | none =>
    have hnothing : toolDelta n explicitDelta s = (s, []) := by simp only [toolDelta, hn]
    exact .inl (readChunks_silent hnothing a)
  | some tool =>
    by_cases hq : tool.Quiet explicitDelta
    · exact .inl (reads_toolDelta_quiet hn hq)
    · exact .inr ⟨_, _, _, reads_toolDelta hn hq⟩

theorem reads_toolDelta_only : OnlyTools (s, a) (readChunks (toolDelta n explicitDelta) (s, a)) ∧
      SameNames s (readChunks (toolDelta n explicitDelta) (s, a)).1 := by
  rcases reads_toolDelta_cases n explicitDelta s a with h | ⟨f, usageText, tools, h⟩ <;> rw [h]
  · exact ⟨.of_flags rfl a, rfl⟩
  · refine ⟨⟨rfl, rfl, rfl, rfl, by simp, by simp, by simp, fun hbegun => ?_⟩, rfl⟩
    show (a.started s.sentStart).roles = _
    rw [hbegun.started]
    rfl

theorem reads_toolDelta_length :
    (readChunks (toolDelta n explicitDelta) (s, a)).1.tools.length = s.tools.length := by
  rcases reads_toolDelta_cases n explicitDelta s a with h | ⟨f, usageText, tools, h⟩ <;> rw [h]
  exact length_modify ..

theorem reads_toolDelta_saw (hsaw : s.sawToolCall = true) :
    (readChunks (toolDelta n explicitDelta) (s, a)).1.sawToolCall = true := by
  rcases reads_toolDelta_cases n explicitDelta s a with h | ⟨f, usageText, tools, h⟩ <;> rw [h]
  exact hsaw

end

/-- The tool calls of an answer have the numbers of their places. -/
def Numbered (tools : List AnswerTool) : Prop :=
  ∀ (n : Nat) (u : AnswerTool), tools[n]? = some u → u.index = n

theorem addToolCall_next (h : Numbered tools) (hcall : call.index = some (tools.length : Int)) :
    addToolCall tools call = tools ++ [AnswerTool.add { index := tools.length } call] := by
  rw [addToolCall_new, hcall, getD_some]
  intro u hu
  obtain ⟨n, hn⟩ := mem_iff_getElem?.mp hu
  obtain ⟨hlt, -⟩ := List.getElem?_eq_some_iff.mp hn
  rw [h n u hn, hcall, getD_some]
  omega

variable {u : AnswerTool}

theorem addToolCall_at (h : Numbered tools) (hu : tools[n]? = some u)
    (hcall : call.index = some (n : Int)) :
    addToolCall tools call = tools.modify n (·.add call) := by
  rw [addToolCall_known (mem_of_getElem? hu) (by rw [hcall, h n u hu, getD_some])]
  refine ext_getElem? fun m => ?_
  rw [getElem?_map, getElem?_modify, hcall, getD_some]
  cases hm : tools[m]? with
  | none => rfl
  | some v =>
    have hindex : v.index = n ↔ n = m := by
      rw [h m v hm]
      omega
    simp [hindex]

theorem getElem?_concat_cases {α : Type} {l : List α} {x y : α} {m : Nat}
    (h : (l ++ [x])[m]? = some y) :
    l[m]? = some y ∨ m = l.length ∧ y = x := by
  rw [getElem?_append] at h
  split at h
  · exact .inl h
  · rename_i hlt
    rw [getElem?_singleton] at h
    split at h
    · exact .inr ⟨by omega, (some.inj h).symm⟩
    · cases h

/-- The tool calls of the converter and those of the client, one by one, and what they are in each
place. -/
structure Linked (T : Nat → ResponsesStreamTool → AnswerTool → Prop) (p : ChatLink) : Prop where
  length : p.2.tools.length = p.1.tools.length
  each : ∀ (n : Nat) tool u, p.1.tools[n]? = some tool → p.2.tools[n]? = some u →
    tool.index = n ∧ u.index = n ∧ T n tool u

theorem linked_new (T : Nat → ResponsesStreamTool → AnswerTool → Prop) (model : String)
    (includeUsage : Bool) (now : Int) :
    Linked T (newResponsesToChatStreamState model includeUsage now, {}) :=
  ⟨rfl, nofun⟩

namespace Linked

variable {T T' : Nat → ResponsesStreamTool → AnswerTool → Prop}

theorem of_tools (h : Linked T p) (htools : p'.1.tools = p.1.tools)
    (htools' : p'.2.tools = p.2.tools) : Linked T p' := by
  obtain ⟨hlength, heach⟩ := h
  exact ⟨by rw [htools, htools', hlength], by rwa [htools, htools']⟩

section

variable (h : Linked T (s, a))

include h

theorem imp (hT : ∀ n tool u, T n tool u → T' n tool u) : Linked T' (s, a) where
  length := h.length
  each n tool u htool hu := (h.each n tool u htool hu).imp_right (.imp_right (hT n tool u))

theorem exists_client (hn : s.tools[n]? = some tool) :
    ∃ u, a.tools[n]? = some u ∧ tool.index = n ∧ T n tool u := by
  obtain ⟨hlt, -⟩ := List.getElem?_eq_some_iff.mp hn
  have hu := getElem?_eq_getElem (h.length ▸ hlt : n < a.tools.length)
  obtain ⟨hplace, -, hT⟩ := h.each n tool _ hn hu
  exact ⟨_, hu, hplace, hT⟩

theorem numbered : Numbered a.tools := by
  intro n u hu
  obtain ⟨hlt, -⟩ := List.getElem?_eq_some_iff.mp hu
  have hn := getElem?_eq_getElem (h.length.symm ▸ hlt : n < s.tools.length)
  exact (h.each n _ u hn hu).2.1

variable {a' : ChatAnswer} {f : ResponsesStreamTool → ResponsesStreamTool}

/-- Both sides of one tool call change. -/
theorem modify (hn : s.tools[n]? = some tool) {g : AnswerTool → AnswerTool}
    (hf : (f tool).index = tool.index) (hg : ∀ u, (g u).index = u.index)
    (hT : ∀ u, T n tool u → T' n (f tool) (g u))
    (hother : ∀ m, n ≠ m → ∀ tool u, T m tool u → T' m tool u)
    (hs' : s'.tools = s.tools.modify n f) (ha' : a'.tools = a.tools.modify n g) :
    Linked T' (s', a') where
  length := by simp [hs', ha', h.length]
  each := by
    intro m t u ht hu
    simp only [hs', getElem?_modify, Option.map_eq_map, map_eq_some_iff] at ht
    simp only [ha', getElem?_modify, Option.map_eq_map, map_eq_some_iff] at hu
    obtain ⟨t', ht', rfl⟩ := ht
    obtain ⟨u', hu', rfl⟩ := hu
    obtain ⟨hplace, hnumber, hpair⟩ := h.each m t' u' ht' hu'
    by_cases hmn : n = m
    · subst hmn
      rw [hn, Option.some.injEq] at ht'
      subst ht'
      simpa [hf, hg] using ⟨hplace, hnumber, hT u' hpair⟩
    · simpa [hmn] using ⟨hplace, hnumber, hother m hmn t' u' hpair⟩

/-- A tool call more on both sides. -/
theorem concat {t : ResponsesStreamTool}
    (ht : t.index = s.tools.length) (hu : u.index = s.tools.length) (hT : T' s.tools.length t u)
    (hold : ∀ m < s.tools.length, ∀ tool u, T m tool u → T' m tool u)
    (hs' : s'.tools = s.tools ++ [t]) (ha' : a'.tools = a.tools ++ [u]) : Linked T' (s', a') where
  length := by simp [hs', ha', h.length]
  each := by
    intro m t' v ht' hv
    rw [hs'] at ht'
    rw [ha'] at hv
    have hlength : a.tools.length = s.tools.length := h.length
    rcases getElem?_concat_cases ht' with ht' | ⟨rfl, rfl⟩
    · obtain ⟨hlt, -⟩ := List.getElem?_eq_some_iff.mp ht'
      rw [getElem?_append_left (hlength ▸ hlt)] at hv
      exact (h.each m t' v ht' hv).imp_right (.imp_right (hold m hlt t' v))
    · rw [← hlength, getElem?_concat_length, Option.some.injEq] at hv
      exact ⟨ht, hv ▸ hu, hv ▸ hT⟩

/-- A delta for a tool call that the client knows. -/
theorem known (hn : s.tools[n]? = some tool) (hf : (f tool).index = tool.index)
    (hs' : s'.tools = s.tools.modify n f)
    (hquiet : (f tool).Quiet explicitDelta → ∀ u, T n tool u → T' n (f tool) u)
    (hsends : ¬ (f tool).Quiet explicitDelta → ∀ u, T n tool u →
      T' n ((f tool).settle ((f tool).argsDelta explicitDelta).2)
        (u.add ((f tool).response ((f tool).argsDelta explicitDelta).1)))
    (hother : ∀ m, n ≠ m → ∀ tool u, T m tool u → T' m tool u) :
    Linked T' (readChunks (toolDelta n explicitDelta) (s', a)) := by
  have hn' : s'.tools[n]? = some (f tool) := by simp [hs', hn]
  -- a quiet tool sends nothing, and the client keeps what it has
  by_cases hq : (f tool).Quiet explicitDelta
  · rw [reads_toolDelta_quiet hn' hq]
    exact h.modify hn hf (g := id) (fun _ => rfl) (hquiet hq) hother hs' (by simp)
  · obtain ⟨u, hu, hplace, -⟩ := h.exists_client hn
    have hcall : ((f tool).response ((f tool).argsDelta explicitDelta).1).index =
        some (n : Int) := by
      rw [ResponsesStreamTool.response, hf, hplace]
    rw [reads_toolDelta hn' hq]
    have hsettled : ((f tool).settle ((f tool).argsDelta explicitDelta).2).index = tool.index := by
      rw [settle_index, hf]
    refine h.modify hn (f := fun t => (f t).settle ((f tool).argsDelta explicitDelta).2) hsettled
      (g := fun u => u.add ((f tool).response ((f tool).argsDelta explicitDelta).1))
      (fun u => u.add_index _) (hsends hq) hother ?_ (addToolCall_at h.numbered hu hcall)
    simp only [modifyTool, hs', modify_modify_eq]
    rfl

end

section

variable (h : Linked T (s, a)) (htool : tool.index = s.tools.length) (hsent : tool.sent = false)
  (hs' : s'.tools = s.tools ++ [tool])

include h htool hsent hs'

/-- The first delta for a new tool call. -/
theorem reads_new (explicitDelta : String) :
    let p := readChunks (toolDelta s.tools.length explicitDelta) (s', a)
    p.1.tools = s.tools ++ [tool.settle (tool.argsDelta explicitDelta).2] ∧ p.1.sawToolCall = true ∧
      p.2.tools = a.tools ++ [AnswerTool.add { index := s.tools.length }
        (tool.response (tool.argsDelta explicitDelta).1)] := by
  have hn' : s'.tools[s.tools.length]? = some tool := by simp [hs']
  have hq : ¬ tool.Quiet explicitDelta := fun hq => by
    rw [Quiet, hsent] at hq
    exact Bool.false_ne_true hq.1
  have hlength : a.tools.length = s.tools.length := h.length
  rw [reads_toolDelta hn' hq]
  refine ⟨?_, rfl, ?_⟩
  · show s'.tools.modify s.tools.length _ = _
    rw [hs', modify_concat]
  · show addToolCall a.tools _ = _
    rw [addToolCall_next h.numbered (by rw [ResponsesStreamTool.response, htool, hlength]), hlength]

theorem new (hT : T' s.tools.length (tool.settle (tool.argsDelta explicitDelta).2)
      (AnswerTool.add { index := s.tools.length } (tool.response (tool.argsDelta explicitDelta).1)))
    (hold : ∀ m < s.tools.length, ∀ tool u, T m tool u → T' m tool u) :
    Linked T' (readChunks (toolDelta s.tools.length explicitDelta) (s', a)) := by
  obtain ⟨htools, -, htools'⟩ := h.reads_new htool hsent hs' explicitDelta
  exact h.concat (t := tool.settle (tool.argsDelta explicitDelta).2) htool rfl hT hold
    htools htools'

end

end Linked

/-! ### The end of a stream -/

section Quiet

/-- Nothing waits, and nothing is left to send. -/
structure AllQuiet (s : ResponsesToChatStreamState) : Prop where
  outputs : s.pendingArgsByOutputIndex = ∅
  items : s.pendingArgsByItemID = ∅
  tools : ∀ key n, s.toolByKey.lookup key = some n → ∃ tool, s.tools[n]? = some tool ∧ tool.Quiet ""

theorem takePending_nothing {key : ToolKey} (hitems : s.pendingArgsByItemID = ∅)
    (houtputs : ∀ i, key = .output i → s.pendingArgsByOutputIndex.lookup i = none) :
    takePending key n s = s := by
  cases key with
  | output i =>
    have herase := Dict.erase_of_lookup_none (houtputs i rfl)
    simp [takePending, houtputs i rfl, herase, modifyTool]
  | item itemID =>
    have hs : { s with pendingArgsByItemID := ∅ } = s := by rw [← hitems]
    simpa [takePending, hitems, modifyTool] using hs
  | call callID => rfl

theorem flushKey_quiet (h : AllQuiet s) {key : ToolKey} (hkey : s.toolByKey.lookup key = some n) :
    flushKey key s = (s, []) := by
  obtain ⟨tool, hn, hq⟩ := h.tools key n hkey
  have hpending : takePending key n s = s :=
    takePending_nothing h.items fun i _ => by rw [h.outputs]; rfl
  simp only [flushKey, openToolAt, hkey, hpending]
  exact toolDelta_quiet hn hq

theorem flushAllPendingTools_quiet (h : AllQuiet s) : flushAllPendingTools s = (s, []) := by
  have hkeys : ∀ key ∈ flushKeys s, flushKey key s = (s, []) := by
    intro key hkey
    -- nothing waits, so only tools are flushed
    have hmem : key ∈ s.toolByKey.keys := by
      simpa [flushKeys, h.outputs, h.items] using hkey
    obtain ⟨n, hn⟩ := Dict.mem_keys_iff.mp hmem
    exact flushKey_quiet h hn
  have hrun : ∀ keys : List ToolKey, (∀ key ∈ keys, flushKey key s = (s, [])) →
      (Transducer.final flushKey s keys, Transducer.outputs flushKey s keys) = (s, []) := by
    intro keys hall
    induction keys with
    | nil => rfl
    | cons key keys ih =>
      obtain ⟨hkey, hrest⟩ := forall_mem_cons.mp hall
      rw [Transducer.outputs_cons, hkey]
      show (Transducer.final flushKey (flushKey key s).1 keys, _) = _
      rw [hkey]
      exact ih hrest
  exact hrun _ hkeys

theorem finalize_open (hopen : s.finalized = false) (response : Option OpenAIResponsesResponse) :
    finalize response s = seq (.modify fun s => { s with finalized := true })
      (seq flushAllPendingTools
        (seq ensureStart (.emitFrom fun s =>
          s.makeChunk {} (some (finishReasonOf response s)) :: usageChunk s))) s := by
  simp [finalize, hopen]

theorem reads_finalize_quiet (h : AllQuiet s) (hopen : s.finalized = false) (a : ChatAnswer)
    (response : Option OpenAIResponsesResponse) :
    readChunks (finalize response) (s, a) = ({ s with finalized := true, sentStart := true },
        { a.started s.sentStart with
          finishReasons := a.finishReasons ++ [finishReasonOf response s] }) := by
  have hquiet : AllQuiet { s with finalized := true } := ⟨h.outputs, h.items, h.tools⟩
  have hflush : readChunks flushAllPendingTools ({ s with finalized := true }, a) =
      ({ s with finalized := true }, a) := by
    rw [readChunks_silent (flushAllPendingTools_quiet hquiet)]
  have husage : ∀ (s : ResponsesToChatStreamState) (a : ChatAnswer),
      (usageChunk s).foldl ChatAnswer.add a = a := by
    intro s a
    unfold usageChunk
    split <;> rfl
  rw [readChunks_congr (finalize_open hopen response), readChunks_seq, readChunks_modify,
    readChunks_seq, hflush, readChunks_seq, reads_ensureStart, readChunks_emitFrom,
    foldl_cons, husage]
  simp [ChatAnswer.add, makeChunk, getContentString, getReasoningContent, finishReasonOf]

end Quiet
