/-
A chat stream converted to a Responses stream and back.

The two converters and the client run in step: what the first one has collected, the second one
and its client have too.

* `ToolsHeld` — the tool calls that the first converter has opened, in the second converter
  and at the client;
* `Mirrored` — the whole simulation, kept by every kind of delta and by the end of the answer;
* `chat_round_trip` — the client has the text, the reasoning, the tool calls and the finish reason
  of the stream.
-/
import AcuGateway.ChatToResponses
import AcuGateway.ResponsesReplay

open List ResponsesStreamTool Emitter Transducer Option Run
open Text (trimSpace)
open ResponsesToChatStreamState
open ChatToResponsesStreamState (nextIndex)

/-! ### One tool call -/

/-- The client has the tool call. -/
structure Mirrors (tool : ResponsesStreamTool) (u : AnswerTool) :
    Prop extends ArgumentsSent tool u where
  id : u.id = tool.callID
  name : u.name = tool.name
  nameSent : tool.nameSent = decide (tool.name ≠ "")
  trimmed : trimSpace tool.callID = tool.callID ∧ tool.callID ≠ ""

/-- The tool call has more arguments, and it may have got its name. -/
structure Completes (rest : String) (tool tool' : ResponsesStreamTool) :
    Prop extends Grows rest tool tool' where
  callID : tool'.callID = tool.callID
  nameSent : tool'.nameSent = tool.nameSent
  name : tool'.name = tool.name ∨ tool.name = ""

open ResponsesStreamTool (settle_callID settle_name settle_nameSent)

variable {rest explicitDelta : String}

namespace Mirrors

variable {tool tool' : ResponsesStreamTool} {u : AnswerTool}

section

variable (h : Mirrors tool u) (hgrows : Completes rest tool tool')
  (hdelta : explicitDelta = "" ∨ explicitDelta = rest)

include h hgrows hdelta

theorem sends : Mirrors (tool'.settle (tool'.argsDelta explicitDelta).2)
      (u.add (tool'.response (tool'.argsDelta explicitDelta).1)) where
  toArgumentsSent := h.toArgumentsSent.sends hgrows.toGrows hdelta
  id := by
    rw [AnswerTool.add_id, settle_callID]
    simp [ResponsesStreamTool.response, hgrows.callID, h.trimmed.1, h.trimmed.2, h.id]
  name := by
    rw [AnswerTool.add_name, settle_name]
    -- the name is sent once, with the first delta that knows it
    by_cases hempty : tool.name = ""
    · simp [ResponsesStreamTool.response, hgrows.nameSent, h.nameSent, h.name, hempty]
    · have hsame : tool'.name = tool.name := hgrows.name.resolve_right hempty
      simp [ResponsesStreamTool.response, hgrows.nameSent, h.nameSent, h.name, hempty, hsame]
  nameSent := by
    rw [settle_nameSent, settle_name]
    by_cases hempty : tool.name = ""
    · simp [hgrows.nameSent, h.nameSent, hempty]
    · have hsame : tool'.name = tool.name := hgrows.name.resolve_right hempty
      simp [hsame, hempty]
  trimmed := by
    rw [settle_callID, hgrows.callID]
    exact h.trimmed

theorem quiet (hq : tool'.Quiet explicitDelta) : Mirrors tool' u := by
  have hsame : tool'.name = tool.name := by
    rcases hgrows.name with hsame | hempty
    · exact hsame
    · rcases hq.2.2 with hnone | hwas
      · rw [hnone, hempty]
      · simp [hgrows.nameSent, h.nameSent, hempty] at hwas
  exact
    { toArgumentsSent := h.toArgumentsSent.quiet hgrows.toGrows hdelta hq
      id := by rw [h.id, hgrows.callID]
      name := by rw [h.name, hsame]
      nameSent := by rw [hgrows.nameSent, h.nameSent, hsame]
      trimmed := by rw [hgrows.callID]; exact h.trimmed }

end

theorem new (hat : tool.argsSentAt = 0) (hsent : tool.nameSent = false)
    (htrimmed : trimSpace tool.callID = tool.callID ∧ tool.callID ≠ "") (index : Int) :
    Mirrors (tool.settle (tool.argsDelta "").2)
      (AnswerTool.add { index } (tool.response (tool.argsDelta "").1)) where
  toArgumentsSent := ArgumentsSent.new hat index
  id := by
    rw [AnswerTool.add_id, settle_callID]
    simp [ResponsesStreamTool.response, htrimmed.1, htrimmed.2]
  name := by
    rw [AnswerTool.add_name, settle_name]
    simp [ResponsesStreamTool.response, hsent]
  nameSent := by simp [settle, hsent]
  trimmed := htrimmed

/-- Nothing is left to send. -/
theorem isQuiet (h : Mirrors tool u) : tool.Quiet "" := by
  refine ⟨h.sent, ?_, ?_⟩
  · rw [argsDelta_more (String.append_empty).symm h.sentAt (.inl rfl)]
  · rw [h.nameSent]
    by_cases hname : tool.name = "" <;> simp [hname]

end Mirrors

/-! ### The tool calls of a stream -/

variable {t : ChatToResponsesStreamTool} {event : ResponsesStreamResponse}

namespace ChatToResponsesStreamTool

def names (t : ChatToResponsesStreamTool) : CallNames := ⟨t.outputIndex, t.id, t.id⟩

/-- No blanks around the id and the name. -/
structure Trimmed (t : ChatToResponsesStreamTool) : Prop where
  id : trimSpace t.id = t.id ∧ t.id ≠ ""
  name : trimSpace t.name = t.name

/-- The names that an item of the tool call gives. -/
theorem Trimmed.gives (h : t.Trimmed)
    {item : ResponsesOutput} (hitem : event.item = some item) (hid : item.id = t.id)
    (hcall : item.callId = t.id)
    (houtput : event.outputIndex = some t.outputIndex ∨ event.outputIndex = none) :
    eventItem event = some t.id ∧ itemCall item = some t.id ∧
      ∃ key, (keyForEvent event <|> fallbackToolKey item.id item.callId event.outputIndex) =
        some key ∧ t.names.Gives event.outputIndex (eventItem event) (itemCall item) key := by
  have hevent : eventItem event = some t.id := by
    simp [eventItem, responseStreamEventItemID, hitem, hid, h.id.1, h.id.2]
  have hcallID : itemCall item = some t.id := by
    simp [itemCall, hcall, h.id.1, h.id.2]
  obtain ⟨key, hkey, hhas⟩ : ∃ key, (keyForEvent event <|> fallbackToolKey item.id item.callId
      event.outputIndex) = some key ∧ t.names.HasKey key := by
    rcases houtput with hsome | hnone
    · exact ⟨.output t.outputIndex, by simp [keyForEvent, hsome], rfl⟩
    · refine ⟨.item t.id, ?_, rfl⟩
      simp [keyForEvent, hnone, hitem, fallbackToolKey, hid, h.id.1, h.id.2]
  refine ⟨hevent, hcallID, key, hkey, ?_⟩
  rw [hevent, hcallID]
  exact CallNames.gives_of houtput.symm hhas

/-- The item with which a tool call is announced. -/
def addedItem (t : ChatToResponsesStreamTool) : ResponsesOutput :=
  { type := .functionCall
    id := t.id
    status := "in_progress"
    callId := t.id
    name := t.name
    arguments := .str "" }

/-- An item of the tool call brings its name at most. -/
theorem Trimmed.meets (h : t.Trimmed) {tool : ResponsesStreamTool} {item : ResponsesOutput}
    (hevent : eventItem event = some t.id) (hcall : itemCall item = some t.id)
    (hitem : item.name = t.name) (hname : tool.name = t.name ∨ tool.name = "")
    (hargs : item.argumentsString = "" ∨ item.argumentsString = tool.arguments) :
    (tool.meet event item "").full item =
      { tool with itemID := t.id, callID := t.id, name := t.name } := by
  have hmeet : (if trimSpace item.name ≠ "" then trimSpace item.name else tool.name) = t.name := by
    rw [hitem, h.name]
    rcases hname with hsame | hnone
    · rw [hsame, ite_self]
    · by_cases hempty : t.name = "" <;> simp [hempty, hnone]
  have hfull : (if item.argumentsString ≠ "" then item.argumentsString else tool.arguments) =
      tool.arguments := by
    rcases hargs with hnone | hsame
    · exact if_neg (not_not_intro hnone)
    · rw [hsame, ite_self]
  simp [full_eq, meet, hevent, hcall, hmeet, hfull]

/-- The second converter has the tool call, apart from a name that came late. -/
structure Held (t : ChatToResponsesStreamTool) (tool : ResponsesStreamTool) : Prop where
  callID : tool.callID = t.id
  arguments : tool.arguments = t.arguments
  name : tool.name = t.name ∨ (tool.name = "" ∧ t.done = false)

/-- What is sent makes no difference. -/
theorem Held.settle {tool : ResponsesStreamTool} (h : t.Held tool) (argsSentAt : Nat) :
    t.Held (tool.settle argsSentAt) := ⟨h.callID, h.arguments, h.name⟩

/-- The names under which the second converter finds the tool call. -/
def foundNames (t : ChatToResponsesStreamTool) : List ToolName :=
  [.output t.outputIndex, .key (.output t.outputIndex), .item t.id]

end ChatToResponsesStreamTool

open ChatToResponsesStreamTool

open ChatToResponsesStreamTool
  (names foundNames Trimmed Held addedItem add_chatIndex add_outputIndex
  add_name add_arguments add_done)

/-- The second converter and its client have the tool calls `ts`. -/
structure ToolsHeld (ts : List ChatToResponsesStreamTool) (p : ChatLink) : Prop where
  registered : Registered (ts.map names) p.1
  found : ∀ (n : Nat) t, ts[n]? = some t → ∀ name ∈ t.foundNames, p.1.named name = some n
  linked : Linked (fun n tool u => ∃ t, ts[n]? = some t ∧ t.Held tool ∧ Mirrors tool u) p
  trimmed : ∀ t ∈ ts, t.Trimmed
  outputs : p.1.pendingArgsByOutputIndex = ∅
  items : p.1.pendingArgsByItemID = ∅
  sawToolCall : p.1.sawToolCall = decide (ts ≠ [])

variable {ts : List ChatToResponsesStreamTool} {t' : ChatToResponsesStreamTool} {n : Nat}
  {s : ResponsesToChatStreamState} {a : ChatAnswer} {p p' : ChatLink}

namespace ToolsHeld

variable {s' : ResponsesToChatStreamState}

theorem map_set_same {β : Type} {g : ChatToResponsesStreamTool → β} (hn : ts[n]? = some t)
    (hg : g t' = g t) :
    (ts.set n t').map g = ts.map g := by
  obtain ⟨hlt, hget⟩ := List.getElem?_eq_some_iff.mp hn
  have hname : (ts.map g).get ⟨n, by simpa using hlt⟩ = g t := by simp [hget]
  rw [map_set, hg, ← hname]
  exact set_getElem_self _

theorem tool_of_place (h : ToolsHeld ts p) (hn : ts[n]? = some t) :
    ∃ tool u, p.1.tools[n]? = some tool ∧ p.2.tools[n]? = some u ∧ t.Held tool ∧
      Mirrors tool u := by
  obtain ⟨hlt, -⟩ := List.getElem?_eq_some_iff.mp hn
  have hlength : ts.length = p.1.tools.length := by simpa using h.registered.length
  have htool := getElem?_eq_getElem (hlength ▸ hlt : n < p.1.tools.length)
  obtain ⟨u, hu, -, t', ht', hheld, hmirrors⟩ := h.linked.exists_client htool
  rw [hn, Option.some.injEq] at ht'
  exact ⟨_, u, htool, hu, ht' ▸ hheld, hmirrors⟩

theorem getElem?_set_cases {m : Nat} {t₁ : ChatToResponsesStreamTool} (hn : ts[n]? = some t)
    (hm : (ts.set n t')[m]? = some t₁) : (m = n ∧ t₁ = t') ∨ ts[m]? = some t₁ := by
  obtain ⟨hlt, -⟩ := List.getElem?_eq_some_iff.mp hn
  by_cases hnm : n = m
  · subst hnm
    rw [getElem?_set_self hlt, Option.some.injEq] at hm
    exact .inl ⟨rfl, hm.symm⟩
  · rw [getElem?_set_ne hnm] at hm
    exact .inr hm

/-- The names in each place stay what they were. -/
theorem found_set (h : ToolsHeld ts p) (hn : ts[n]? = some t) (hnames : t'.names = t.names)
    (hkeeps : KeepsNames p.1 s') (m : Nat) (t₁ : ChatToResponsesStreamTool)
    (hm : (ts.set n t')[m]? = some t₁) : ∀ name ∈ t₁.foundNames, s'.named name = some m := by
  obtain ⟨t₀, ht₀, hsame⟩ : ∃ t₀, ts[m]? = some t₀ ∧ t₁.names = t₀.names := by
    rcases getElem?_set_cases hn hm with ⟨rfl, rfl⟩ | hm'
    · exact ⟨t, hn, hnames⟩
    · exact ⟨t₁, hm', rfl⟩
  intro name hname
  rw [foundNames, show t₁.outputIndex = t₀.outputIndex from congrArg CallNames.output hsame,
    show t₁.id = t₀.id from congrArg CallNames.itemID hsame] at hname
  exact hkeeps name m (h.found m t₀ ht₀ name hname)

theorem same (h : ToolsHeld ts p) (hp' : Apart p p') : ToolsHeld ts p' where
  registered := h.registered.same hp'.names (by rw [hp'.tools])
  found := by
    rw [hp'.names.named]
    exact h.found
  linked := h.linked.of_tools hp'.tools hp'.answered
  trimmed := h.trimmed
  outputs := hp'.names.outputs.trans h.outputs
  items := hp'.names.items.trans h.items
  sawToolCall := hp'.sawToolCall.trans h.sawToolCall

/-- A delta for a tool call changes it to `t'`. -/
theorem update (h : ToolsHeld ts (s, a)) (hn : ts[n]? = some t) (hnames : t'.names = t.names)
    (htrimmed : t'.Trimmed) (hdelta : explicitDelta = "" ∨ explicitDelta = rest)
    {f : ResponsesStreamTool → ResponsesStreamTool}
    (hf : ∀ tool, t.Held tool → Completes rest tool (f tool) ∧ t'.Held (f tool))
    (hs' : s'.tools = s.tools.modify n f)
    (hregistered : Registered (ts.map names) s') (hkeeps : KeepsNames s s')
    (houtputs : s'.pendingArgsByOutputIndex = ∅) (hitems : s'.pendingArgsByItemID = ∅)
    (hsaw : s'.sawToolCall = s.sawToolCall) :
    ToolsHeld (ts.set n t') (readChunks (toolDelta n explicitDelta) (s', a)) := by
  obtain ⟨tool, -, htool, -, hold, -⟩ := h.tool_of_place hn
  obtain ⟨hgrows, hheld⟩ := hf tool hold
  obtain ⟨hlt, -⟩ := List.getElem?_eq_some_iff.mp hn
  obtain ⟨-, hsame⟩ := reads_toolDelta_only n explicitDelta s' a
  have hne : ts ≠ [] := ne_nil_of_mem (mem_of_getElem? hn)
  refine ⟨?_, ?_, ?_, ?_, hsame.outputs.trans houtputs, hsame.items.trans hitems, ?_⟩
  · rw [map_set_same hn hnames]
    exact hregistered.after_toolDelta n explicitDelta a
  · exact h.found_set hn hnames (hkeeps.trans hsame.keeps)
  · -- this tool gets the delta, the other ones keep what they have
    refine h.linked.known htool hgrows.index hs' (fun hq u hu => ?_) (fun _ u hu => ?_)
      fun m hm tool u hu => ?_
    · obtain ⟨-, -, -, hu⟩ := hu
      exact ⟨t', getElem?_set_self hlt, hheld, hu.quiet hgrows hdelta hq⟩
    · obtain ⟨-, -, -, hu⟩ := hu
      exact ⟨t', getElem?_set_self hlt, hheld.settle _, hu.sends hgrows hdelta⟩
    · obtain ⟨t₁, ht₁, hu⟩ := hu
      exact ⟨t₁, (getElem?_set_ne hm).trans ht₁, hu⟩
  · intro t₁ ht₁
    rcases mem_or_eq_of_mem_set ht₁ with hmem | rfl
    · exact h.trimmed t₁ hmem
    · exact htrimmed
  · have hbefore : s'.sawToolCall = true := by
      rw [hsaw, show s.sawToolCall = _ from h.sawToolCall]
      simpa using hne
    rw [reads_toolDelta_saw n explicitDelta s' a hbefore]
    simpa using hne

/-- A name that comes late waits until its item is done. -/
theorem relabel (h : ToolsHeld ts p) (hn : ts[n]? = some t) (hnames : t'.names = t.names)
    (htrimmed : t'.Trimmed) (hheld : ∀ tool, t.Held tool → t'.Held tool) :
    ToolsHeld (ts.set n t') p where
  registered := by
    rw [map_set_same hn hnames]
    exact h.registered
  found := h.found_set hn hnames (KeepsNames.refl _)
  linked := by
    refine h.linked.imp ?_
    rintro m tool u ⟨t₁, ht₁, hold, hmirrors⟩
    -- only the note of what the writer holds changes
    by_cases hmn : n = m
    · subst hmn
      obtain ⟨hlt, -⟩ := List.getElem?_eq_some_iff.mp hn
      rw [hn, Option.some.injEq] at ht₁
      exact ⟨t', getElem?_set_self hlt, hheld tool (ht₁ ▸ hold), hmirrors⟩
    · exact ⟨t₁, (getElem?_set_ne hmn).trans ht₁, hold, hmirrors⟩
  trimmed := by
    intro t₁ ht₁
    rcases mem_or_eq_of_mem_set ht₁ with hmem | rfl
    · exact h.trimmed t₁ hmem
    · exact htrimmed
  outputs := h.outputs
  items := h.items
  sawToolCall := by
    rw [h.sawToolCall]
    simp

theorem quiet (h : ToolsHeld ts (s, a)) (hn : ts[n]? = some t) :
    ∃ tool, s.tools[n]? = some tool ∧ tool.Quiet "" := by
  obtain ⟨tool, u, htool, -, -, hu⟩ := h.tool_of_place hn
  exact ⟨tool, htool, hu.isQuiet⟩

theorem nothing_waits (h : ToolsHeld ts (s, a)) (event : ResponsesStreamResponse) :
    waitingFor event s = "" :=
  waitingFor_eq_empty event h.outputs h.items

theorem trimmed_at (h : ToolsHeld ts p) (hn : ts[n]? = some t) : t.Trimmed :=
  h.trimmed t (mem_of_getElem? hn)

section

variable (h : ToolsHeld ts (s, a)) (hn : ts[n]? = some t)

include h hn

/-- An event without an item finds its tool call. -/
theorem finds (hitem : event.item = none) (houtput : event.outputIndex = some t.outputIndex) :
    findToolForEvent event s = some n := by
  have hof : s.toolOfOutput t.outputIndex = some n :=
    h.found n t hn (.output t.outputIndex) (by simp [foundNames])
  rw [findToolForEvent_eq h.registered.noDangling hitem, houtput]
  simp [hof]

/-- A delta of the arguments. -/
theorem delta (hnames : t'.names = t.names)
    (htrimmed : t'.Trimmed) {arguments : String} (hargs : t'.arguments = t.arguments ++ arguments)
    (hname : t'.name = t.name ∨ (t.name = "" ∧ t'.done = false)) (hdone : t'.done = t.done) :
    ToolsHeld (ts.set n t')
      ((argumentsEvents t' arguments).foldl (fun p event => readChunks (convertEvent event) p)
        (s, a)) := by
  have hheld : ∀ tool, t.Held tool →
      t'.Held { tool with arguments := tool.arguments ++ arguments } := by
    intro tool hold
    refine ⟨hold.callID.trans (congrArg CallNames.itemID hnames).symm,
      by rw [hargs, hold.arguments], ?_⟩
    -- a name that comes late is not read before the item is done
    rcases hname with hsame | ⟨hempty, hopen⟩
    · rw [hsame, hdone]
      exact hold.name
    · refine .inr ⟨?_, hopen⟩
      rcases hold.name with hsame | ⟨hnone, -⟩
      · exact hsame.trans hempty
      · exact hnone
  by_cases hempty : arguments = ""
  · rw [argumentsEvents, if_neg (by simpa using hempty)]
    refine h.relabel hn hnames htrimmed fun tool hold => ?_
    have := hheld tool hold
    rwa [hempty, String.append_empty] at this
  · have hoi : t'.outputIndex = t.outputIndex := congrArg CallNames.output hnames
    rw [argumentsEvents, if_pos hempty, foldl_cons, foldl_nil, convertEvent_delta rfl]
    -- the reader finds the tool by its output index
    have hdelta : ∀ event : ResponsesStreamResponse, event.item = none →
        event.outputIndex = some t.outputIndex → event.delta = arguments →
        toolArgumentsDelta event s = toolDelta n arguments (s.modifyTool n (more arguments)) := by
      intro event hitem houtput hevent
      simp [toolArgumentsDelta, h.finds hn hitem houtput, hevent, hempty]
    rw [readChunks_congr (hdelta _ rfl (congrArg some hoi) rfl)]
    have hlength : (s.modifyTool n (more arguments)).tools.length = s.tools.length := by
      simp [modifyTool]
    have hsame : SameNames s (s.modifyTool n (more arguments)) := rfl
    exact h.update (f := more arguments) hn hnames htrimmed (.inr rfl)
      (fun tool hold => ⟨⟨⟨rfl, rfl, rfl⟩, rfl, rfl, .inl rfl⟩, hheld tool hold⟩)
        rfl (h.registered.same hsame hlength)
      hsame.keeps h.outputs h.items rfl

/-- The end of the arguments, which are all sent. -/
theorem argumentsDone (htype : event.type = .functionArgsDone) (hitem : event.item = none)
    (houtput : event.outputIndex = some t.outputIndex) :
    readChunks (convertEvent event) (s, a) = (s, a) := by
  obtain ⟨tool, htool, hquiet⟩ := h.quiet hn
  have hflush : flushPendingTool event s = (s, []) := by
    simp only [flushPendingTool, h.finds hn hitem houtput]
    exact toolDelta_quiet htool hquiet
  rw [convertEvent_flush (by rw [htype]; rfl), readChunks_silent hflush]

/-- An item that has the whole tool call. -/
theorem item {status : ResponsesStatus} (hitem : event.item = some (toolOutput t status))
    (houtput : event.outputIndex = some t.outputIndex ∨ event.outputIndex = none) :
    ToolsHeld (ts.set n { t with done := true })
      (readChunks (toolItem event (toolOutput t status)) (s, a)) := by
  have htrimmed := h.trimmed_at hn
  obtain ⟨hevent, hcall, key, hkey, hgives⟩ := htrimmed.gives hitem rfl rfl houtput
  have hplace : (ts.map names)[n]? = some t.names := by rw [getElem?_map, hn, map_some]
  -- whatever the item finds is its own tool call, and it finds that by its id
  have hfor : toolFor event (toolOutput t status) key s = some n := by
    cases hfound : toolFor event (toolOutput t status) key s with
    | none =>
      have hof : s.toolOfItem t.id = some n := h.found n t hn (.item t.id) (by simp [foundNames])
      simp [toolFor, hevent, hof] at hfound
    | some m =>
      obtain ⟨c, hc, hclash⟩ := h.registered.toolFor_clashes hgives hfound
      rw [h.registered.own m n c t.names hc hplace hclash]
  obtain ⟨m, s', hstep, hmet⟩ := toolItem_met h.registered.noDangling hkey
  rw [readChunks_congr hstep]
  obtain ⟨rfl, htools⟩ := hmet.known hfor
  obtain ⟨hregistered, hkeeps⟩ := h.registered.known hplace hmet.names hgives (by simp [htools])
  obtain ⟨houtputs, hitems⟩ := hmet.nothing_waits h.outputs h.items
  have hmeet : ∀ tool, t.Held tool →
      (tool.meet event (toolOutput t status) (waitingFor event s)).full (toolOutput t status) =
        { tool with itemID := t.id, callID := t.id, name := t.name } := by
    intro tool hold
    rw [h.nothing_waits event]
    exact htrimmed.meets hevent hcall rfl (hold.name.imp_right And.left) (.inr hold.arguments.symm)
  have htrimmed' : Trimmed { t with done := true } := ⟨htrimmed.id, htrimmed.name⟩
  have hflags : s'.flags.sawToolCall = s.flags.sawToolCall := by rw [hmet.flags]
  have hnames : names { t with done := true } = t.names := rfl
  refine h.update hn hnames htrimmed' (.inr rfl) (fun tool hold => ?_) htools hregistered hkeeps
    houtputs hitems hflags
  simp only [hmeet tool hold]
  refine ⟨⟨⟨(String.append_empty).symm, rfl, rfl⟩, hold.callID.symm, rfl, ?_⟩,
    ⟨rfl, hold.arguments, .inl rfl⟩⟩
  rcases hold.name with hsame | ⟨hnone, -⟩
  · exact .inl hsame.symm
  · exact .inr hnone

end

/-- A new tool call. -/
theorem added (h : ToolsHeld ts (s, a)) (htrimmed : t.Trimmed) (harguments : t.arguments = "")
    (hfresh : ∀ t₀ ∈ ts, ¬ t₀.names.Clashes t.names) :
    ToolsHeld (ts ++ [t]) (readChunks (convertEvent (toolAdded t)) (s, a)) := by
  have hitem : (toolAdded t).item = some (addedItem t) := rfl
  obtain ⟨hevent, hcall, key, hkey, hgives⟩ := htrimmed.gives hitem rfl rfl (.inl rfl)
  obtain rfl : ToolKey.output t.outputIndex = key := some.inj hkey
  -- no earlier tool shares a name with the new one, so the reader does not find it
  have hfor : toolFor (toolAdded t) (addedItem t) (.output t.outputIndex) s = none := by
    cases hfound : toolFor (toolAdded t) (addedItem t) (.output t.outputIndex) s with
    | none => rfl
    | some m =>
      obtain ⟨c, hc, hclash⟩ := h.registered.toolFor_clashes hgives hfound
      obtain ⟨t₀, ht₀, rfl⟩ := mem_map.mp (mem_of_getElem? hc)
      exact absurd hclash (hfresh t₀ ht₀)
  obtain ⟨m, s', hstep, hmet⟩ := toolItem_met h.registered.noDangling hkey
  rw [convertEvent_item (.inl rfl) hitem rfl, readChunks_congr hstep]
  obtain ⟨rfl, htools⟩ := hmet.new hfor
  obtain ⟨houtputs, hitems⟩ := hmet.nothing_waits h.outputs h.items
  -- nothing waited for it: it starts with what the event says
  obtain ⟨tool, htools, hnew⟩ : ∃ tool : ResponsesStreamTool, s'.tools = s.tools ++ [tool] ∧
      tool = { key := .output t.outputIndex, itemID := t.id, callID := t.id, name := t.name
               index := s.tools.length } := by
    rw [h.nothing_waits, htrimmed.meets hevent hcall rfl (.inr rfl) (.inl rfl)] at htools
    exact ⟨_, htools, rfl⟩
  have hindex : tool.index = s.tools.length := by rw [hnew]
  have hunsent : tool.sent = false := by rw [hnew]
  have hcallID : tool.callID = t.id := by rw [hnew]
  have hlength : s'.tools.length = s.tools.length + 1 := by simp [htools]
  have hfresh' : ∀ c ∈ ts.map names, ¬ c.Clashes t.names := by
    intro c hc
    obtain ⟨t₀, ht₀, rfl⟩ := mem_map.mp hc
    exact hfresh t₀ ht₀
  obtain ⟨hregistered, hkeeps⟩ := h.registered.new hfresh' hmet.names hgives hlength
  obtain ⟨-, hsame⟩ := reads_toolDelta_only s.tools.length "" s' a
  obtain ⟨-, hsaw, -⟩ := h.linked.reads_new hindex hunsent htools ""
  have hplace : ts.length = s.tools.length := by simpa using h.registered.length
  refine ⟨?_, ?_, ?_, ?_, hsame.outputs.trans houtputs, hsame.items.trans hitems, ?_⟩
  · rw [map_append]
    exact hregistered.after_toolDelta _ "" a
  · intro m t₁ hm
    rcases getElem?_concat_cases hm with hm' | ⟨rfl, rfl⟩
    · exact fun name hname => hkeeps.trans hsame.keeps name m (h.found m t₁ hm' name hname)
    · -- the event gives it all the names under which later events look for it
      have hgiven : ∀ name ∈ t₁.foundNames,
          GivenName (toolAdded t₁).outputIndex (eventItem (toolAdded t₁))
          (itemCall (addedItem t₁)) (.output t₁.outputIndex) name := by
        simp only [foundNames, forall_mem_cons]
        exact ⟨rfl, rfl, hevent, forall_mem_nil _⟩
      intro name hname
      rw [hsame.named, hmet.names.given name (hgiven name hname), hplace]
  · refine h.linked.new hindex hunsent htools
      ⟨t, by rw [← hplace]; exact getElem?_concat_length, ?_, ?_⟩ ?_
    · refine Held.settle ⟨hcallID, ?_, .inl ?_⟩ _
      · rw [harguments, hnew]
      · rw [hnew]
    · exact Mirrors.new (by rw [hnew]) (by rw [hnew]) (hcallID ▸ htrimmed.id) _
    · rintro m hm tool₁ u ⟨t₁, ht₁, hu⟩
      exact ⟨t₁, (getElem?_append_left (hplace ▸ hm)).trans ht₁, hu⟩
  · exact forall_mem_append.mpr ⟨h.trimmed, forall_mem_singleton.mpr htrimmed⟩
  · rw [hsaw]
    simp

end ToolsHeld

/-! ### Both converters -/

/-- Both converters and the client. -/
abbrev RelayState := ChatToResponsesStreamState × ChatLink

/-- A step of the first converter, whose events go through the second one to the client. -/
def relay (f : ResponsesStep) : RelayState → RelayState :=
  f.reads fun p event => readChunks (convertEvent event) p

variable {q : RelayState} {f : ResponsesStep} {m m' : ChatToResponsesStreamState} {b : ChatAnswer}

@[simp] theorem relay_seq (g : ResponsesStep) : relay (f.seq g) q = relay g (relay f q) :=
  reads_seq f g q

theorem relay_fst : (relay f q).1 = (f q.1).1 := rfl

theorem relay_congr {g : ResponsesStep} (h : f q.1 = g q.1) : relay f q = relay g q := by
  simp only [relay, reads, h]

theorem relay_modify (f : ChatToResponsesStreamState → ChatToResponsesStreamState) :
    relay (.modify f) q = (f q.1, q.2) := rfl

theorem relay_emitFrom (f : ChatToResponsesStreamState → List ResponsesStreamResponse) :
    relay (.emitFrom f) q =
      (q.1, (f q.1).foldl (fun p event => readChunks (convertEvent event) p) q.2) := rfl

theorem relay_eq {events : List ResponsesStreamResponse} (h : f m = (m', events)) :
    relay f (m, p) = (m', events.foldl (fun p event => readChunks (convertEvent event) p) p) := by
  simp only [relay, reads, h]

/-- What the first converter knows of the tool calls `ts`. -/
structure ToolsOpen (m : ChatToResponsesStreamState)
    (ts : List ChatToResponsesStreamTool) : Prop where
  lookup : ∀ k t, m.toolsByIndex.lookup k = some t ↔ t ∈ ts ∧ t.chatIndex = k
  distinct : (ts.map (·.chatIndex)).Nodup
  below : ∀ t ∈ ts, t.outputIndex < m.nextOutputIndex

/-- The client has the text and the reasoning of `b`. -/
structure TextsMirrored (m : ChatToResponsesStreamState) (b : ChatAnswer)
    (p : ChatLink) : Prop where
  text : p.2.text = b.text
  reasoning : p.2.reasoning = b.reasoning
  hasSentText : p.1.hasSentText = m.textStarted
  hasSentReasoning : p.1.hasSentReasoning = m.reasoningStarted
  summaryBreak : m.reasoningDone = false → p.1.needsReasoningSummaryBreak = false
  message : .message ∈ m.outputOrder → m.textStarted = true
  reasonings : .reasoning ∈ m.outputOrder → m.reasoningStarted = true
  begun : Begun p
  finishReasons : p.2.finishReasons = []
  finalized : p.1.finalized = false

/-- The tool call as the client of the chat stream has it. -/
def ChatToResponsesStreamTool.answer (t : ChatToResponsesStreamTool) : AnswerTool :=
  { index := t.chatIndex, id := t.id, name := t.name, arguments := t.arguments }

/-- `b` is what the chat stream amounts to so far, with the tool calls `ts`. -/
structure Mirrored (ts : List ChatToResponsesStreamTool) (b : ChatAnswer)
    (q : RelayState) : Prop where
  held : ToolsHeld ts q.2
  opened : ToolsOpen q.1 ts
  tools : b.tools = ts.map (·.answer)
  texts : TextsMirrored q.1 b q.2
  unfinished : q.1.finalized = false

theorem OnlyTools.of_toolItem (hd : s.NoDangling)
    (item : ResponsesOutput) : OnlyTools (s, a) (readChunks (toolItem event item) (s, a)) := by
  cases hkey : (keyForEvent event <|> fallbackToolKey item.id item.callId event.outputIndex) with
  | none =>
    have hnothing : toolItem event item s = (s, []) := by
      simp [toolItem, ensureToolForEvent, hkey]
    rw [readChunks_silent hnothing]
    exact .of_flags rfl a
  | some key =>
    obtain ⟨n, s', hstep, hmet⟩ := toolItem_met hd hkey
    rw [readChunks_congr hstep]
    exact (OnlyTools.of_flags hmet.flags a).trans (reads_toolDelta_only n "" s' a).1

theorem OnlyTools.of_arguments : OnlyTools p (readChunks (toolArgumentsDelta event) p) := by
  obtain ⟨s, a⟩ := p
  by_cases hdelta : event.delta = ""
  · have hnothing : toolArgumentsDelta event s = (s, []) := if_pos hdelta
    rw [readChunks_silent hnothing]
    exact .of_flags rfl a
  -- arguments that come before their tool wait, and no flag changes
  cases hfind : findToolForEvent event s with
  | none =>
    have hwait : toolArgumentsDelta event s = (waitForTool event s, []) := by
      simp [toolArgumentsDelta, hdelta, hfind]
    have hflags : (waitForTool event s).flags = s.flags := by
      unfold waitForTool
      cases event.outputIndex with
      | some i => rfl
      | none =>
        by_cases hid : trimSpace event.itemID = ""
        · simp [hid]
        · simp only [ne_eq, hid, not_false_eq_true, if_true]
          rfl
    rw [readChunks_silent hwait]
    exact .of_flags hflags a
  | some n =>
    have hstep : toolArgumentsDelta event s =
        toolDelta n event.delta (s.modifyTool n (more event.delta)) := by
      simp [toolArgumentsDelta, hdelta, hfind]
    have hflags : (s.modifyTool n (more event.delta)).flags = s.flags := rfl
    rw [readChunks_congr hstep]
    exact (OnlyTools.of_flags hflags a).trans (reads_toolDelta_only n _ _ a).1

variable {b' : ChatAnswer}

namespace TextsMirrored

/-- Nothing but tool calls. -/
theorem of_tools (h : TextsMirrored m b p) (hp' : OnlyTools p p')
    (htext : m'.textStarted = m.textStarted) (hreasoning : m'.reasoningStarted = m.reasoningStarted)
    (hdone : m'.reasoningDone = m.reasoningDone)
    (horder : ∀ ref ∈ m'.outputOrder, ref ∈ m.outputOrder ∨ ∃ k, ref = .tool k)
    (hb : b'.text = b.text ∧ b'.reasoning = b.reasoning) : TextsMirrored m' b' p' where
  text := by rw [hp'.text, h.text, hb.1]
  reasoning := by rw [hp'.reasoning, h.reasoning, hb.2]
  hasSentText := by rw [hp'.hasSentText, h.hasSentText, htext]
  hasSentReasoning := by rw [hp'.hasSentReasoning, h.hasSentReasoning, hreasoning]
  summaryBreak := by rw [hp'.summaryBreak, hdone]; exact h.summaryBreak
  -- only tools were added to the order
  message hmem := by
    rcases horder _ hmem with hold | ⟨k, hk⟩
    · rw [htext, h.message hold]
    · cases hk
  reasonings hmem := by
    rcases horder _ hmem with hold | ⟨k, hk⟩
    · rw [hreasoning, h.reasonings hold]
    · cases hk
  begun := hp'.begun h.begun
  finishReasons := by rw [hp'.finishReasons, h.finishReasons]
  finalized := by rw [hp'.finalized, h.finalized]

end TextsMirrored

theorem ToolsOpen.same (h : ToolsOpen m ts)
    (htools : m'.toolsByIndex = m.toolsByIndex) (hnext : m.nextOutputIndex ≤ m'.nextOutputIndex) :
    ToolsOpen m' ts where
  lookup := by rw [htools]; exact h.lookup
  distinct := h.distinct
  below t ht := lt_of_lt_of_le (h.below t ht) hnext

/-- The client learns nothing from the announcement of a message or of reasoning. -/
theorem reads_added_text {item : ResponsesOutput}
    (htype : event.type = .outputItemAdded ∨ event.type = .outputItemDone)
    (hitem : event.item = some item) (htool : isResponsesToolOutputType item.type = false) :
    readChunks (convertEvent event) p = p := by
  have hkind : event.type.toolEvent = some .added ∨ event.type.toolEvent = some .done := by
    rcases htype with h | h <;> rw [h]
    · exact .inl rfl
    · exact .inr rfl
  rw [convertEvent_no_tool hkind (by simpa [hitem] using htool), readChunks_nothing]

theorem convertEvent_text (htype : event.type = .outputTextDelta) :
    convertEvent event = textDelta event.delta := by
  rw [convertEvent, htype]

theorem convertEvent_reasoning (htype : event.type = .reasoningSummaryDelta) :
    convertEvent event = reasoningDelta event.delta := by
  rw [convertEvent, htype]

/-- `m'` may have the item `ref` more than `m`. -/
structure MayOpen (ref : ChatToResponsesOutputRef) (m m' : ChatToResponsesStreamState) : Prop where
  toolsByIndex : m'.toolsByIndex = m.toolsByIndex
  nextOutputIndex : m.nextOutputIndex ≤ m'.nextOutputIndex
  reasoningDone : m'.reasoningDone = m.reasoningDone
  finalized : m'.finalized = m.finalized
  order : ∀ r ∈ m'.outputOrder, r ∈ m.outputOrder ∨ r = ref

theorem MayOpen.refl (ref : ChatToResponsesOutputRef) (m : ChatToResponsesStreamState) :
    MayOpen ref m m :=
  ⟨rfl, le_rfl, rfl, rfl, fun _ h => .inl h⟩

variable {ref : ChatToResponsesOutputRef}

theorem MayOpen.next (htools : m'.toolsByIndex = m.toolsByIndex)
    (hnext : m'.nextOutputIndex = m.nextOutputIndex + 1)
    (hdone : m'.reasoningDone = m.reasoningDone) (hfinalized : m'.finalized = m.finalized)
    (horder : m'.outputOrder = m.outputOrder ++ [ref]) : MayOpen ref m m' :=
  ⟨htools, by omega, hdone, hfinalized, fun r hr => by simpa [horder] using hr⟩

theorem relay_startText :
    ∃ m', relay startText (m, p) = (m', p) ∧ MayOpen .message m m' ∧ m'.textStarted = true ∧
      m'.reasoningStarted = m.reasoningStarted := by
  cases hstarted : m.textStarted with
  | true =>
    have hstart : startText m = (m, []) := if_pos hstarted
    exact ⟨m, relay_eq hstart, .refl _ m, hstarted, rfl⟩
  | false =>
    have hstart : startText m = _ := if_neg (by simp [hstarted])
    refine ⟨_, (relay_eq hstart).trans (Prod.ext rfl ?_), .next rfl rfl rfl rfl rfl, rfl, rfl⟩
    exact reads_added_text (.inl rfl) rfl rfl

theorem relay_startReasoning :
    ∃ m', relay startReasoning (m, p) = (m', p) ∧ MayOpen .reasoning m m' ∧
      m'.reasoningStarted = true ∧ m'.textStarted = m.textStarted := by
  cases hstarted : m.reasoningStarted with
  | true =>
    have hstart : startReasoning m = (m, []) := if_pos hstarted
    exact ⟨m, relay_eq hstart, .refl _ m, hstarted, rfl⟩
  | false =>
    have hstart : startReasoning m = _ := if_neg (by simp [hstarted])
    refine ⟨_, (relay_eq hstart).trans (Prod.ext rfl ?_), .next rfl rfl rfl rfl rfl, rfl, rfl⟩
    exact reads_added_text (.inl rfl) rfl rfl

variable {delta : String}

namespace Mirrored

variable (h : Mirrored ts b (m, p))

include h

theorem created : Mirrored ts b (relay ensureCreated (m, p)) := by
  cases hsent : m.sentCreated with
  | true =>
    have hcreated : ensureCreated m = (m, []) := if_pos hsent
    rw [relay_eq hcreated]
    exact h
  | false =>
    have hcreated : ensureCreated m = ({ m with sentCreated := true },
        [{ type := .created, response := some (createdResponse m) }]) := if_neg (by simp [hsent])
    obtain ⟨s, a⟩ := p
    rw [relay_eq hcreated, foldl_cons, foldl_nil]
    refine ⟨h.held.same (Apart.of_event ⟨rfl, .inl rfl⟩ _), h.opened.same rfl le_rfl, h.tools, ?_,
      h.unfinished⟩
    -- the created event starts the answer
    show TextsMirrored _ b (readChunks ensureStart (applyResponseMetadata _ s, a))
    obtain ⟨htext, hreasoning, hsentText, hsentReasoning, hbreak, hmessage, hreasonings, hbegun,
        hfinish, hopen⟩ :=
      h.texts
    rw [reads_ensureStart]
    exact ⟨(started_fields a _).1.trans htext, (started_fields a _).2.1.trans hreasoning, hsentText,
      hsentReasoning, hbreak, hmessage, hreasonings, hbegun.started,
      (started_fields a _).2.2.2.trans hfinish, hopen⟩

theorem appendText (hdelta : delta ≠ "") :
    Mirrored ts { b with text := b.text ++ delta } (relay (appendTextDelta delta) (m, p)) := by
  obtain ⟨m₁, hstart, hopens, hstarted, hsame⟩ := relay_startText (m := m) (p := p)
  obtain ⟨s, a⟩ := p
  rw [appendTextDelta, relay_seq, hstart, relay_seq, relay_modify, relay_emitFrom, foldl_cons,
    foldl_nil, convertEvent_text rfl]
  refine ⟨h.held.same (Apart.of_textDelta delta _),
    h.opened.same hopens.toolsByIndex hopens.nextOutputIndex, h.tools, ?_,
    hopens.finalized.trans h.unfinished⟩
  obtain ⟨htext, hreasoning, -, hsentReasoning, hbreak, -, hreasonings, hbegun, hfinish, hopen⟩ :=
    h.texts
  rw [reads_textDelta hdelta]
  refine ⟨congrArg (· ++ delta) htext, (started_fields a _).2.1.trans hreasoning, hstarted.symm,
    hsentReasoning.trans hsame.symm, fun hdone => hbreak (hopens.reasoningDone.symm.trans hdone),
    fun _ => hstarted, fun hmem => ?_, hbegun.started,
    (started_fields a _).2.2.2.trans hfinish, hopen⟩
  -- the text is new in the order, the reasoning is not
  rcases hopens.order _ hmem with hold | hnew
  · exact hsame.trans (hreasonings hold)
  · cases hnew

theorem appendReasoning (hdelta : delta ≠ "") (hdone : m.reasoningDone = false) :
    Mirrored ts { b with reasoning := b.reasoning ++ delta }
      (relay (appendReasoningDelta delta) (m, p)) := by
  obtain ⟨m₁, hstart, hopens, hstarted, hsame⟩ := relay_startReasoning (m := m) (p := p)
  obtain ⟨s, a⟩ := p
  rw [appendReasoningDelta, relay_seq, hstart, relay_seq, relay_modify, relay_emitFrom, foldl_cons,
    foldl_nil, convertEvent_reasoning rfl]
  refine ⟨h.held.same (Apart.of_reasoningDelta delta _),
    h.opened.same hopens.toolsByIndex hopens.nextOutputIndex, h.tools, ?_,
    hopens.finalized.trans h.unfinished⟩
  obtain ⟨htext, hreasoning, hsentText, -, hbreak, hmessage, -, hbegun, hfinish, hopen⟩ := h.texts
  rw [reads_reasoningDelta hdelta s (hbreak hdone)]
  refine ⟨(started_fields a _).1.trans htext, congrArg (· ++ delta) hreasoning,
    hsentText.trans hsame.symm, hstarted.symm, fun _ => hbreak hdone, fun hmem => ?_,
    fun _ => hstarted, hbegun.started,
    (started_fields a _).2.2.2.trans hfinish, hopen⟩
  -- the reasoning is new in the order, the text is not
  rcases hopens.order _ hmem with hold | hnew
  · exact hsame.trans (hmessage hold)
  · cases hnew

end Mirrored

/-! ### Tool calls of the chat stream -/

/-- A delta for a tool call: the first one has the id, which no other tool call has; a later one has
the same id or none, and the name of the tool call comes whole. -/
def ToolDeltaFits (tools : List AnswerTool) (call : ToolCallResponse) : Prop :=
  trimSpace call.function.name = call.function.name ∧
    (∀ tool ∈ tools, tool.index = call.index.getD 0 →
      (call.id = "" ∨ call.id = tool.id) ∧
        (call.function.name = "" ∨ tool.name = "" ∨ call.function.name = tool.name)) ∧
    ((∀ tool ∈ tools, tool.index ≠ call.index.getD 0) →
      call.id ≠ "" ∧ trimSpace call.id = call.id ∧ ∀ tool ∈ tools, tool.id ≠ call.id)
deriving Decidable

namespace ToolsOpen

variable {i : Nat}

variable (h : ToolsOpen m ts)

include h

theorem place_unique (hi : ts[i]? = some t') (hn : ts[n]? = some t)
    (hindex : t'.chatIndex = t.chatIndex) : i = n := by
  obtain ⟨hlt, -⟩ := List.getElem?_eq_some_iff.mp hi
  refine (getElem?_inj (by simpa using hlt) h.distinct).mp ?_
  rw [getElem?_map, getElem?_map, hi, hn, map_some, map_some, hindex]

/-- One tool call changes. -/
theorem set (hn : ts[n]? = some t) (hindex : t'.chatIndex = t.chatIndex)
    (houtput : t'.outputIndex = t.outputIndex)
    (htools : m'.toolsByIndex = m.toolsByIndex.insert t.chatIndex t')
    (hnext : m'.nextOutputIndex = m.nextOutputIndex) : ToolsOpen m' (ts.set n t') where
  lookup := by
    intro k t₁
    obtain ⟨hlt, -⟩ := List.getElem?_eq_some_iff.mp hn
    rw [htools, Dict.lookup_insert_of]
    -- the chat index names one tool of the list
    by_cases hk : k = t.chatIndex
    · rw [if_pos hk, Option.some.injEq]
      refine ⟨fun ht₁ => ?_, fun ⟨hmem, hchat⟩ => ?_⟩
      · rw [← ht₁, hindex, hk]
        exact ⟨mem_set hlt t', rfl⟩
      · obtain ⟨i, hi⟩ := mem_iff_getElem?.mp hmem
        rcases ToolsHeld.getElem?_set_cases hn hi with ⟨-, rfl⟩ | hi'
        · rfl
        · obtain rfl := h.place_unique hi' hn (hchat.trans hk)
          rw [getElem?_set_self hlt, Option.some.injEq] at hi
          exact hi
    · rw [if_neg hk, h.lookup]
      refine ⟨fun ⟨hmem, hchat⟩ => ?_, fun ⟨hmem, hchat⟩ => ?_⟩
      · obtain ⟨i, hi⟩ := mem_iff_getElem?.mp hmem
        have hin : n ≠ i := by
          rintro rfl
          rw [hn, Option.some.injEq] at hi
          exact hk (hchat.symm.trans (congrArg _ hi.symm))
        exact ⟨mem_of_getElem? ((getElem?_set_ne hin).trans hi), hchat⟩
      · rcases mem_or_eq_of_mem_set hmem with hold | rfl
        · exact ⟨hold, hchat⟩
        · exact absurd (hchat.symm.trans hindex) hk
  distinct := by
    rw [ToolsHeld.map_set_same hn hindex]
    exact h.distinct
  below := by
    intro t₁ ht₁
    rw [hnext]
    rcases mem_or_eq_of_mem_set ht₁ with hold | rfl
    · exact h.below t₁ hold
    · rw [houtput]
      exact h.below t (mem_of_getElem? hn)

/-- One tool call more. -/
theorem concat (hfresh : ∀ t₀ ∈ ts, t₀.chatIndex ≠ t.chatIndex)
    (htools : m'.toolsByIndex = m.toolsByIndex.insert t.chatIndex t)
    (hnext : m.nextOutputIndex ≤ m'.nextOutputIndex) (hbelow : t.outputIndex < m'.nextOutputIndex) :
    ToolsOpen m' (ts ++ [t]) where
  lookup := by
    intro k t₁
    rw [htools, Dict.lookup_insert_of, mem_append, mem_singleton]
    by_cases hk : k = t.chatIndex
    · rw [if_pos hk, Option.some.injEq]
      refine ⟨fun ht₁ => ⟨.inr ht₁.symm, ht₁ ▸ hk.symm⟩, ?_⟩
      rintro ⟨hmem | rfl, hchat⟩
      · exact absurd (hchat.trans hk) (hfresh t₁ hmem)
      · rfl
    · rw [if_neg hk, h.lookup]
      refine ⟨fun ⟨hmem, hchat⟩ => ⟨.inl hmem, hchat⟩, ?_⟩
      rintro ⟨hmem | rfl, hchat⟩
      · exact ⟨hmem, hchat⟩
      · exact absurd hchat.symm hk
  distinct := by
    rw [map_append, map_singleton, nodup_append]
    refine ⟨h.distinct, nodup_singleton _, fun k hk k' hk' => ?_⟩
    obtain ⟨t₀, ht₀, rfl⟩ := mem_map.mp hk
    rw [mem_singleton.mp hk']
    exact hfresh t₀ ht₀
  below := forall_mem_append.mpr
    ⟨fun t₁ ht₁ => lt_of_lt_of_le (h.below t₁ ht₁) hnext, forall_mem_singleton.mpr hbelow⟩

end ToolsOpen

variable {call : ToolCallResponse}

/-- What a delta leaves of a tool call. -/
theorem add_fits (htrimmed : t.Trimmed) (hname : trimSpace call.function.name = call.function.name)
    (hid : call.id = "" ∨ call.id = t.id)
    (hagain : call.function.name = "" ∨ t.name = "" ∨ call.function.name = t.name) :
    (t.add call).id = t.id ∧ (t.add call).Trimmed ∧ (t.add call).answer = t.answer.add call ∧
      ((t.add call).name = t.name ∨ t.name = "") := by
  -- an id is sent once, or again as it was
  have hsame : (t.add call).id = t.id := by
    rcases hid with hnone | hagain
    · simp [ChatToResponsesStreamTool.add, hnone]
    · simp [ChatToResponsesStreamTool.add, hagain, htrimmed.id.1]
  have hids : againOrMore t.id call.id = t.id := by
    rcases hid with hnone | hagain
    · rw [hnone, againOrMore_empty]
    · rw [hagain, againOrMore_self]
  -- so is a name, but it may come late
  have hnames : (t.add call).name = againOrMore t.name call.function.name ∧
      ((t.add call).name = t.name ∨ (t.add call).name = call.function.name ∧ t.name = "") := by
    have hadd : (t.add call).name = if call.function.name ≠ "" then call.function.name
        else t.name := by
      rw [add_name, hname]
    by_cases hnone : call.function.name = ""
    · simp [hadd, hnone]
    · rw [hadd, if_pos hnone]
      rcases hagain with hnone' | hempty | hagain
      · exact absurd hnone' hnone
      · simp [hempty]
      · simp [hagain]
  refine ⟨hsame, ⟨?_, ?_⟩, ?_, hnames.2.imp id And.right⟩
  · rw [hsame]
    exact htrimmed.id
  · rcases hnames.2 with hold | ⟨hnew, -⟩
    · rw [hold, htrimmed.name]
    · rw [hnew, hname]
  · simp only [answer, AnswerTool.add, hsame, hnames.1, hids, add_chatIndex, add_arguments]

theorem ToolsOpen.addToolCall_set (h : ToolsOpen m ts)
    (hn : ts[n]? = some t) (hindex : call.index.getD 0 = t.chatIndex)
    (hanswer : (t.add call).answer = t.answer.add call) :
    addToolCall (ts.map (·.answer)) call = (ts.set n (t.add call)).map (·.answer) := by
  rw [addToolCall_known (mem_map_of_mem (mem_of_getElem? hn)) hindex.symm]
  refine ext_getElem? fun i => ?_
  rw [getElem?_map, getElem?_map, getElem?_map]
  -- the delta changes the tool at this place only
  by_cases hin : n = i
  · subst hin
    obtain ⟨hlt, -⟩ := List.getElem?_eq_some_iff.mp hn
    rw [hn, getElem?_set_self hlt, map_some, map_some, map_some, hanswer,
      if_pos (show t.answer.index = _ from hindex.symm)]
  · rw [getElem?_set_ne hin]
    cases hi : ts[i]? with
    | none => rfl
    | some t₁ =>
      have hother : t₁.answer.index ≠ call.index.getD 0 := fun heq =>
        hin (h.place_unique hi hn (heq.trans hindex)).symm
      rw [map_some, map_some, if_neg hother]

theorem OnlyTools.of_argumentsEvents (arguments : String) :
    OnlyTools p
      ((argumentsEvents t arguments).foldl (fun p event => readChunks (convertEvent event) p)
        p) := by
  by_cases hempty : arguments = ""
  · rw [argumentsEvents, if_neg (not_not_intro hempty)]
    exact .of_flags rfl p.2
  · rw [argumentsEvents, if_pos hempty, foldl_cons, foldl_nil, convertEvent_delta rfl]
    exact .of_arguments

/-- A delta for a tool call that is known. -/
theorem Mirrored.appendKnown (h : Mirrored ts b (m, p)) (hopen : ∀ t ∈ ts, t.done = false)
    (hn : ts[n]? = some t)
    (hindex : call.index.getD 0 = t.chatIndex) (hfits : ToolDeltaFits b.tools call) :
    Mirrored (ts.set n (t.add call)) { b with tools := addToolCall b.tools call }
      (relay (appendToolCallDelta call) (m, p)) := by
  obtain ⟨hname, hknown, -⟩ := hfits
  have hmem : t ∈ ts := mem_of_getElem? hn
  have hmem' : t.answer ∈ b.tools := by
    rw [h.tools]
    exact mem_map_of_mem hmem
  -- what is known of the tool agrees with the delta
  obtain ⟨hid, hagain⟩ := hknown t.answer hmem' hindex.symm
  obtain ⟨hsame, htrimmed, hanswer, hlate⟩ := add_fits (h.held.trimmed t hmem) hname hid hagain
  have hnames : (t.add call).names = t.names := by
    rw [names, names, add_outputIndex, hsame]
  have hlookup : m.toolsByIndex.lookup (call.index.getD 0) = some t :=
    (h.opened.lookup _ t).mpr ⟨hmem, hindex.symm⟩
  have hstep : appendToolCallDelta call m =
      ({ m with toolsByIndex := m.toolsByIndex.insert (call.index.getD 0) (t.add call) },
        argumentsEvents (t.add call) call.function.arguments) := by
    simp [appendToolCallDelta, hlookup]
  obtain ⟨s, a⟩ := p
  rw [relay_eq hstep]
  refine ⟨?_, ?_, ?_, ?_, h.unfinished⟩
  · refine h.held.delta hn hnames htrimmed (add_arguments t call)
      (hlate.imp id fun hempty => ⟨hempty, ?_⟩)
      (add_done t call)
    rw [add_done, hopen t hmem]
  · exact h.opened.set hn (add_chatIndex t call) (add_outputIndex t call) (by rw [hindex]) rfl
  · show addToolCall b.tools call = _
    rw [h.tools, h.opened.addToolCall_set hn hindex hanswer]
  · exact h.texts.of_tools (.of_argumentsEvents _) rfl rfl rfl (fun _ hmem => .inl hmem) ⟨rfl, rfl⟩

/-- The first delta for a tool call. -/
theorem Mirrored.appendNew (h : Mirrored ts b (m, p))
    (hnew : ∀ t ∈ ts, t.chatIndex ≠ call.index.getD 0) (hfits : ToolDeltaFits b.tools call) :
    Mirrored (ts ++ [(openedTool m (call.index.getD 0) m.nextOutputIndex call).add call])
      { b with tools := addToolCall b.tools call } (relay (appendToolCallDelta call) (m, p)) := by
  obtain ⟨hname, -, hfirst⟩ := hfits
  have hnone : ∀ tool ∈ b.tools, tool.index ≠ call.index.getD 0 := by
    intro tool htool
    rw [h.tools] at htool
    obtain ⟨t₀, ht₀, rfl⟩ := mem_map.mp htool
    exact hnew t₀ ht₀
  obtain ⟨hid, htrim, hother⟩ := hfirst hnone
  generalize hopened : openedTool m (call.index.getD 0) m.nextOutputIndex call = t
  -- the new tool has the id and the name of its first delta
  have htid : t.id = call.id := by simp [← hopened, openedTool, htrim, hid]
  have htname : t.name = call.function.name := by simp [← hopened, openedTool, hname]
  have htargs : t.arguments = "" := by rw [← hopened, openedTool]
  have hoi : t.outputIndex = m.nextOutputIndex := by rw [← hopened, openedTool]
  have htrimmed : t.Trimmed := by
    refine ⟨?_, ?_⟩
    · rw [htid]
      exact ⟨htrim, hid⟩
    · rw [htname, hname]
  obtain ⟨hsame, htrimmed', hanswer, hlate⟩ :=
    add_fits htrimmed hname (.inr htid.symm) (.inr (.inr htname.symm))
  have hlookup : m.toolsByIndex.lookup (call.index.getD 0) = none := by
    cases hk : m.toolsByIndex.lookup (call.index.getD 0) with
    | none => rfl
    | some t₀ =>
      obtain ⟨hmem, hchat⟩ := (h.opened.lookup _ t₀).mp hk
      exact absurd hchat (hnew t₀ hmem)
  have hstep : appendToolCallDelta call m =
      ({ m with
          nextOutputIndex := m.nextOutputIndex + 1
          outputOrder := m.outputOrder ++ [.tool (call.index.getD 0)]
          toolsByIndex := m.toolsByIndex.insert (call.index.getD 0) (t.add call) },
        toolAdded t :: argumentsEvents (t.add call) call.function.arguments) := by
    simp [appendToolCallDelta, hlookup, nextIndex, hopened]
  -- its output index is new, and so is its id
  have hfresh : ∀ t₀ ∈ ts, ¬ t₀.names.Clashes t.names := by
    intro t₀ ht₀ hclash
    have hbelow := h.opened.below t₀ ht₀
    have hids : t₀.id ≠ t.id := by
      rw [htid]
      exact hother t₀.answer (h.tools ▸ mem_map_of_mem ht₀)
    rcases hclash with houtput | hitem | hcall
    · exact absurd (houtput.trans hoi) (ne_of_lt hbelow)
    · exact hids hitem
    · exact hids hcall
  have hindex : t.chatIndex = call.index.getD 0 := by rw [← hopened, openedTool]
  have hchat : (t.add call).chatIndex = call.index.getD 0 := by rw [add_chatIndex, hindex]
  obtain ⟨s, a⟩ := p
  have hadded := h.held.added htrimmed htargs hfresh
  rw [relay_eq hstep, foldl_cons]
  refine ⟨?_, ?_, ?_, ?_, h.unfinished⟩
  · -- first the item is added, then the arguments of the delta
    have hset : (ts ++ [t]).set ts.length (t.add call) = ts ++ [t.add call] := by simp
    rw [← hset]
    refine hadded.delta getElem?_concat_length ?_ htrimmed' (add_arguments t call) ?_
      (add_done t call)
    · rw [names, names, add_outputIndex, hsame]
    · exact hlate.imp id fun hempty => ⟨hempty, by rw [add_done, ← hopened, openedTool]⟩
  · refine h.opened.concat ?_ (by rw [hchat]) (Int.le_of_lt (Int.lt_add_one_of_le le_rfl)) ?_
    · rw [hchat]
      exact hnew
    · rw [add_outputIndex, hoi]
      exact Int.lt_add_one_of_le le_rfl
  · show addToolCall b.tools call = _
    rw [addToolCall_new hnone, h.tools, map_append, map_singleton, hanswer]
    simp [answer, AnswerTool.add, htid, htname, htargs, hindex]
  · refine h.texts.of_tools ?_ rfl rfl rfl (fun ref hmem => ?_) ⟨rfl, rfl⟩
    · have hitem : convertEvent (toolAdded t) = toolItem (toolAdded t) (addedItem t) :=
        convertEvent_item (.inl rfl) rfl rfl
      rw [hitem]
      exact (OnlyTools.of_toolItem h.held.registered.noDangling _).trans (.of_argumentsEvents _)
    · exact (mem_append.mp hmem).imp_right fun hlast => ⟨_, mem_singleton.mp hlast⟩

/-! ### The end of the answer -/

namespace Mirrored

section

variable (h : Mirrored ts b (m, p))

include h

theorem text_done : Mirrored ts b (relay doneText (m, p)) := by
  by_cases hopen : m.textStarted ∧ m.textDone = false
  · have hdone : doneText m = _ := if_pos hopen
    -- what was written is not written again when it is done
    have hnothing : ∀ event : ResponsesStreamResponse, event.type = .outputTextDone →
        readChunks (convertEvent event) p = p := by
      intro event htype
      rw [convertEvent, htype]
      rfl
    rw [relay_eq hdone, foldl_cons, foldl_cons, foldl_nil, hnothing _ rfl,
      reads_added_text (.inr rfl) rfl rfl]
    exact ⟨h.held, h.opened.same rfl le_rfl, h.tools,
      h.texts.of_tools (.of_flags rfl p.2) rfl rfl rfl
      (fun _ hmem => .inl hmem) ⟨rfl, rfl⟩, h.unfinished⟩
  · have hdone : doneText m = (m, []) := if_neg hopen
    rw [relay_eq hdone]
    exact h

theorem reasoning_done : Mirrored ts b (relay doneReasoning (m, p)) := by
  by_cases hopen : m.reasoningStarted ∧ m.reasoningDone = false
  · have hdone : doneReasoning m = _ := if_pos hopen
    have hbreak : ∀ event : ResponsesStreamResponse, event.type = .reasoningSummaryDone →
        readChunks (convertEvent event) p =
          ({ p.1 with
              needsReasoningSummaryBreak :=
                p.1.needsReasoningSummaryBreak || p.1.hasSentReasoning }, p.2) := by
      intro event htype
      rw [convertEvent, htype]
      rfl
    rw [relay_eq hdone, foldl_cons, foldl_cons, foldl_nil, hbreak _ rfl,
      reads_added_text (.inr rfl) rfl rfl]
    -- after this the next summary would get a break, but there is none
    refine ⟨h.held.same ⟨rfl, rfl, rfl, rfl, rfl⟩, h.opened.same rfl le_rfl, h.tools, ?_,
      h.unfinished⟩
    obtain ⟨htext, hreasoning, hsentText, hsentReasoning, -, hmessage, hreasonings, hbegun, hfinish,
        hunfinished⟩ :=
      h.texts
    exact ⟨htext, hreasoning, hsentText, hsentReasoning, nofun, hmessage, hreasonings, hbegun,
      hfinish, hunfinished⟩
  · have hdone : doneReasoning m = (m, []) := if_neg hopen
    rw [relay_eq hdone]
    exact h

theorem tool_done (k : Int) : ∃ ts', Mirrored ts' b (relay (doneTool k) (m, p)) ∧
      ∀ t ∈ ts', t.done = true ∨ (t ∈ ts ∧ t.chatIndex ≠ k) := by
  cases hk : m.toolsByIndex.lookup k with
  | none =>
    have hstep : doneTool k m = (m, []) := by simp only [doneTool, hk]
    refine ⟨ts, by rw [relay_eq hstep]; exact h, fun t ht => .inr ⟨ht, fun hindex => ?_⟩⟩
    have hsome := (h.opened.lookup k t).mpr ⟨ht, hindex⟩
    rw [hk] at hsome
    cases hsome
  | some t =>
    obtain ⟨hmem, hindex⟩ := (h.opened.lookup k t).mp hk
    obtain ⟨n, hn⟩ := mem_iff_getElem?.mp hmem
    -- a tool that is done already is left alone
    by_cases hdone : t.done = true
    · have hstep : doneTool k m = (m, []) := by simp [doneTool, hk, hdone]
      refine ⟨ts, by rw [relay_eq hstep]; exact h, fun t₁ ht₁ => ?_⟩
      by_cases hsame : t₁.chatIndex = k
      · have hsome := (h.opened.lookup k t₁).mpr ⟨ht₁, hsame⟩
        rw [hk, Option.some.injEq] at hsome
        exact .inl (hsome ▸ hdone)
      · exact .inr ⟨ht₁, hsame⟩
    · obtain ⟨s, a⟩ := p
      -- its item repeats what the deltas have sent
      have hstep : doneTool k m =
          ({ m with toolsByIndex := m.toolsByIndex.insert k { t with done := true } },
          [{ type := .functionArgsDone, outputIndex := some t.outputIndex, itemID := t.id },
           { type := .outputItemDone, outputIndex := some t.outputIndex
             item := some (toolOutput t m.status) }]) := by
        simp [doneTool, hk, hdone]
      have hitem : ∀ event : ResponsesStreamResponse, event.type = .outputItemDone →
          event.item = some (toolOutput t m.status) →
          convertEvent event = toolItem event (toolOutput t m.status) :=
        fun event htype hitem => convertEvent_item (.inr (by rw [htype]; rfl)) hitem rfl
      refine ⟨ts.set n { t with done := true }, ?_, fun t₁ ht₁ => ?_⟩
      · rw [relay_eq hstep, foldl_cons, foldl_cons, foldl_nil, h.held.argumentsDone hn rfl rfl rfl,
          hitem _ rfl rfl]
        refine ⟨h.held.item hn rfl (.inl rfl), h.opened.set hn rfl rfl (by rw [hindex]) rfl, ?_, ?_,
          h.unfinished⟩
        · have hanswer : answer { t with done := true } = t.answer := rfl
          rw [ToolsHeld.map_set_same hn hanswer]
          exact h.tools
        · exact h.texts.of_tools (.of_toolItem h.held.registered.noDangling _) rfl rfl rfl
            (fun _ hmem => .inl hmem) ⟨rfl, rfl⟩
      · obtain ⟨i, hi⟩ := mem_iff_getElem?.mp ht₁
        rcases ToolsHeld.getElem?_set_cases hn hi with ⟨-, rfl⟩ | hi'
        · exact .inl rfl
        · by_cases hsame : t₁.chatIndex = k
          · obtain rfl := h.opened.place_unique hi' hn (hsame.trans hindex.symm)
            obtain ⟨hlt, -⟩ := List.getElem?_eq_some_iff.mp hn
            rw [getElem?_set_self hlt, Option.some.injEq] at hi
            exact .inl (by rw [← hi])
          · exact .inr ⟨mem_of_getElem? hi', hsame⟩

end

/-- Every tool call that is not done yet is on the list. -/
theorem tools_done_run {keys : List Int} (h : Mirrored ts b q)
    (hleft : ∀ t ∈ ts, t.done = true ∨ t.chatIndex ∈ keys) :
    ∃ ts', Mirrored ts' b (exec (fun q k => relay (doneTool k) q) q keys) ∧
      ∀ t ∈ ts', t.done = true := by
  induction keys generalizing ts q with
  | nil => exact ⟨ts, h, fun t ht => (hleft t ht).resolve_right not_mem_nil⟩
  | cons k keys ih =>
    obtain ⟨ts', h', hdone⟩ := h.tool_done k
    refine ih h' fun t ht => ?_
    rcases hdone t ht with hd | ⟨hmem, hother⟩
    · exact .inl hd
    · rcases hleft t hmem with hd | hin
      · exact .inl hd
      · exact .inr ((mem_cons.mp hin).resolve_left hother)

theorem relay_doneTools :
    relay doneTools (m, p) = exec (fun q k => relay (doneTool k) q) (m, p) (sortedTools m) :=
  reads_outputs _ m p (sortedTools m)

/-- Everything is closed, and the client has the names that came late. -/
theorem all_done (h : Mirrored ts b q) :
    ∃ ts', Mirrored ts' b (relay doneDeltaEvents q) ∧ ∀ t ∈ ts', t.done = true := by
  have h' := h.text_done.reasoning_done
  rw [doneDeltaEvents, relay_seq, relay_seq]
  refine relay_doneTools.symm ▸ h'.tools_done_run fun t ht => .inr ?_
  rw [sortedTools, mem_insertionSort, Dict.mem_keys_iff]
  exact ⟨t, (h'.opened.lookup t.chatIndex t).mpr ⟨ht, rfl⟩⟩

/-- What the response at the end lists is known. -/
theorem listed (h : Mirrored ts b (m, p)) (hdone : ∀ t ∈ ts, t.done = true)
    {out : ResponsesOutput} (href : ref ∈ m.outputOrder) (hout : outputOf m ref = some out) :
    Mirrored ts b (m, readChunks (terminalOutput out) p) := by
  obtain ⟨s, a⟩ := p
  cases ref with
  | message =>
    have hsent : s.hasSentText = true := h.texts.hasSentText.trans (h.texts.message href)
    have hquiet : terminalOutput out s = (s, []) := by
      rw [← some.inj hout]
      simp [terminalOutput, ChatToResponsesStreamState.messageOutput, hsent,
        isResponsesToolOutputType]
    rw [readChunks_silent hquiet]
    exact h
  | reasoning =>
    have hsent : s.hasSentReasoning = true :=
      h.texts.hasSentReasoning.trans (h.texts.reasonings href)
    have hquiet : terminalOutput out s = (s, []) := by
      rw [← some.inj hout]
      simp [terminalOutput, ChatToResponsesStreamState.reasoningOutput, hsent,
        isResponsesToolOutputType]
    rw [readChunks_silent hquiet]
    exact h
  | tool k =>
    obtain ⟨t, hlookup, rfl⟩ := map_eq_some_iff.mp hout
    obtain ⟨hmem, -⟩ := (h.opened.lookup k t).mp hlookup
    obtain ⟨n, hn⟩ := mem_iff_getElem?.mp hmem
    have hstep : terminalOutput (toolOutput t m.status) s =
        toolItem { item := some (toolOutput t m.status) } (toolOutput t m.status) s := by
      simp [terminalOutput, toolOutput, isResponsesToolOutputType]
    -- all of it is held already: the tool call is written with itself
    have hset : ts.set n { t with done := true } = ts := by
      obtain ⟨hlt, hget⟩ := List.getElem?_eq_some_iff.mp hn
      have hsame : ({ t with done := true } : ChatToResponsesStreamTool) = ts[n] := by
        rw [hget, ← hdone t hmem]
      rw [hsame, set_getElem_self]
    rw [readChunks_congr hstep]
    exact ⟨hset ▸ h.held.item hn rfl (.inr rfl), h.opened, h.tools,
      h.texts.of_tools (.of_toolItem h.held.registered.noDangling _) rfl rfl rfl
        (fun _ hmem => .inl hmem) ⟨rfl, rfl⟩, h.unfinished⟩

theorem listed_run (hdone : ∀ t ∈ ts, t.done = true) {outputs : List ResponsesOutput}
    (houtputs : ∀ out ∈ outputs, ∃ ref ∈ m.outputOrder, outputOf m ref = some out)
    (h : Mirrored ts b (m, p)) :
    Mirrored ts b (m, exec (fun p out => readChunks (terminalOutput out) p) p outputs) := by
  induction outputs generalizing p with
  | nil => exact h
  | cons out outputs ih =>
    obtain ⟨⟨ref, href, hout⟩, hrest⟩ := forall_mem_cons.mp houtputs
    exact ih hrest (h.listed hdone href hout)

/-- Nothing is left to send. -/
theorem allQuiet (h : Mirrored ts b (m, (s, a))) : AllQuiet s where
  outputs := h.held.outputs
  items := h.held.items
  tools key n hkey := by
    obtain ⟨c, hc, -⟩ := h.held.registered.names (.key key) n hkey
    obtain ⟨t, ht, -⟩ := map_eq_some_iff.mp ((getElem?_map ..).symm.trans hc)
    exact h.held.quiet ht

/-- The tool calls of the client, numbered in the order in which they came. -/
theorem tools_eq (h : Mirrored ts b (m, (s, a))) (hdone : ∀ t ∈ ts, t.done = true) :
    a.tools = b.tools.mapIdx fun n tool => { tool with index := n } := by
  refine ext_getElem? fun n => ?_
  rw [getElem?_mapIdx, h.tools, getElem?_map]
  -- both lists have one tool for each place
  cases hn : ts[n]? with
  | none =>
    have hlength : a.tools.length = s.tools.length := h.held.linked.length
    have hlength' : ts.length = s.tools.length := by simpa using h.held.registered.length
    simpa [hlength, ← hlength'] using hn
  | some t =>
    obtain ⟨tool, u, -, hu, hheld, hmirrors⟩ := h.held.tool_of_place hn
    have hname : tool.name = t.name := by
      rcases hheld.name with hsame | ⟨-, hopen⟩
      · exact hsame
      · rw [hdone t (mem_of_getElem? hn)] at hopen
        cases hopen
    have hindex : u.index = n := h.held.linked.numbered n u hu
    have hfields : u = { index := n, id := t.id, name := t.name, arguments := t.arguments } := by
      rw [← hindex, ← hname, ← hheld.callID, ← hheld.arguments, ← hmirrors.id, ← hmirrors.name,
        ← hmirrors.arguments]
    rw [hu, hfields]
    rfl

end Mirrored

/-- `a` is the answer `b` again, with the tool calls numbered in order, one role and one end. -/
structure Returned (b : ChatAnswer) (finish : String) (a : ChatAnswer) : Prop where
  text : a.text = b.text
  reasoning : a.reasoning = b.reasoning
  tools : a.tools = b.tools.mapIdx fun n tool => { tool with index := n }
  finishReasons : a.finishReasons = [finish]
  roles : a.roles = ["assistant"]

/-- A cut or filtered answer says so; another one says whether there are tool calls. -/
def FinishFits (finish : String) (b : ChatAnswer) : Prop :=
  finish = "length" ∨ finish = "content_filter" ∨ finish = if b.tools = [] then "stop"
    else "tool_calls"
deriving Decidable

/-- The outcome is the one of the finish reason. -/
def HasOutcome (finish : String) (m : ChatToResponsesStreamState) : Prop :=
  (m.status, m.incompleteDetails) = responsesStatusFromChatFinishReason finish

variable {finish : String} {chunk : ChatCompletionsStreamResponse}
  {chunks : List ChatCompletionsStreamResponse}

theorem finishReasonOf_final (hfits : FinishFits finish b) (houtcome : HasOutcome finish m)
    (hsaw : s.sawToolCall = decide (b.tools ≠ [])) :
    finishReasonOf (some (finalResponse m)) s = finish := by
  -- the reason of an incomplete answer goes through the details
  have hincomplete : ∀ details, (m.status, m.incompleteDetails) = (.incomplete, some details) →
      finishReasonOf (some (finalResponse m)) s =
        if trimSpace details.reason = "content_filter" then "content_filter" else "length" := by
    intro details heq
    obtain ⟨hstatus, hdetails⟩ := Prod.ext_iff.mp heq
    have htext : responseStatusString (finalResponse m) = "incomplete" := by
      simp only [responseStatusString, finalResponse, show m.status = .incomplete from hstatus]
      decide
    rw [finishReasonOf, responsesFinishReasonFromStatus_incomplete htext, getD_some]
    simp [finalResponse, show m.incompleteDetails = _ from hdetails]
  -- of the other reasons only the one that fits the calls comes back
  rcases hfits with rfl | rfl | hother
  · rw [hincomplete { reason := "max_output_tokens" } (houtcome.trans (by decide))]
    decide
  · rw [hincomplete { reason := "content_filter" } (houtcome.trans (by decide))]
    decide
  · have hcompleted : responsesStatusFromChatFinishReason finish = (.completed, none) := by
      rw [hother]
      split <;> decide
    have hstatus : m.status = .completed := (Prod.ext_iff.mp (houtcome.trans hcompleted)).1
    have htext : responseStatusString (finalResponse m) ≠ "incomplete" := by
      simp only [responseStatusString, finalResponse, hstatus]
      decide
    rw [finishReasonOf, responsesFinishReasonFromStatus_other htext, getD_none, hsaw, hother]
    by_cases hnone : b.tools = [] <;> simp [hnone]

/-! ### Chunks -/

namespace Mirrored

theorem congr (h : Mirrored ts b q) (htext : b'.text = b.text)
    (hreasoning : b'.reasoning = b.reasoning) (htools : b'.tools = b.tools) : Mirrored ts b' q where
  held := h.held
  opened := h.opened
  tools := htools.trans h.tools
  texts := h.texts.of_tools (.of_flags rfl q.2.2) rfl rfl rfl (fun _ hmem => .inl hmem)
    ⟨htext, hreasoning⟩
  unfinished := h.unfinished

theorem metadata (h : Mirrored ts b (m, p)) (chunk : ChatCompletionsStreamResponse) :
    Mirrored ts b (applyChunkMetadata chunk m, p) :=
  ⟨h.held, h.opened.same rfl le_rfl, h.tools, h.texts.of_tools (.of_flags rfl p.2) rfl rfl rfl
    (fun _ hmem => .inl hmem) ⟨rfl, rfl⟩, h.unfinished⟩

/-- The response at the end. -/
theorem ends (h : Mirrored ts b (m, (s, a)))
    (hdone : ∀ t ∈ ts, t.done = true) (hfits : FinishFits finish b)
    (houtcome : HasOutcome finish m) (htype : event.type = .completed ∨ event.type = .incomplete)
    (hresponse : event.response = some (finalResponse m)) :
    (readChunks (convertEvent event) (s, a)).1.finalized = true ∧
      Returned b finish (readChunks (convertEvent event) (s, a)).2 := by
  -- the final response has the outputs that were streamed, so listing them adds nothing
  have hterminal : terminalResponse event = some (finalResponse m) := by
    unfold terminalResponse
    split
    · rw [hresponse]
      rfl
    · exact hresponse
  have hmeta : Mirrored ts b (m, (applyResponseMetadata (some (finalResponse m)) s, a)) := by
    refine ⟨h.held.same (Apart.of_metadata (some (finalResponse m)) (s, a)), h.opened, h.tools, ?_,
      h.unfinished⟩
    obtain ⟨htext, hreasoning, hsentText, hsentReasoning, hbreak, hmessage, hreasonings, hbegun,
        hfinish, hopen⟩ :=
      h.texts
    exact ⟨htext, hreasoning, hsentText, hsentReasoning, hbreak, hmessage, hreasonings, hbegun,
      hfinish, hopen⟩
  have hlisted := hmeta.listed_run hdone fun out (hout : out ∈ (finalResponse m).output) =>
    mem_filterMap.mp hout
  have houtputs : ∀ p : ChatLink, readChunks (terminalOutputChunks (some (finalResponse m))) p =
      exec (fun p out => readChunks (terminalOutput out) p) p (finalResponse m).output :=
    fun p => reads_outputs ChatAnswer.add p.1 p.2 _
  rw [convertEvent_terminal (htype.imp id Or.inr), terminalChunks, hterminal, readChunks_seq,
    readChunks_modify, readChunks_seq, houtputs]
  generalize exec _ _ _ = p' at hlisted
  obtain ⟨s', a'⟩ := p'
  rw [reads_finalize_quiet hlisted.allQuiet hlisted.texts.finalized]
  have hsaw : s'.sawToolCall = decide (b.tools ≠ []) := by
    rw [show s'.sawToolCall = _ from hlisted.held.sawToolCall, hlisted.tools]
    simp
  refine ⟨rfl, ⟨?_, ?_, ?_, ?_, hlisted.texts.begun.started⟩⟩
  · exact (started_fields a' _).1.trans hlisted.texts.text
  · exact (started_fields a' _).2.1.trans hlisted.texts.reasoning
  · exact (started_fields a' _).2.2.1.trans (hlisted.tools_eq hdone)
  · show a'.finishReasons ++ [_] = _
    rw [finishReasonOf_final hfits houtcome hsaw, show a'.finishReasons =
      [] from hlisted.texts.finishReasons]
    rfl

end Mirrored

/-- The answer goes on: nothing of it is closed. -/
def Answering (b : ChatAnswer) (q : RelayState) : Prop :=
  ∃ ts, Mirrored ts b q ∧ (∀ t ∈ ts, t.done = false) ∧ q.1.reasoningDone = false

theorem startText_reasoningDone : (startText m).1.reasoningDone = m.reasoningDone := by
  unfold startText
  split <;> rfl

theorem startReasoning_reasoningDone : (startReasoning m).1.reasoningDone = m.reasoningDone := by
  unfold startReasoning
  split <;> rfl

theorem ensureCreated_reasoningDone : (ensureCreated m).1.reasoningDone = m.reasoningDone := by
  unfold ensureCreated
  split <;> rfl

theorem appendToolCallDelta_reasoningDone :
    (appendToolCallDelta call m).1.reasoningDone = m.reasoningDone := by
  cases hk : m.toolsByIndex.lookup (call.index.getD 0) <;>
    simp only [appendToolCallDelta, hk, nextIndex]

namespace Answering

variable (h : Answering b q)

include h

theorem congr (htext : b'.text = b.text) (hreasoning : b'.reasoning = b.reasoning)
    (htools : b'.tools = b.tools) : Answering b' q := by
  obtain ⟨ts, hq, hopen, hdone⟩ := h
  exact ⟨ts, hq.congr htext hreasoning htools, hopen, hdone⟩

theorem text (hdelta : delta ≠ "") :
    Answering { b with text := b.text ++ delta } (relay (appendTextDelta delta) q) := by
  obtain ⟨ts, hq, hopen, hdone⟩ := h
  exact ⟨ts, hq.appendText hdelta, hopen, startText_reasoningDone.trans hdone⟩

theorem reasoning (hdelta : delta ≠ "") :
    Answering { b with reasoning := b.reasoning ++ delta }
      (relay (appendReasoningDelta delta) q) := by
  obtain ⟨ts, hq, hopen, hdone⟩ := h
  exact ⟨ts, hq.appendReasoning hdelta hdone, hopen, startReasoning_reasoningDone.trans hdone⟩

theorem tool (hfits : ToolDeltaFits b.tools call) :
    Answering { b with tools := addToolCall b.tools call }
      (relay (appendToolCallDelta call) q) := by
  obtain ⟨ts, hq, hopen, hdone⟩ := h
  have hdone' : (relay (appendToolCallDelta call) q).1.reasoningDone = false :=
    appendToolCallDelta_reasoningDone.trans hdone
  -- the first delta of a tool opens it
  by_cases hknown : ∃ t ∈ ts, t.chatIndex = call.index.getD 0
  · obtain ⟨t, hmem, hindex⟩ := hknown
    obtain ⟨n, hn⟩ := mem_iff_getElem?.mp hmem
    refine ⟨_, hq.appendKnown hopen hn hindex.symm hfits, fun t₁ ht₁ => ?_, hdone'⟩
    rcases mem_or_eq_of_mem_set ht₁ with hold | rfl
    · exact hopen t₁ hold
    · rw [add_done, hopen t hmem]
  · have hnew : ∀ t ∈ ts, t.chatIndex ≠ call.index.getD 0 :=
      fun t ht hindex => hknown ⟨t, ht, hindex⟩
    refine ⟨_, hq.appendNew hnew hfits, fun t₁ ht₁ => ?_, hdone'⟩
    rcases mem_append.mp ht₁ with hold | hlast
    · exact hopen t₁ hold
    · rw [mem_singleton.mp hlast, add_done, openedTool]

variable {calls : List ToolCallResponse}

section

variable (hfits : Along ToolDeltaFits addToolCall b.tools calls)

include hfits

theorem tools_run : Answering { b with tools := calls.foldl addToolCall b.tools }
      (exec (fun q call => relay (appendToolCallDelta call) q) q calls) := by
  induction calls generalizing b q with
  | nil => exact h
  | cons call calls ih => exact ih (h.tool hfits.1) hfits.2

theorem tools :
    Answering { b with tools := calls.foldl addToolCall b.tools }
      (relay (appendToolCalls calls) q) := by
  have hexec : relay (appendToolCalls calls) q =
      exec (fun q call => relay (appendToolCallDelta call) q) q calls :=
    reads_outputs _ q.1 q.2 calls
  rw [hexec]
  exact h.tools_run hfits

end

/-- All that a choice carries, its end apart. -/
theorem deltas {delta : ChatStreamDelta}
    (hfits : Along ToolDeltaFits addToolCall b.tools delta.toolCalls) :
    Answering
      { b with
        text := b.text ++ delta.getContentString
        reasoning := b.reasoning ++ delta.getReasoningContent
        tools := delta.toolCalls.foldl addToolCall b.tools }
      (relay (appendToolCalls delta.toolCalls)
        (relay (if delta.getContentString ≠ "" then appendTextDelta delta.getContentString
          else .emit [])
          (relay (if delta.getReasoningContent ≠ "" then
            appendReasoningDelta delta.getReasoningContent
            else .emit []) q))) := by
  have hreasoning : Answering { b with reasoning := b.reasoning ++ delta.getReasoningContent }
      (relay (if delta.getReasoningContent ≠ "" then appendReasoningDelta delta.getReasoningContent
        else .emit []) q) := by
    by_cases hempty : delta.getReasoningContent = ""
    · rw [if_neg (not_not_intro hempty), hempty]
      exact h.congr rfl (String.append_empty) rfl
    · rw [if_pos hempty]
      exact h.reasoning hempty
  -- a chunk may have reasoning, text and calls at once, in this order
  generalize relay (if delta.getReasoningContent ≠ "" then _ else _) q = q₁ at hreasoning ⊢
  have htext : Answering
      { b with
        text := b.text ++ delta.getContentString
        reasoning := b.reasoning ++ delta.getReasoningContent }
      (relay (if delta.getContentString ≠ "" then appendTextDelta delta.getContentString
          else .emit []) q₁) := by
    by_cases hempty : delta.getContentString = ""
    · rw [if_neg (not_not_intro hempty), hempty]
      exact hreasoning.congr (String.append_empty) rfl rfl
    · rw [if_pos hempty]
      exact hreasoning.text hempty
  exact htext.tools hfits

end Answering

/-- The answer has ended with `finish`. -/
def Finished (finish : String) (b : ChatAnswer) (q : RelayState) : Prop :=
  ∃ ts, Mirrored ts b q ∧ HasOutcome finish q.1

theorem doneDeltaEvents_outcome (h : HasOutcome finish m) :
    HasOutcome finish (doneDeltaEvents m).1 := by
  exact (congrArg Prod.snd (doneDeltaEvents_keeps m)).trans h

/-- The finish reason of an answer. -/
theorem Answering.stops (h : Answering b q) (hfinish : trimSpace finish ≠ "") :
    Finished finish b (relay (finishAnswer (some finish)) q) := by
  obtain ⟨ts, hq, -⟩ := h
  have hstep : finishAnswer (some finish) =
      seq (.modify (applyFinishReason finish)) doneDeltaEvents := by
    rw [finishAnswer, if_pos hfinish]
  -- the reason is kept in the status, then all that is open is closed
  have happlied : Mirrored ts b (applyFinishReason finish q.1, q.2) := by
    rw [applyFinishReason_eq]
    exact ⟨hq.held, hq.opened.same rfl le_rfl, hq.tools,
      hq.texts.of_tools (.of_flags rfl q.2.2) rfl rfl rfl
      (fun _ hmem => .inl hmem) ⟨rfl, rfl⟩, hq.unfinished⟩
  have houtcome : HasOutcome finish (applyFinishReason finish q.1) := by
    rw [applyFinishReason_eq, HasOutcome]
  obtain ⟨ts', hdone, -⟩ := happlied.all_done
  rw [hstep, relay_seq, relay_modify]
  refine ⟨ts', hdone, ?_⟩
  rw [relay_fst]
  exact doneDeltaEvents_outcome houtcome

/-- A finish reason that is not given or empty. -/
def NoFinish (finishReason : Option String) : Prop := ∀ reason ∈ finishReason, trimSpace reason = ""
deriving Decidable

theorem finishAnswer_none {finishReason : Option String} (h : NoFinish finishReason) :
    finishAnswer finishReason = .emit [] := by
  cases finishReason with
  | none => rfl
  | some reason => exact if_neg (not_not_intro (h reason rfl))

/-- The tool calls of a chunk. -/
def CallsFit (b : ChatAnswer) (chunk : ChatCompletionsStreamResponse) : Prop :=
  ∀ choice ∈ chunk.choices, Along ToolDeltaFits addToolCall b.tools choice.delta.toolCalls
deriving Decidable

/-- A chunk goes through both converters. -/
abbrev relayChunk (q : RelayState) (chunk : ChatCompletionsStreamResponse) : RelayState :=
  relay (chatCompletionsStreamChunkToResponsesEvents chunk) q

/-- A chunk, choice by choice. -/
theorem relay_chunk : relayChunk (m, p) chunk = exec (fun q choice => relay (appendChoice choice) q)
        (relay ensureCreated (applyChunkMetadata chunk m, p)) chunk.choices :=
  calc relayChunk (m, p) chunk
    _ = relay (fun s => (Transducer.final appendChoice s chunk.choices,
          Transducer.outputs appendChoice s chunk.choices))
        (relay ensureCreated (applyChunkMetadata chunk m, p)) :=
      (relay_seq _).trans (relay_seq _)
    _ = _ := reads_outputs _ _ _ chunk.choices

theorem relay_choice (choice : ChatStreamChoice) :
    relay (appendChoice choice) q = relay (finishAnswer choice.finishReason)
      (relay (appendToolCalls choice.delta.toolCalls)
        (relay (if choice.delta.getContentString ≠ "" then
          appendTextDelta choice.delta.getContentString
            else .emit [])
          (relay (if choice.delta.getReasoningContent ≠ "" then
            appendReasoningDelta choice.delta.getReasoningContent else .emit []) q))) := by
  rw [appendChoice, relay_seq, relay_seq, relay_seq]

theorem relay_nothing : relay (.emit []) q = q := rfl

theorem Answering.begins (h : Answering b (m, p)) (chunk : ChatCompletionsStreamResponse) :
    Answering b (relay ensureCreated (applyChunkMetadata chunk m, p)) := by
  obtain ⟨ts, hq, hopen, hdone⟩ := h
  exact ⟨ts, (hq.metadata chunk).created, hopen, ensureCreated_reasoningDone.trans hdone⟩

/-- A chunk before the last one. -/
theorem Answering.step (h : Answering b q) (hsingle : chunk.choices.length ≤ 1)
    (hgoing : ∀ choice ∈ chunk.choices, NoFinish choice.finishReason) (hcalls : CallsFit b chunk) :
    Answering (b.add chunk) (relayChunk q chunk) := by
  obtain ⟨m, p⟩ := q
  rw [relay_chunk]
  match hchoices : chunk.choices, hsingle with
  | [], _ =>
    refine (h.begins chunk).congr ?_ ?_ ?_ <;> simp [ChatAnswer.add, hchoices]
  | [choice], _ =>
    have hmem : choice ∈ chunk.choices := by simp [hchoices]
    rw [exec_cons, exec_nil, relay_choice, finishAnswer_none (hgoing choice hmem), relay_nothing]
    refine ((h.begins chunk).deltas (hcalls choice hmem)).congr ?_ ?_ ?_ <;>
      simp [ChatAnswer.add, hchoices]

variable {choice : ChatStreamChoice}

/-- The chunk that ends the answer. -/
theorem Answering.last (h : Answering b q) (hchoices : chunk.choices = [choice])
    (hfinish : choice.finishReason = some finish) (hblank : trimSpace finish ≠ "")
    (hcalls : CallsFit b chunk) :
    Finished finish (b.add chunk) (relayChunk q chunk) := by
  obtain ⟨m, p⟩ := q
  have hmem : choice ∈ chunk.choices := by simp [hchoices]
  rw [relay_chunk, hchoices, exec_cons, exec_nil, relay_choice, hfinish]
  refine Answering.stops (((h.begins chunk).deltas (hcalls choice hmem)).congr ?_ ?_ ?_) hblank <;>
    simp [ChatAnswer.add, hchoices]

/-- A choice that adds nothing to the answer. -/
def ChatStreamChoice.Bare (choice : ChatStreamChoice) : Prop :=
  choice.delta.getContentString = "" ∧ choice.delta.getReasoningContent = "" ∧
    choice.delta.toolCalls = [] ∧ NoFinish choice.finishReason
deriving Decidable

theorem relay_bare (h : choice.Bare) : relay (appendChoice choice) q = q := by
  obtain ⟨htext, hreasoning, htools, hfinish⟩ := h
  rw [relay_choice, finishAnswer_none hfinish, if_neg (not_not_intro htext),
    if_neg (not_not_intro hreasoning), htools]
  rfl

/-- A chunk after the end. -/
theorem Finished.step (h : Finished finish b q) (hsingle : chunk.choices.length ≤ 1)
    (hbare : ∀ choice ∈ chunk.choices, choice.Bare) :
    Finished finish (b.add chunk) (relayChunk q chunk) := by
  obtain ⟨m, p⟩ := q
  obtain ⟨ts, hq, houtcome⟩ := h
  have hbegins : Mirrored ts b (relay ensureCreated (applyChunkMetadata chunk m, p)) :=
    (hq.metadata chunk).created
  have houtcome' : HasOutcome finish (relay ensureCreated (applyChunkMetadata chunk m, p)).1 := by
    rw [relay_fst]
    unfold ensureCreated
    split <;> exact houtcome
  rw [relay_chunk]
  -- a chunk after the finish adds nothing, if it has a choice at all
  match hchoices : chunk.choices, hsingle with
  | [], _ =>
    refine ⟨ts, hbegins.congr ?_ ?_ ?_, houtcome'⟩ <;> simp [ChatAnswer.add, hchoices]
  | [choice], _ =>
    have hchoice : choice.Bare := hbare choice (by simp [hchoices])
    rw [exec_cons, exec_nil, relay_bare hchoice]
    obtain ⟨htext, hreasoning, htools, -⟩ := hchoice
    refine ⟨ts, hbegins.congr ?_ ?_ ?_, houtcome'⟩ <;>
      simp [ChatAnswer.add, hchoices, htext, hreasoning, htools]

/-- The end of the stream. -/
theorem Finished.final (h : Finished finish b q) (hfits : FinishFits finish b) :
    (relay finalizeChatCompletionsStreamToResponses q).2.1.finalized = true ∧
      Returned b finish (relay finalizeChatCompletionsStreamToResponses q).2.2 := by
  obtain ⟨ts, hq, houtcome⟩ := h
  obtain ⟨ts', hdone, hall⟩ := hq.all_done
  have houtcome' : HasOutcome finish (relay doneDeltaEvents q).1 := by
    rw [relay_fst]
    exact doneDeltaEvents_outcome houtcome
  rw [relay_congr (finalize_eq hq.unfinished), relay_seq, terminal, relay_seq, relay_modify]
  generalize relay doneDeltaEvents q = q' at hdone houtcome'
  obtain ⟨m', s', a'⟩ := q'
  refine hdone.ends hall hfits houtcome' ?_ rfl
  by_cases hstatus : m'.status = .incomplete
  · exact .inr (if_pos hstatus)
  · exact .inl (if_neg hstatus)

/-! ### The round trip -/

/-- A chat stream with a single choice.  `last` has its end, and nothing of the answer comes after
it. -/
structure SingleChoiceStream (before : List ChatCompletionsStreamResponse)
    (last : ChatCompletionsStreamResponse)
    (after : List ChatCompletionsStreamResponse) (finish : String) : Prop where
  single : ∀ chunk ∈ before ++ last :: after, chunk.choices.length ≤ 1
  going : ∀ chunk ∈ before, ∀ choice ∈ chunk.choices, NoFinish choice.finishReason
  ends : ∃ choice, last.choices = [choice] ∧ choice.finishReason = some finish
  bare : ∀ chunk ∈ after, ∀ choice ∈ chunk.choices, choice.Bare
  calls : Along CallsFit ChatAnswer.add {} (before ++ [last])
  finish : FinishFits finish (answerOf (before ++ last :: after))

/-- Not an error. -/
def Understood (event : ResponsesStreamResponse) : Prop := streamError event = none

theorem doneDeltaEvents_understood : doneDeltaEvents.Emits Understood := by
  intro m event hevent
  have hcloses := doneDeltaEvents_emits m event hevent
  simp only [closingTypes, mem_cons, not_mem_nil, or_false] at hcloses
  rcases hcloses with htype | htype | htype | htype <;> rw [Understood, streamError, htype]

theorem appendToolCallDelta_understood (call : ToolCallResponse) :
    (appendToolCallDelta call).Emits Understood := by
  -- no event is an error, nor of a type that the reader does not know
  have harguments : ∀ t : ChatToResponsesStreamTool,
      ∀ event ∈ argumentsEvents t call.function.arguments,
      Understood event := by
    intro t
    unfold argumentsEvents
    split <;> simp [Understood, streamError]
  intro m event hevent
  cases hk : m.toolsByIndex.lookup (call.index.getD 0) with
  | some t =>
    simp only [appendToolCallDelta, hk, nil_append] at hevent
    exact harguments _ event hevent
  | none =>
    simp only [appendToolCallDelta, hk, singleton_append, mem_cons] at hevent
    rcases hevent with rfl | hevent
    · rfl
    · exact harguments _ event hevent

theorem appendChoice_understood (choice : ChatStreamChoice) :
    (appendChoice choice).Emits Understood := by
  -- each part of a choice emits such events only
  have hreasoning : ∀ delta, (appendReasoningDelta delta).Emits Understood := by
    intro delta
    have hstart : startReasoning.Emits Understood := by
      intro m
      unfold startReasoning
      split <;> simp [Understood, streamError]
    exact hstart.seq ((Emits.modify _).seq fun m => by simp [emitFrom, Understood, streamError])
  have htext : ∀ delta, (appendTextDelta delta).Emits Understood := by
    intro delta
    have hstart : startText.Emits Understood := by
      intro m
      unfold startText
      split <;> simp [Understood, streamError]
    exact hstart.seq ((Emits.modify _).seq fun m => by simp [emitFrom, Understood, streamError])
  have hfinish : (finishAnswer choice.finishReason).Emits Understood := by
    unfold finishAnswer
    split
    · exact .nothing
    · split
      · exact (Emits.modify _).seq doneDeltaEvents_understood
      · exact .nothing
  refine Emits.seq ?_ (Emits.seq ?_ (Emits.seq ?_ hfinish))
  · split
    · exact hreasoning _
    · exact .nothing
  · split
    · exact htext _
    · exact .nothing
  · exact fun m => mem_outputs appendToolCallDelta_understood m _

/-- No event is an error. -/
theorem responsesEventsOf_understood : ∀ event ∈ responsesEventsOf m chunks, Understood event := by
  -- so do the beginning, every chunk and the end
  have hcreated : ensureCreated.Emits Understood := by
    intro m
    unfold ensureCreated
    split <;> simp [Understood, streamError]
  have hchunk : ∀ chunk, (chatCompletionsStreamChunkToResponsesEvents chunk).Emits Understood :=
    fun chunk =>
      (Emits.modify _).seq (hcreated.seq fun m => mem_outputs appendChoice_understood m _)
  have hfinal : finalizeChatCompletionsStreamToResponses.Emits Understood := by
    intro m
    unfold finalizeChatCompletionsStreamToResponses
    split
    · simp
    · refine Emits.seq doneDeltaEvents_understood ((Emits.modify _).seq fun m => ?_) m
      by_cases hstatus : m.status = .incomplete <;>
        simp [emitFrom, Understood, streamError, hstatus]
  intro event hevent
  rcases mem_append.mp hevent with hevent | hevent
  · exact mem_outputs hchunk m chunks event hevent
  · exact hfinal _ event hevent

theorem Answering.run (h : Answering b q) (hsingle : ∀ chunk ∈ chunks, chunk.choices.length ≤ 1)
    (hgoing : ∀ chunk ∈ chunks, ∀ choice ∈ chunk.choices, NoFinish choice.finishReason)
    (hcalls : Along CallsFit ChatAnswer.add b chunks) :
    Answering (chunks.foldl ChatAnswer.add b) (exec relayChunk q chunks) := by
  induction chunks generalizing b q with
  | nil => exact h
  | cons chunk chunks ih =>
    rw [forall_mem_cons] at hsingle hgoing
    exact ih (h.step hsingle.1 hgoing.1 hcalls.1) hsingle.2 hgoing.2 hcalls.2

theorem Finished.run (h : Finished finish b q)
    (hsingle : ∀ chunk ∈ chunks, chunk.choices.length ≤ 1)
    (hbare : ∀ chunk ∈ chunks, ∀ choice ∈ chunk.choices, choice.Bare) :
    Finished finish (chunks.foldl ChatAnswer.add b) (exec relayChunk q chunks) := by
  induction chunks generalizing b q with
  | nil => exact h
  | cons chunk chunks ih =>
    rw [forall_mem_cons] at hsingle hbare
    exact ih (h.step hsingle.1 hbare.1) hsingle.2 hbare.2

theorem answering_new (id model model' : String) (now now' : Int) (includeUsage : Bool) :
    Answering {} (newChatToResponsesStreamState id model now,
      (newResponsesToChatStreamState model' includeUsage now', {})) := by
  have hheld : ToolsHeld [] (newResponsesToChatStreamState model' includeUsage now', {}) :=
    ⟨registered_new model' includeUsage now',
      by simp, linked_new _ model' includeUsage now', by simp, rfl, rfl, rfl⟩
  have hopened : ToolsOpen (newChatToResponsesStreamState id model now) [] :=
    ⟨by simp [newChatToResponsesStreamState], nodup_nil, by simp⟩
  exact ⟨[],
    ⟨hheld, hopened, rfl,
      ⟨rfl, rfl, rfl, rfl, fun _ => rfl, by simp [newChatToResponsesStreamState],
    by simp [newChatToResponsesStreamState], rfl, rfl, rfl⟩, rfl⟩, by simp, rfl⟩

/-- Both converters and the client, after a whole stream. -/
theorem reads_relay (m : ChatToResponsesStreamState) (s : ResponsesToChatStreamState)
    (chunks : List ChatCompletionsStreamResponse) :
    (Transducer.final convertEvent s (responsesEventsOf m chunks),
      answerOf (Transducer.outputs convertEvent s (responsesEventsOf m chunks))) =
    (relay finalizeChatCompletionsStreamToResponses (exec relayChunk (m, (s, {})) chunks)).2 := by
  have hclient : _ = exec (fun p event => readChunks (convertEvent event) p) (s, {})
      (responsesEventsOf m chunks) :=
    reads_outputs ChatAnswer.add s {} (responsesEventsOf m chunks)
  have hrun : exec relayChunk (m, (s, {})) chunks = _ :=
    (reads_outputs (fun p event => readChunks (convertEvent event) p) m (s, {}) chunks).symm
  rw [answerOf, hclient, hrun, exec_eq_foldl, responsesEventsOf, foldl_append]
  rfl

theorem chat_round_trip (id model model' : String) (now now' : Int) (includeUsage : Bool)
    {before after : List ChatCompletionsStreamResponse} {last : ChatCompletionsStreamResponse}
    {finish : String} (h : SingleChoiceStream before last after finish) :
    ∃ s chunks, chatChunksOf (newResponsesToChatStreamState model' includeUsage now')
        (responsesEventsOf (newChatToResponsesStreamState id model now) (before ++ last :: after)) =
          .ok (s, chunks) ∧
      Returned (answerOf (before ++ last :: after)) finish
        (answerOf (chunks ++ (finalizeResponsesToChatStream s).2)) := by
  obtain ⟨choice, hchoices, hfinish⟩ := h.ends
  obtain ⟨hbefore, hlast, -⟩ := along_append.mp h.calls
  have hblank : trimSpace finish ≠ "" := by
    rcases h.finish with rfl | rfl | hother
    · decide
    · decide
    · rw [hother]
      split <;> decide
  have hsingle : ∀ {chunks}, chunks ⊆ before ++ last :: after →
      ∀ chunk ∈ chunks, chunk.choices.length ≤ 1 :=
    fun hsub chunk hmem => h.single chunk (hsub hmem)
  -- the answer so far, up to the last chunk, with it, and with what comes after
  have hgoing := (answering_new id model model' now now' includeUsage).run
    (hsingle (subset_append_left ..)) h.going hbefore
  rw [exec_eq_foldl] at hlast
  have hended := (hgoing.last hchoices hfinish hblank hlast).run
    (hsingle fun _ hmem => mem_append_right _ (mem_cons_of_mem _ hmem)) h.bare
  have hanswer : answerOf (before ++ last :: after) =
      after.foldl ChatAnswer.add ((before.foldl ChatAnswer.add {}).add last) := by
    rw [answerOf, foldl_append, foldl_cons]
  have hrun := reads_relay (newChatToResponsesStreamState id model now)
    (newResponsesToChatStreamState model' includeUsage now') (before ++ last :: after)
  rw [exec_append, exec_cons] at hrun
  have hfits := h.finish
  rw [hanswer] at hfits ⊢
  obtain ⟨hfinalized, hreturned⟩ := hended.final hfits
  rw [← hrun] at hfinalized hreturned
  refine ⟨_, _, chatChunksOf_ok _ responsesEventsOf_understood, ?_⟩
  have hnothing : ∀ s, s.finalized = true → (finalizeResponsesToChatStream s).2 = [] := by
    intro s hs
    simp [finalizeResponsesToChatStream, finalize, hs]
  rw [hnothing _ hfinalized, append_nil]
  exact hreturned

/-- Reasoning, text, two tool calls, one of them with a late name, and the usage at the end. -/
theorem chat_round_trip_tool_calls : let before : List ChatCompletionsStreamResponse :=
      [{ choices := [{ delta := { role := "assistant", reasoningContent := some "hm" } }] },
       { choices := [{ delta := { content := some "Look:" } }] },
       { choices :=
         [{ delta :=
           { toolCalls :=
             [{ index := some 4, id := "call_b", function := { arguments := "\x7b" } }] } }] },
       { choices := [{ delta := { toolCalls :=
          [{ index := some 1, id := "call_a", function := { name := "time" } },
           { index := some 4, function := { name := "date", arguments := "\x7d" } }] } }] }]
    let last : ChatCompletionsStreamResponse :=
      { choices := [{ finishReason := some "tool_calls" }] }
    let after : List ChatCompletionsStreamResponse := [{ usage := some {} }]
    SingleChoiceStream before last after "tool_calls" ∧ ∃ s chunks,
        chatChunksOf (newResponsesToChatStreamState "m" false 7)
          (responsesEventsOf (newChatToResponsesStreamState "r" "m" 7) (before ++ last :: after)) =
            .ok (s, chunks) ∧
        Returned (answerOf (before ++ last :: after)) "tool_calls"
          (answerOf (chunks ++ (finalizeResponsesToChatStream s).2)) := by
  intro before last after
  have h : SingleChoiceStream before last after "tool_calls" :=
    ⟨by decide, by decide, ⟨_, rfl, rfl⟩, by decide, by decide, by decide⟩
  exact ⟨h, chat_round_trip "r" "m" "m" 7 7 false h⟩
