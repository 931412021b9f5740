/-
The tool calls of a Responses stream, in the order in which the converter opened them.

A tool call of the stream has an output index, an item id and a call id.  Whatever name an
event gives, the converter finds the call that the name belongs to, or none.

* `Registered` — every name leads to the call it belongs to;
* `Registered.known`, `Registered.new` — the same after an event that gives names of one call,
  and nothing that was found before is lost;
* `Registered.toolFor_clashes`, `Registered.findTool_clashes` — which tool call an event finds;
* `ArgumentsSent` — the client has all arguments that the converter has;
* `Apart` — steps that do not touch the tool calls.
-/
import AcuGateway.ResponsesChunks
import Mathlib.Data.Option.Basic

open Text (byteLen)
open ResponsesToChatStreamState Option ResponsesStreamTool ResponsesEventType

/-! ### Names -/

/-- The names of a tool call. -/
structure CallNames where
  output : Int
  itemID : String
  callID : String
deriving DecidableEq

variable {c : CallNames} {key : ToolKey}

namespace CallNames

/-- `key` is made from a name of the call. -/
def HasKey (c : CallNames) : ToolKey → Prop
  | .output i => i = c.output
  | .item itemID => itemID = c.itemID
  | .call callID => callID = c.callID

/-- Two calls have a name in common. -/
def Clashes (c c' : CallNames) : Prop :=
  c.output = c'.output ∨ c.itemID = c'.itemID ∨ c.callID = c'.callID
deriving Decidable

theorem clashes_self : c.Clashes c := .inl rfl

variable {c' : CallNames}

theorem Clashes.symm (h : c.Clashes c') : c'.Clashes c := by
  rcases h with h | h | h
  · exact .inl h.symm
  · exact .inr (.inl h.symm)
  · exact .inr (.inr h.symm)

theorem clashes_of_key (h : c.HasKey key) (h' : c'.HasKey key) : c.Clashes c' := by
  cases key with
  | output i => exact .inl (h.symm.trans h')
  | item id => exact .inr (.inl (h.symm.trans h'))
  | call id => exact .inr (.inr (h.symm.trans h'))

/-- `name` is a name of the call. -/
def Has (c : CallNames) : ToolName → Prop
  | .key key => c.HasKey key
  | .output i => i = c.output
  | .item itemID => itemID = c.itemID
  | .call callID => callID = c.callID

theorem clashes_of_name {name : ToolName} (h : c.Has name) (h' : c'.Has name) : c.Clashes c' := by
  cases name with
  | key key => exact clashes_of_key h h'
  | output i => exact .inl (h.symm.trans h')
  | item itemID => exact .inr (.inl (h.symm.trans h'))
  | call callID => exact .inr (.inr (h.symm.trans h'))

/-- The names given are names of the call. -/
def Gives (c : CallNames) (outputIndex : Option Int) (itemID callID : Option String)
    (key : ToolKey) : Prop :=
  ∀ name, GivenName outputIndex itemID callID key name → c.Has name

theorem gives_of {outputIndex : Option Int}
    (houtput : outputIndex = none ∨ outputIndex = some c.output)
    (hhas : c.HasKey key) : c.Gives outputIndex (some c.itemID) (some c.callID) key := by
  rintro (key' | i | itemID | callID) hgiven
  · exact hgiven ▸ hhas
  · rcases houtput with hnone | hsome
    · exact absurd (hnone.symm.trans hgiven) (some_ne_none i).symm
    · exact (some.inj (hsome.symm.trans hgiven)).symm
  · exact (some.inj hgiven).symm
  · exact (some.inj hgiven).symm

end CallNames

/-- `calls` are the tool calls of `s`, and every name leads to the call it belongs to. -/
structure Registered (calls : List CallNames) (s : ResponsesToChatStreamState) : Prop where
  length : calls.length = s.tools.length
  own : ∀ (m n : Nat) c c', calls[m]? = some c → calls[n]? = some c' → c.Clashes c' → m = n
  noDangling : s.NoDangling
  names : ∀ name n, s.named name = some n → ∃ c, calls[n]? = some c ∧ c.Has name

/-- What `s` finds under a name, `s'` finds there too. -/
def KeepsNames (s s' : ResponsesToChatStreamState) : Prop :=
  ∀ name n, s.named name = some n → s'.named name = some n

theorem KeepsNames.refl (s : ResponsesToChatStreamState) : KeepsNames s s := fun _ _ h => h

variable {s s' : ResponsesToChatStreamState}

theorem KeepsNames.trans {s'' : ResponsesToChatStreamState} (h : KeepsNames s s')
    (h' : KeepsNames s' s'') :
    KeepsNames s s'' := fun name n hn => h' name n (h name n hn)

theorem SameNames.keeps (h : SameNames s s') : KeepsNames s s' := fun _ _ hn => h.named ▸ hn

/-- A stream begins without tool calls. -/
theorem registered_new (model : String) (includeUsage : Bool) (now : Int) :
    Registered [] (newResponsesToChatStreamState model includeUsage now) := by
  refine ⟨rfl, nofun, ⟨nofun, nofun, nofun⟩, fun name n hn => ?_⟩
  cases name <;> cases hn

theorem getElem?_of_prefix {α : Type} {l l' : List α} {x : α} {m : Nat} (hl : l <+: l')
    (h : l[m]? = some x) :
    l'[m]? = some x := by
  obtain ⟨rest, rfl⟩ := hl
  obtain ⟨hlt, -⟩ := List.getElem?_eq_some_iff.mp h
  rw [List.getElem?_append_left hlt, h]

variable {event : ResponsesStreamResponse} {item : ResponsesOutput}

namespace Registered

variable {calls calls' : List CallNames} {n : Nat} {outputIndex : Option Int}
  {itemID callID : Option String}

variable (h : Registered calls s)

include h

theorem same (hnames : SameNames s s')
    (hlength : s'.tools.length = s.tools.length) : Registered calls s' where
  length := h.length.trans hlength.symm
  own := h.own
  noDangling := hnames.noDangling h.noDangling
  names := by rw [hnames.named]; exact h.names

theorem after_toolDelta (n : Nat) (explicitDelta : String) (a : ChatAnswer) :
    Registered calls (readChunks (toolDelta n explicitDelta) (s, a)).1 :=
  h.same (reads_toolDelta_only n explicitDelta s a).2 (reads_toolDelta_length n explicitDelta s a)

/-- The names of one call were given, which may be new; nothing that was found before is lost. -/
theorem met (hcalls : calls <+: calls')
    (hown : ∀ (m n : Nat) c c', calls'[m]? = some c → calls'[n]? = some c' → c.Clashes c' → m = n)
    (hn : calls'[n]? = some c) (hlength : calls'.length = s'.tools.length)
    (hnames : NamesBound outputIndex itemID callID key n s s')
    (hgives : c.Gives outputIndex itemID callID key) : Registered calls' s' ∧ KeepsNames s s' := by
  -- what was named before is among the calls still
  have hold : ∀ name m, s.named name = some m → ∃ c, calls'[m]? = some c ∧ c.Has name := by
    intro name m hm
    obtain ⟨c', hc', hhas⟩ := h.names name m hm
    exact ⟨c', getElem?_of_prefix hcalls hc', hhas⟩
  refine ⟨⟨hlength, hown, hnames.noDangling, fun name m hm => ?_⟩, fun name m hm => ?_⟩
  · by_cases hgiven : GivenName outputIndex itemID callID key name
    · rw [hnames.given name hgiven, Option.some.injEq] at hm
      exact ⟨c, hm ▸ hn, hgives name hgiven⟩
    · rw [hnames.other name hgiven] at hm
      exact hold name m hm
  · by_cases hgiven : GivenName outputIndex itemID callID key name
    · obtain ⟨c', hc', hhas⟩ := hold name m hm
      rw [hnames.given name hgiven,
        hown n m c c' hn hc' (CallNames.clashes_of_name (hgives name hgiven) hhas)]
    · rw [hnames.other name hgiven, hm]

/-- Names of a call that has a tool call were given. -/
theorem known (hn : calls[n]? = some c)
    (hnames : NamesBound outputIndex itemID callID key n s s')
    (hgives : c.Gives outputIndex itemID callID key) (hlength : s'.tools.length = s.tools.length) :
    Registered calls s' ∧ KeepsNames s s' :=
  h.met List.prefix_rfl h.own hn (h.length.trans hlength.symm) hnames hgives

/-- Names of a new call were given. -/
theorem new (hfresh : ∀ c' ∈ calls, ¬ c'.Clashes c)
    (hnames : NamesBound outputIndex itemID callID key s.tools.length s s')
    (hgives : c.Gives outputIndex itemID callID key)
    (hlength : s'.tools.length = s.tools.length + 1) :
    Registered (calls ++ [c]) s' ∧ KeepsNames s s' := by
  have hlast : (calls ++ [c])[s.tools.length]? = some c := by simp [← h.length]
  refine h.met (List.prefix_append ..) ?_ hlast (by simp [h.length, hlength]) hnames hgives
  intro m n c₁ c₂ hm hn hclash
  rcases getElem?_concat_cases hm with hm' | ⟨rfl, heq⟩ <;>
    rcases getElem?_concat_cases hn with hn' | ⟨rfl, heq'⟩
  · exact h.own m n c₁ c₂ hm' hn' hclash
  · exact absurd (heq' ▸ hclash) (hfresh c₁ (List.mem_of_getElem? hm'))
  · exact absurd (heq ▸ hclash.symm) (hfresh c₂ (List.mem_of_getElem? hn'))
  · rfl

/-- What is found under a name that was given is no other call. -/
theorem clashes (hgives : c.Gives outputIndex itemID callID key) {name : ToolName}
    (hgiven : GivenName outputIndex itemID callID key name) (hn : s.named name = some n) :
    ∃ c', calls[n]? = some c' ∧ c'.Clashes c := by
  obtain ⟨c', hc', hhas⟩ := h.names name n hn
  exact ⟨c', hc', CallNames.clashes_of_name hhas (hgives name hgiven)⟩

/-- An item finds no tool call but its own. -/
theorem toolFor_clashes (hgives : c.Gives event.outputIndex (eventItem event) (itemCall item) key)
    (hfound : toolFor event item key s = some n) : ∃ c', calls[n]? = some c' ∧ c'.Clashes c := by
  obtain ⟨name, hgiven, hn⟩ := exists_name_of_toolFor hfound
  exact h.clashes hgives hgiven hn

theorem findTool_clashes (hitem : event.item = none)
    (hgives : c.Gives event.outputIndex (eventItem event) none key)
    (hfound : findToolForEvent event s = some n) : ∃ c', calls[n]? = some c' ∧ c'.Clashes c := by
  rw [findToolForEvent_eq h.noDangling hitem] at hfound
  rcases (orElse_eq_some _ _ _).mp hfound with houtput | ⟨-, hid⟩
  · obtain ⟨i, hi, hn⟩ := bind_eq_some_iff.mp houtput
    exact @clashes _ _ _ _ _ _ _ _ h hgives (.output i) hi hn
  · obtain ⟨itemID, hid, hn⟩ := bind_eq_some_iff.mp hid
    exact @clashes _ _ _ _ _ _ _ _ h hgives (.item itemID) hid hn

end Registered

/-! ### Arguments -/

/-- The client has the arguments of the tool call. -/
structure ArgumentsSent (tool : ResponsesStreamTool) (u : AnswerTool) : Prop where
  sent : tool.sent = true
  sentAt : tool.argsSentAt = byteLen tool.arguments
  arguments : u.arguments = tool.arguments

/-- The tool call has the arguments `rest` more. -/
structure Grows (rest : String) (tool tool' : ResponsesStreamTool) : Prop where
  arguments : tool'.arguments = tool.arguments ++ rest
  sentAt : tool'.argsSentAt = tool.argsSentAt
  index : tool'.index = tool.index

variable {tool : ResponsesStreamTool} {rest explicitDelta : String}

/-- What is sent of arguments of which `old` is sent already. -/
theorem argsDelta_more {old : String} (hargs : tool.arguments = old ++ rest)
    (hat : tool.argsSentAt = byteLen old) (hdelta : explicitDelta = "" ∨ explicitDelta = rest) :
    tool.argsDelta explicitDelta = (rest, byteLen tool.arguments) := by
  have hlength : byteLen tool.arguments = byteLen old + byteLen rest := by
    rw [hargs, Text.byteLen_append]
  by_cases hrest : rest = ""
  · have hempty : explicitDelta = "" := by
      rcases hdelta with h | h
      · exact h
      · exact h.trans hrest
    simp [argsDelta, hempty, hat, hlength, hrest]
  · have hpos := Text.byteLen_pos hrest
    have hlt : tool.argsSentAt < byteLen tool.arguments := by omega
    rcases hdelta with h | h
    · simp only [argsDelta, h, hlt, and_self, if_true]
      rw [hat, hargs, Text.dropBytes_append]
    · simp [argsDelta, h, hrest, hat, hlength]

namespace ArgumentsSent

variable {tool' : ResponsesStreamTool} {u : AnswerTool}

section

variable (h : ArgumentsSent tool u) (hgrows : Grows rest tool tool')
  (hdelta : explicitDelta = "" ∨ explicitDelta = rest)

include h hgrows hdelta

/-- Once the delta is sent, the client has the new arguments too. -/
theorem sends : ArgumentsSent (tool'.settle (tool'.argsDelta explicitDelta).2)
      (u.add (tool'.response (tool'.argsDelta explicitDelta).1)) := by
  rw [argsDelta_more hgrows.arguments (hgrows.sentAt.trans h.sentAt) hdelta]
  refine ⟨rfl, rfl, ?_⟩
  show u.arguments ++ rest = tool'.arguments
  rw [h.arguments, hgrows.arguments]

theorem quiet (hq : tool'.Quiet explicitDelta) : ArgumentsSent tool' u := by
  have hrest : rest = "" := by
    have hnothing := hq.2.1
    rwa [argsDelta_more hgrows.arguments (hgrows.sentAt.trans h.sentAt) hdelta] at hnothing
  have hsame : tool'.arguments = tool.arguments := by
    rw [hgrows.arguments, hrest, String.append_empty]
  exact ⟨hq.1, by rw [hgrows.sentAt, h.sentAt, hsame], by rw [h.arguments, hsame]⟩

end

/-- A new tool call sends all its arguments. -/
theorem new (hat : tool.argsSentAt = 0) (index : Int) :
    ArgumentsSent (tool.settle (tool.argsDelta "").2)
      (AnswerTool.add { index } (tool.response (tool.argsDelta "").1)) := by
  rw [argsDelta_fresh hat]
  exact ⟨rfl, rfl, by simp [AnswerTool.add, ResponsesStreamTool.response, settle]⟩

end ArgumentsSent

/-! ### Steps without tool calls -/

/-- From `p` to `p'` nothing happened to the tool calls. -/
structure Apart (p p' : ChatLink) : Prop where
  names : SameNames p.1 p'.1
  tools : p'.1.tools = p.1.tools
  sawToolCall : p'.1.sawToolCall = p.1.sawToolCall
  finalized : p'.1.finalized = p.1.finalized
  answered : p'.2.tools = p.2.tools

namespace Apart

theorem refl (p : ChatLink) : Apart p p := ⟨rfl, rfl, rfl, rfl, rfl⟩

theorem trans {p p' p'' : ChatLink} (h : Apart p p') (h' : Apart p' p'') : Apart p p'' where
  names := Eq.trans h'.names h.names
  tools := h'.tools.trans h.tools
  sawToolCall := h'.sawToolCall.trans h.sawToolCall
  finalized := h'.finalized.trans h.finalized
  answered := h'.answered.trans h.answered

theorem of_ensureStart (p : ChatLink) : Apart p (readChunks ensureStart p) := by
  obtain ⟨s, a⟩ := p
  rw [reads_ensureStart]
  exact ⟨rfl, rfl, rfl, rfl, by simp⟩

theorem of_textDelta (delta : String) (p : ChatLink) :
    Apart p (readChunks (textDelta delta) p) := by
  obtain ⟨s, a⟩ := p
  by_cases hdelta : delta = ""
  · rw [hdelta, textDelta, if_pos rfl]
    exact refl _
  · rw [reads_textDelta hdelta]
    exact ⟨rfl, rfl, rfl, rfl, by simp⟩

theorem of_reasoningDelta (delta : String) (p : ChatLink) :
    Apart p (readChunks (reasoningDelta delta) p) := by
  obtain ⟨s, a⟩ := p
  by_cases hdelta : delta = ""
  · have hnothing : reasoningDelta delta s = (s, []) := if_pos hdelta
    rw [readChunks_silent hnothing]
    exact refl _
  · rw [reads_reasoningDelta_sent hdelta]
    exact ⟨rfl, rfl, rfl, rfl, by simp⟩

theorem of_metadata (response : Option OpenAIResponsesResponse) (p : ChatLink) :
    Apart p (readChunks (.modify (applyResponseMetadata response)) p) := by
  cases response <;> exact ⟨rfl, rfl, rfl, rfl, rfl⟩

end Apart

/-- The events about tool calls: a delta of the arguments, the end of the arguments, an item that is
added and one that is done. -/
inductive ToolEvent
  | delta
  | flush
  | added
  | done
deriving DecidableEq

def ResponsesEventType.toolEvent : ResponsesEventType → Option ToolEvent
  | .functionArgsDelta | .customToolInputDelta => some .delta
  | .functionArgsDone | .customToolInputDone => some .flush
  | .outputItemAdded => some .added
  | .outputItemDone => some .done
  | _ => none

/-- The end of a stream, or an error. -/
def ResponsesEventType.isEnd : ResponsesEventType → Bool
  | .completed | .done | .incomplete | .failed | .error => true
  | _ => false

/-- The event is not about a tool call, and it does not end the stream. -/
def ResponsesStreamResponse.NotTool (event : ResponsesStreamResponse) : Prop :=
  event.type.isEnd = false ∧ (event.type.toolEvent = none ∨
      ((event.type.toolEvent = some .added ∨ event.type.toolEvent = some .done) ∧
        ∀ item ∈ event.item, isResponsesToolOutputType item.type = false))
deriving Decidable

theorem convertEvent_delta (h : event.type.toolEvent = some .delta) :
    convertEvent event = toolArgumentsDelta event := by
  unfold convertEvent
  cases htype : event.type <;> simp_all [toolEvent]

theorem convertEvent_flush (h : event.type.toolEvent = some .flush) :
    convertEvent event = flushPendingTool event := by
  unfold convertEvent
  cases htype : event.type <;> simp_all [toolEvent]

section

variable (h : event.type.toolEvent = some .added ∨ event.type.toolEvent = some .done)

include h

/-- An item of a tool call, added or done. -/
theorem convertEvent_item (hitem : event.item = some item)
    (htool : isResponsesToolOutputType item.type = true) :
    convertEvent event = toolItem event item := by
  unfold convertEvent
  cases htype : event.type <;> simp_all [toolEvent]

theorem convertEvent_no_tool
    (hitem : ∀ item ∈ event.item, isResponsesToolOutputType item.type = false) :
    convertEvent event = .emit [] := by
  have hitem' : ∀ item, event.item = some item →
      isResponsesToolOutputType item.type = false := hitem
  unfold convertEvent
  cases hsome : event.item with
  | none => cases htype : event.type <;> simp_all [toolEvent]
  | some item => cases htype : event.type <;> simp_all [toolEvent]

end

theorem convertEvent_terminal
    (h : event.type = .completed ∨ event.type = .done ∨ event.type = .incomplete) :
    convertEvent event = terminalChunks event := by
  unfold convertEvent
  rcases h with h | h | h <;> simp only [h]

theorem streamError_eq_none
    (h : event.type.isEnd = false ∨ event.type = .completed ∨ event.type = .done ∨
    event.type = .incomplete) : streamError event = none := by
  unfold streamError
  cases htype : event.type <;> simp_all [isEnd]

theorem ResponsesEventType.isEnd_of_toolEvent {eventType : ResponsesEventType} {kind : ToolEvent}
    (h : eventType.toolEvent = some kind) : eventType.isEnd = false := by
  cases eventType <;> simp_all [toolEvent, isEnd]

/-- An event that is not about a tool call leaves all tool calls alone. -/
theorem Apart.of_event (h : event.NotTool) (p : ChatLink) :
    Apart p (readChunks (convertEvent event) p) := by
  obtain ⟨hend, htool | ⟨hkind, hitem⟩⟩ := h
  · -- events of tools and of the end are excluded
    unfold convertEvent
    cases htype : event.type with
    | created =>
      simp only [readChunks_seq]
      exact (of_metadata _ p).trans (of_ensureStart _)
    | outputTextDelta => exact of_textDelta _ p
    | reasoningSummaryDelta => exact of_reasoningDelta _ p
    | reasoningTextDelta => exact of_reasoningDelta _ p
    | reasoningSummaryDone => exact ⟨rfl, rfl, rfl, rfl, rfl⟩
    | reasoningTextDone => exact ⟨rfl, rfl, rfl, rfl, rfl⟩
    | outputTextDone => exact refl p
    | other => exact refl p
    | outputItemAdded | outputItemDone | functionArgsDelta | customToolInputDelta | functionArgsDone
    | customToolInputDone => simp [htype, toolEvent] at htool
    | completed | done | incomplete | failed | error => simp [htype, isEnd] at hend
  · rw [convertEvent_no_tool hkind hitem]
    exact refl p

theorem ResponsesOutputType.ne_of_tool {type : ResponsesOutputType}
    (h : isResponsesToolOutputType type = true) :
    type ≠ .message ∧ type ≠ .reasoning := by
  constructor <;> rintro rfl <;> cases h

/-- An output at the end that is not a tool call leaves all tool calls alone. -/
theorem Apart.of_output {out : ResponsesOutput} (h : isResponsesToolOutputType out.type = false)
    (p : ChatLink) : Apart p (readChunks (terminalOutput out) p) := by
  obtain ⟨s, a⟩ := p
  by_cases hmessage : out.type = .message ∧ s.hasSentText = false
  · have hout : terminalOutput out s = textDelta (outputTextOf out) s := if_pos hmessage
    rw [readChunks_congr hout]
    exact of_textDelta _ _
  by_cases hreasoning : out.type = .reasoning ∧ s.hasSentReasoning = false
  · have hout : terminalOutput out s = reasoningDelta (contentTextOf out) s := by
      rw [terminalOutput, if_neg hmessage, if_pos hreasoning]
    rw [readChunks_congr hout]
    exact of_reasoningDelta _ _
  · have hout : terminalOutput out s = (s, []) := by
      simp [terminalOutput, if_neg hmessage, if_neg hreasoning, h]
    rw [readChunks_silent hout]
    exact refl _
