/-
A whole response, streamed as one event, against the same response in one message.

The stream converter replays the response against flags that say whether text or reasoning
was sent before, and the replay itself sets them: of several messages the first with a text
is sent, of several reasoning items the first with a text.

* `replay_agrees_iff` — when both conversions give the same answer;
* `second_message_lost` — a response with two messages.
-/
import AcuGateway.ResponsesToolTable

open List ResponsesStreamTool Option AnswerTool
open Text (trimSpace byteLen firstText)
open ResponsesToChatStreamState

/-! ### The same answer -/

/-- The id, the name and the arguments of a tool call. -/
def AnswerTool.described (tool : AnswerTool) : String × String × String :=
  (tool.id, tool.name, tool.arguments)

/-- The streamed answer is the one in `response`. -/
structure SameReplay (streamed : ChatAnswer) (response : OpenAITextResponse) : Prop where
  text : response.choices.map (·.message.content) = [streamed.text]
  reasoning : response.choices.map (·.message.reasoningContent.getD "") = [streamed.reasoning]
  tools : response.choices.map (·.message.toolCalls.map fun call =>
      (call.id, call.function.name, call.function.arguments)) =
    [streamed.tools.map described]
  finishReason : response.choices.map (·.finishReason) = streamed.finishReasons

variable (outputs : List ResponsesOutput)

def messageTexts : List String := (outputs.filter (·.type = .message)).map outputTextOf

def reasoningTexts : List String := (outputs.filter (·.type = .reasoning)).map contentTextOf

def toolOutputs : List ResponsesOutput :=
  outputs.filter fun out => isResponsesToolOutputType out.type

variable (out : ResponsesOutput)

/-- The item id of an output, if it has one. -/
def outputItem : Option String := if trimSpace out.id = "" then none else some (trimSpace out.id)

/-- The output has an item id or a call id. -/
def HasName : Prop := outputItem out ≠ none ∨ itemCall out ≠ none

/-- Two outputs have an item id or a call id in common. -/
def SharesName (out out' : ResponsesOutput) : Prop :=
  (outputItem out = outputItem out' ∧ outputItem out ≠ none) ∨
    (itemCall out = itemCall out' ∧ itemCall out ≠ none)

/-- Every output has a name of its own. -/
def OwnNames (outputs : List ResponsesOutput) : Prop :=
  (∀ out ∈ outputs, HasName out) ∧ outputs.Pairwise fun out out' => ¬ SharesName out out'

/-- At most one message and at most one reasoning item have a text, the tool calls have names of
their own, and an incomplete response says so. -/
structure Replayable (type : ResponsesEventType) (resp : OpenAIResponsesResponse) : Prop where
  oneText : ((messageTexts resp.output).filter (· ≠ "")).length ≤ 1
  oneReasoning : ((reasoningTexts resp.output).filter (· ≠ "")).length ≤ 1
  someText : (∃ t ∈ messageTexts resp.output, t ≠ "") ∨ ∀ out ∈ resp.output, contentTextOf out = ""
  ownNames : OwnNames (toolOutputs resp.output)
  status : type = .incomplete → resp.status ≠ .absent

/-! ### Names in a replay -/

/-- The event that the replay makes of an output. -/
def replayEvent : ResponsesStreamResponse := { item := some out }

/-- The key of an output in a replay. -/
def replayKey : Option ToolKey := fallbackToolKey out.id out.callId none

theorem eventItem_replay : eventItem (replayEvent out) = outputItem out := by
  by_cases hid : trimSpace out.id = "" <;>
    simp [eventItem, outputItem, replayEvent, responseStreamEventItemID, hid]

theorem keyForEvent_replay :
    (keyForEvent (replayEvent out) <|>
      fallbackToolKey out.id out.callId (replayEvent out).outputIndex) = replayKey out := by
  have hitem : eventItemKey { item := some out } = none := by simp [eventItemKey]
  simp [keyForEvent, hitem, replayEvent, replayKey]

theorem replayKey_cases : (∃ id, replayKey out = some (.item id) ∧ outputItem out = some id) ∨
      (∃ id, replayKey out = some (.call id) ∧ outputItem out = none ∧ itemCall out = some id) ∨
      (replayKey out = none ∧ outputItem out = none ∧ itemCall out = none) := by
  by_cases hid : trimSpace out.id = ""
  · by_cases hcall : trimSpace out.callId = ""
    · simp [replayKey, fallbackToolKey, outputItem, itemCall, hid, hcall]
    · simp [replayKey, fallbackToolKey, outputItem, itemCall, hid, hcall]
  · simp [replayKey, fallbackToolKey, outputItem, hid]

/-- `name` is a name of the output. -/
def IsNameOf : ToolName → Prop
  | .key (.item itemID) | .item itemID => outputItem out = some itemID
  | .key (.call callID) | .call callID => itemCall out = some callID
  | .key (.output _) | .output _ => False

variable {out : ResponsesOutput} {p : ChatLink} {done : List ResponsesOutput} {key : ToolKey}

/-- The names that an output gives are names of it. -/
theorem isNameOf_given (hkey : replayKey out = some key) :
    ∀ name, GivenName none (outputItem out) (itemCall out) key name → IsNameOf out name
  | .key _, rfl => by
    rcases replayKey_cases out with ⟨id, hk, hid⟩ | ⟨id, hk, -, hid⟩ | ⟨hk, -⟩ <;>
      rw [hk] at hkey <;> cases hkey
    · exact hid
    · exact hid
  | .item _, h => h
  | .call _, h => h

theorem SharesName.of_name {out' : ResponsesOutput} :
    ∀ {name}, IsNameOf out name → IsNameOf out' name → SharesName out out'
  | .key (.item _), h, h' | .item _, h, h' =>
    .inl ⟨Eq.trans h (Eq.symm h'), ne_none_iff_exists'.mpr ⟨_, h⟩⟩
  | .key (.call _), h, h' | .call _, h, h' =>
    .inr ⟨Eq.trans h (Eq.symm h'), ne_none_iff_exists'.mpr ⟨_, h⟩⟩

/-- The converter knows the names of the outputs that were replayed, and no others. -/
structure KnownNames (done : List ResponsesOutput) (s : ResponsesToChatStreamState) : Prop where
  own : ∀ name n, s.named name = some n → ∃ out ∈ done, IsNameOf out name
  item : ∀ out ∈ done, ∀ id, outputItem out = some id → ∃ n, s.named (.item id) = some n
  call : ∀ out ∈ done, ∀ id, itemCall out = some id → ∃ n, s.named (.call id) = some n

variable {s s' : ResponsesToChatStreamState}

section Known

variable {out : ResponsesOutput} {n : Nat}

variable (h : KnownNames done s)

include h

theorem KnownNames.congr (hs : SameNames s s') : KnownNames done s' := by
  obtain ⟨hown, hitem, hcall⟩ := h
  rw [← hs.named] at hown hitem hcall
  exact ⟨hown, hitem, hcall⟩

theorem KnownNames.concat (hkey : replayKey out = some key)
    (hs : NamesBound none (outputItem out) (itemCall out) key n s s') :
    KnownNames (done ++ [out]) s' := by
  -- what was found is found, if only somewhere else
  have hkeeps : ∀ name, (∃ m, s.named name = some m) → ∃ m, s'.named name = some m := by
    rintro name ⟨m, hm⟩
    by_cases hgiven : GivenName none (outputItem out) (itemCall out) key name
    · exact ⟨n, hs.given name hgiven⟩
    · exact ⟨m, (hs.other name hgiven).trans hm⟩
  refine ⟨fun name m hm => ?_, ?_, ?_⟩
  · by_cases hgiven : GivenName none (outputItem out) (itemCall out) key name
    · exact ⟨out, by simp, isNameOf_given hkey name hgiven⟩
    · obtain ⟨prev, hprev, hname⟩ := h.own name m ((hs.other name hgiven).symm.trans hm)
      exact ⟨prev, mem_append_left _ hprev, hname⟩
  · simp only [forall_mem_append, forall_mem_singleton]
    exact ⟨fun prev hprev id hid => hkeeps _ (h.item prev hprev id hid),
      fun id hid => ⟨n, hs.given (.item id) hid⟩⟩
  · simp only [forall_mem_append, forall_mem_singleton]
    exact ⟨fun prev hprev id hid => hkeeps _ (h.call prev hprev id hid),
      fun id hid => ⟨n, hs.given (.call id) hid⟩⟩

/-- An output without a name changes nothing. -/
theorem KnownNames.skip (hout : ¬ HasName out) : KnownNames (done ++ [out]) s := by
  simp only [HasName, ne_eq, not_or, not_not] at hout
  refine ⟨fun name m hm => ?_, ?_, ?_⟩
  · obtain ⟨prev, hprev, hname⟩ := h.own name m hm
    exact ⟨prev, mem_append_left _ hprev, hname⟩
  · simpa [forall_mem_append, or_imp, forall_and, hout.1] using h.item
  · simpa [forall_mem_append, or_imp, forall_and, hout.2] using h.call

/-- A tool call is new exactly if it shares no name with an earlier one. -/
theorem toolFor_eq_none_iff (hkey : replayKey out = some key) :
    toolFor (replayEvent out) out key s = none ↔ ∀ prev ∈ done, ¬ SharesName prev out := by
  constructor
  · rw [toolFor, eventItem_replay]
    intro hnone prev hprev hshares
    -- an item is found by its own id first, and by that of its call
    rcases hshares with ⟨hitem, hsome⟩ | ⟨hcall, hsome⟩
    · obtain ⟨id, hid⟩ := ne_none_iff_exists'.mp hsome
      obtain ⟨n, hn⟩ : ∃ n, s.toolOfItem id = some n := h.item prev hprev id hid
      have hid' : outputItem out = some id := hitem ▸ hid
      cases hat : s.toolAt key <;> simp [hat, hid', hn] at hnone
    · obtain ⟨id, hid⟩ := ne_none_iff_exists'.mp hsome
      obtain ⟨n, hn⟩ : ∃ n, s.toolOfCall id = some n := h.call prev hprev id hid
      have hid' : itemCall out = some id := hcall ▸ hid
      cases hat : s.toolAt key <;> cases hitem : (outputItem out).bind s.toolOfItem <;>
        simp [hat, hitem, hid', hn] at hnone
  · intro hfresh
    refine eq_none_iff_forall_ne_some.mpr fun n hn => ?_
    obtain ⟨name, hgiven, hn⟩ := exists_name_of_toolFor hn
    rw [eventItem_replay] at hgiven
    obtain ⟨prev, hprev, hname⟩ := h.own name n hn
    exact hfresh prev hprev (.of_name hname (isNameOf_given hkey name hgiven))

end Known

theorem ownNames_concat : OwnNames (done ++ [out]) ↔
      OwnNames done ∧ HasName out ∧ ∀ prev ∈ done, ¬ SharesName prev out := by
  simp only [OwnNames, mem_append, mem_singleton, pairwise_append, pairwise_singleton, true_and]
  constructor
  · rintro ⟨hnames, hpair, hnew⟩
    exact ⟨⟨fun o ho => hnames o (.inl ho), hpair⟩, hnames out (.inr rfl), fun prev hprev =>
      hnew prev hprev out rfl⟩
  · rintro ⟨⟨hnames, hpair⟩, hout, hnew⟩
    refine ⟨fun o ho => ?_, hpair, fun prev hprev o ho => ho ▸ hnew prev hprev⟩
    rcases ho with ho | rfl
    · exact hnames o ho
    · exact hout

/-! ### One tool call -/

/-- A tool call is quiet after its delta. -/
theorem settle_quiet (tool : ResponsesStreamTool) :
    (tool.settle (tool.argsDelta "").2).Quiet "" := by
  refine ⟨rfl, ?_, ?_⟩
  · have hsent : byteLen tool.arguments ≤ (tool.argsDelta "").2 := by
      unfold argsDelta
      split <;> simp_all
    simp only [argsDelta, settle] at hsent ⊢
    rw [if_neg (by omega)]
  · by_cases hname : tool.name = "" <;> simp [settle, hname]

/-- What the client gets of an output with a new tool call. -/
def describe (out : ResponsesOutput) : String × String × String :=
  ((itemCall out).getD (trimSpace out.id), trimSpace out.name, out.argumentsString)

/-- The tool call that an output with new names opens. -/
def replayedTool (out : ResponsesOutput) (key : ToolKey) (index : Nat) : ResponsesStreamTool :=
  { key
    index
    callID := (itemCall out).getD (trimSpace out.id)
    itemID := (outputItem out).getD ""
    name := trimSpace out.name
    arguments := out.argumentsString }

theorem meet_replayed (index : Nat) (hname : trimSpace out.name ≠ "") :
    (({ key, index } : ResponsesStreamTool).meet (replayEvent out) out "").full out =
      replayedTool out key index := by
  by_cases hargs : out.argumentsString = "" <;>
    simp [meet, full, replayedTool, eventItem_replay, hname, hargs]

theorem described_replayed (index : Nat) (hout : HasName out) :
    described (AnswerTool.add { index }
      ((replayedTool out key index).response ((replayedTool out key index).argsDelta "").1)) =
        describe out := by
  have hid : trimSpace ((itemCall out).getD (trimSpace out.id)) =
    (itemCall out).getD (trimSpace out.id) := by
    by_cases hcall : trimSpace out.callId = "" <;> simp [itemCall, hcall]
  have hne : (itemCall out).getD (trimSpace out.id) ≠ "" := by
    by_cases hcall : trimSpace out.callId = ""
    · have hitem : outputItem out ≠ none := by simpa [HasName, itemCall, hcall] using hout
      simpa [itemCall, hcall, outputItem] using hitem
    · simp [itemCall, hcall]
  rw [argsDelta_fresh rfl]
  simp [described, AnswerTool.add, ResponsesStreamTool.response, replayedTool, describe, hid, hne]

/-- The converter and the client after the tool calls `done` were replayed. -/
structure ReplayedTools (done : List ResponsesOutput) (p : ChatLink) : Prop where
  outputs : p.1.pendingArgsByOutputIndex = ∅
  items : p.1.pendingArgsByItemID = ∅
  noDangling : p.1.NoDangling
  names : KnownNames done p.1
  places : ∀ key n, p.1.toolAt key = some n → n < p.1.tools.length
  linked : Linked (fun _ tool _ => tool.Quiet "") p
  sawToolCall : p.1.sawToolCall = decide (p.1.tools ≠ [])
  count : p.1.tools.length ≤ done.length
  all : p.1.tools.length = done.length ↔ OwnNames done
  tools : OwnNames done → p.2.tools.map described = done.map describe

variable {p' : ChatLink} {a : ChatAnswer}

namespace ReplayedTools

variable {out : ResponsesOutput} {n : Nat}

theorem of_same (h : ReplayedTools done p) (hnames : SameNames p.1 p'.1)
    (htools : p'.1.tools = p.1.tools)
    (hsaw : p'.1.sawToolCall = p.1.sawToolCall) (htools' : p'.2.tools = p.2.tools) :
    ReplayedTools done p' where
  outputs := hnames.outputs.trans h.outputs
  items := hnames.items.trans h.items
  noDangling := hnames.noDangling h.noDangling
  names := h.names.congr hnames
  places := by
    rw [hnames.toolAt, htools]
    exact h.places
  linked := h.linked.of_tools htools htools'
  sawToolCall := by rw [hsaw, htools, h.sawToolCall]
  count := htools ▸ h.count
  all := htools ▸ h.all
  tools := htools' ▸ h.tools

/-- Without a tool call for each output, there is none for each of one more. -/
theorem count_missed {k : Nat} (h : k ≤ done.length) (out : ResponsesOutput) :
    k ≤ (done ++ [out]).length ∧ k ≠ (done ++ [out]).length := by
  rw [length_append, length_singleton]
  omega

/-- An output without a name is dropped. -/
theorem nameless (h : ReplayedTools done p) (hout : ¬ HasName out) :
    ReplayedTools (done ++ [out]) p :=
  have hnot : ¬ OwnNames (done ++ [out]) := fun hown => hout (ownNames_concat.mp hown).2.1
  { h with
    names := h.names.skip hout
    count := (count_missed h.count out).1
    all := iff_of_false (count_missed h.count out).2 hnot
    tools := fun hown => absurd hown hnot }

theorem place_of_name (h : ReplayedTools done p) {name : ToolName} (hn : p.1.named name = some n) :
    n < p.1.tools.length := by
  cases name with
  | key key => exact h.places key n hn
  | output | item | call =>
    obtain ⟨key, -, hkey⟩ := bind_eq_some_iff.mp hn
    exact h.places key n hkey

variable {f : ResponsesStreamTool → ResponsesStreamTool}

/-- What all steps that meet a tool call do. -/
theorem met {found : Option Nat} (h : ReplayedTools done (s, a)) (hkey : replayKey out = some key)
    (hmet : ToolMet found f "" none (outputItem out) (itemCall out) key n s s')
    (hlength : n < s'.tools.length) :
    let p := readChunks (toolDelta n "") (s', a)
    p.1.pendingArgsByOutputIndex = ∅ ∧ p.1.pendingArgsByItemID = ∅ ∧ p.1.NoDangling ∧
      KnownNames (done ++ [out]) p.1 ∧ ∀ key m, p.1.toolAt key = some m → m < p.1.tools.length := by
  intro p
  obtain ⟨-, hsame⟩ := reads_toolDelta_only n "" s' a
  have htools : p.1.tools.length = s'.tools.length := reads_toolDelta_length n "" s' a
  have hgrows : s.tools.length ≤ s'.tools.length := by
    rcases hmet.tools with ⟨-, htools⟩ | ⟨-, -, htools⟩ <;> simp [htools]
  obtain ⟨houtputs, hitems⟩ := hmet.nothing_waits h.outputs h.items
  refine ⟨hsame.outputs.trans houtputs, hsame.items.trans hitems,
    hsame.noDangling hmet.names.noDangling, (h.names.concat hkey hmet.names).congr hsame, ?_⟩
  intro key' m hm
  rw [hsame.toolAt] at hm
  rw [htools]
  -- the key of this item points to the tool, the other ones as before
  by_cases hgiven : key' = key
  · have hn : s'.toolAt key' = some n := hmet.names.given (.key key') hgiven
    rw [some.inj (hm.symm.trans hn)]
    exact hlength
  · have hold : s'.toolAt key' = s.toolAt key' := hmet.names.other (.key key') hgiven
    exact Nat.lt_of_lt_of_le (h.places key' m (hold.symm.trans hm)) hgrows

/-- A tool call with a name that is known already. -/
theorem again (hf : ∀ tool, (f tool).index = tool.index)
    (h : ReplayedTools done (s, a)) (hkey : replayKey out = some key)
    (hfound : toolFor (replayEvent out) out key s = some n)
    (hmet : ToolMet (toolFor (replayEvent out) out key s) f "" none (outputItem out)
      (itemCall out) key n
      s s') :
    ReplayedTools (done ++ [out]) (readChunks (toolDelta n "") (s', a)) := by
  obtain ⟨name, -, hname⟩ := exists_name_of_toolFor hfound
  have hplace : n < s.tools.length := h.place_of_name hname
  obtain ⟨-, htools⟩ := hmet.known hfound
  have hn := getElem?_eq_getElem hplace
  have hlength : (readChunks (toolDelta n "") (s', a)).1.tools.length = s.tools.length := by
    rw [reads_toolDelta_length, htools, length_modify]
  -- the item shares a name with an earlier one, and the two become one tool
  have hnot : ¬ OwnNames (done ++ [out]) := by
    rw [ownNames_concat, ← toolFor_eq_none_iff h.names hkey, hfound]
    simp
  obtain ⟨hcount, hmissed⟩ := count_missed (k := s.tools.length) h.count out
  have hsaw : s'.sawToolCall = true := by
    have hflags : s'.sawToolCall = s.sawToolCall := congrArg (·.sawToolCall) hmet.flags
    have hne : s.tools ≠ [] := ne_nil_of_length_pos (by omega)
    rw [hflags, show s.sawToolCall = _ from h.sawToolCall]
    simpa using hne
  obtain ⟨houtputs, hitems, hdangling, hnames, hplaces⟩ :=
    h.met hkey hmet (by rw [htools, length_modify]; exact hplace)
  refine ⟨houtputs, hitems, hdangling, hnames, hplaces, ?_, ?_, ?_, ?_, ?_⟩
  · exact h.linked.known hn (hf _) htools (fun hq _ _ => hq) (fun _ _ _ => settle_quiet _)
      fun _ _ _ _ h => h
  · have hne : (readChunks (toolDelta n "") (s', a)).1.tools ≠ [] := ne_nil_of_length_pos (by omega)
    rw [reads_toolDelta_saw n "" s' a hsaw]
    simpa using hne
  · rwa [hlength]
  · rw [hlength]
    exact iff_of_false hmissed hnot
  · exact fun hown => absurd hown hnot

/-- A tool call with new names. -/
theorem fresh (h : ReplayedTools done (s, a)) (hkey : replayKey out = some key)
    (hname : trimSpace out.name ≠ "") (hfound : toolFor (replayEvent out) out key s = none)
    (hmet : ToolMet (toolFor (replayEvent out) out key s)
      (fun tool => (tool.meet (replayEvent out) out (waitingFor (replayEvent out) s)).full out) ""
        none
      (outputItem out) (itemCall out) key n s s') :
    ReplayedTools (done ++ [out]) (readChunks (toolDelta n "") (s', a)) := by
  obtain ⟨rfl, htools⟩ := hmet.new hfound
  rw [waitingFor_eq_empty _ h.outputs h.items, meet_replayed s.tools.length hname] at htools
  -- no earlier item shares a name with it
  have hfresh := (toolFor_eq_none_iff h.names hkey).mp hfound
  have hhas : HasName out := by
    rcases replayKey_cases out with ⟨id, -, hid⟩ | ⟨id, -, -, hid⟩ | ⟨hk, -⟩
    · exact .inl (by simp [hid])
    · exact .inr (by simp [hid])
    · rw [hk] at hkey
      cases hkey
  obtain ⟨houtputs, hitems, hdangling, hnames, hplaces⟩ := h.met hkey hmet (by simp [htools])
  obtain ⟨htools₁, hsaw, htools₂⟩ := h.linked.reads_new rfl rfl htools ""
  have hlength : (readChunks (toolDelta s.tools.length "") (s', a)).1.tools.length =
      s.tools.length + 1 := by
    rw [htools₁, length_append, length_singleton]
  refine ⟨houtputs, hitems, hdangling, hnames, hplaces, ?_, ?_, ?_, ?_, ?_⟩
  · exact h.linked.new rfl rfl htools (settle_quiet _) fun _ _ _ _ h => h
  · rw [hsaw, htools₁]
    simp
  · rw [hlength, length_append, length_singleton]
    exact Nat.succ_le_succ h.count
  · rw [hlength, ownNames_concat, length_append, length_singleton, Nat.succ_inj]
    exact ⟨fun hall => ⟨h.all.mp hall, hhas, hfresh⟩, fun hown => h.all.mpr hown.1⟩
  · intro hown
    rw [htools₂, map_append, h.tools (ownNames_concat.mp hown).1, map_append]
    simp [described_replayed s.tools.length hhas]

theorem tool (h : ReplayedTools done (s, a)) (hname : trimSpace out.name ≠ "") :
    ReplayedTools (done ++ [out]) (readChunks (toolItem (replayEvent out) out) (s, a)) ∧
      OnlyTools (s, a) (readChunks (toolItem (replayEvent out) out) (s, a)) := by
  -- an item without any name is skipped
  cases hkey : replayKey out with
  | none =>
    have hout : ¬ HasName out := by
      rcases replayKey_cases out with ⟨id, hk, -⟩ | ⟨id, hk, -⟩ | ⟨-, hitem, hcall⟩
      · simp [hk] at hkey
      · simp [hk] at hkey
      · simp [HasName, hitem, hcall]
    have hnothing : toolItem (replayEvent out) out s = (s, []) := by
      simp [toolItem, ensureToolForEvent, keyForEvent_replay, hkey]
    rw [readChunks_silent hnothing]
    exact ⟨h.nameless hout, .of_flags rfl a⟩
  | some key =>
    obtain ⟨n, s', hitem, hmet⟩ := toolItem_met h.noDangling ((keyForEvent_replay out).trans hkey)
    rw [eventItem_replay] at hmet
    rw [readChunks_congr hitem]
    refine ⟨?_, (OnlyTools.of_flags hmet.flags a).trans (reads_toolDelta_only n "" s' a).1⟩
    cases hfound : toolFor (replayEvent out) out key s with
    | none => exact h.fresh hkey hname hfound hmet
    | some m =>
      obtain ⟨rfl, -⟩ := hmet.known hfound
      refine h.again (fun tool => ?_) hkey hfound hmet
      simp only [full_eq, meet]

end ReplayedTools

/-! ### The whole replay -/

/-- The text and the reasoning after the outputs `done` were replayed. -/
structure ReplayedTexts (done : List ResponsesOutput) (p : ChatLink) : Prop where
  text : p.2.text = firstText (messageTexts done)
  sentText : p.1.hasSentText = decide (p.2.text ≠ "")
  reasoning : p.2.reasoning = firstText (reasoningTexts done)
  sentReasoning : p.1.hasSentReasoning = decide (p.2.reasoning ≠ "")
  summaryBreak : p.1.needsReasoningSummaryBreak = false
  finalized : p.1.finalized = false
  finishReasons : p.2.finishReasons = []

theorem ReplayedTexts.of_tools (h : ReplayedTexts done p) (hp' : OnlyTools p p') :
    ReplayedTexts done p' where
  text := hp'.text.trans h.text
  sentText := by rw [hp'.hasSentText, hp'.text, h.sentText]
  reasoning := hp'.reasoning.trans h.reasoning
  sentReasoning := by rw [hp'.hasSentReasoning, hp'.reasoning, h.sentReasoning]
  summaryBreak := hp'.summaryBreak.trans h.summaryBreak
  finalized := hp'.finalized.trans h.finalized
  finishReasons := hp'.finishReasons.trans h.finishReasons

/-- The converter and the client after the outputs `done` were replayed. -/
structure Replayed (done : List ResponsesOutput) (p : ChatLink) : Prop where
  texts : ReplayedTexts done p
  tools : ReplayedTools (toolOutputs done) p

section

variable (done : List ResponsesOutput) (out : ResponsesOutput)

theorem messageTexts_concat : messageTexts (done ++ [out]) =
      messageTexts done ++ if out.type = .message then [outputTextOf out] else [] := by
  by_cases htype : out.type = .message <;> simp [messageTexts, htype]

theorem reasoningTexts_concat : reasoningTexts (done ++ [out]) =
      reasoningTexts done ++ if out.type = .reasoning then [contentTextOf out] else [] := by
  by_cases htype : out.type = .reasoning <;> simp [reasoningTexts, htype]

theorem toolOutputs_concat : toolOutputs (done ++ [out]) =
      toolOutputs done ++ if isResponsesToolOutputType out.type then [out] else [] := by
  by_cases htype : isResponsesToolOutputType out.type <;> simp [toolOutputs, htype]

end

section Step

variable {out : ResponsesOutput}

namespace ReplayedTexts

section

variable (h : ReplayedTexts done (s, a))

include h

/-- An output that sends nothing. -/
theorem silent (hnothing : terminalOutput out s = (s, []))
    (htext : a.text = firstText (messageTexts (done ++ [out])))
    (hreasoning : a.reasoning = firstText (reasoningTexts (done ++ [out]))) :
    ReplayedTexts (done ++ [out]) (readChunks (terminalOutput out) (s, a)) := by
  rw [readChunks_silent hnothing]
  exact { h with text := htext, reasoning := hreasoning }

theorem message (htype : out.type = .message) :
    ReplayedTexts (done ++ [out]) (readChunks (terminalOutput out) (s, a)) := by
  have hreasoning : a.reasoning = firstText (reasoningTexts (done ++ [out])) := by
    simpa [reasoningTexts_concat, htype] using h.reasoning
  have htext : firstText (messageTexts (done ++ [out])) = if a.text = "" then outputTextOf out
      else a.text := by
    rw [messageTexts_concat, if_pos htype, Text.firstText_concat, ← h.text]
  -- the first text that is not empty is sent, the later ones are not
  by_cases hsent : a.text = ""
  · have hflag : s.hasSentText = false := by simpa [hsent] using h.sentText
    have hdelta : terminalOutput out s = textDelta (outputTextOf out) s := by
      simp [terminalOutput, htype, hflag]
    rw [if_pos hsent] at htext
    by_cases hempty : outputTextOf out = ""
    · exact h.silent (by rw [hdelta, hempty]; rfl) (by rw [htext, hempty, hsent]) hreasoning
    · rw [readChunks_congr hdelta, reads_textDelta hempty]
      refine ⟨?_,
        by simp [hempty], by simpa using hreasoning, by
          simpa using h.sentReasoning, h.summaryBreak, h.finalized,
        by simpa using h.finishReasons⟩
      rw [htext, hsent, String.empty_append]
  · have hflag : s.hasSentText = true := by simpa [hsent] using h.sentText
    exact h.silent (by simp [terminalOutput, htype, hflag, isResponsesToolOutputType])
      (by rw [htext, if_neg hsent]) hreasoning

theorem thinking (htype : out.type = .reasoning) :
    ReplayedTexts (done ++ [out]) (readChunks (terminalOutput out) (s, a)) := by
  have htext : a.text = firstText (messageTexts (done ++ [out])) := by
    simpa [messageTexts_concat, htype] using h.text
  have hreasoning : firstText (reasoningTexts (done ++ [out])) =
      if a.reasoning = "" then contentTextOf out else a.reasoning := by
    rw [reasoningTexts_concat, if_pos htype, Text.firstText_concat, ← h.reasoning]
  -- so it is with the reasoning
  by_cases hsent : a.reasoning = ""
  · have hflag : s.hasSentReasoning = false := by simpa [hsent] using h.sentReasoning
    have hdelta : terminalOutput out s = reasoningDelta (contentTextOf out) s := by
      simp [terminalOutput, htype, hflag]
    rw [if_pos hsent] at hreasoning
    by_cases hempty : contentTextOf out = ""
    · exact h.silent (by rw [hdelta]; exact if_pos hempty) htext (by rw [hreasoning, hempty, hsent])
    · rw [readChunks_congr hdelta, reads_reasoningDelta hempty s h.summaryBreak]
      refine ⟨by simpa using htext, by simpa using h.sentText, ?_, by simp [hempty], h.summaryBreak,
        h.finalized,
        by simpa using h.finishReasons⟩
      rw [hreasoning, hsent, String.empty_append]
  · have hflag : s.hasSentReasoning = true := by simpa [hsent] using h.sentReasoning
    exact h.silent (by simp [terminalOutput, htype, hflag, isResponsesToolOutputType]) htext
      (by rw [hreasoning, if_neg hsent])

end

theorem other (h : ReplayedTexts done p) (hmessage : out.type ≠ .message)
    (hreasoning : out.type ≠ .reasoning) :
    ReplayedTexts (done ++ [out]) p :=
  { h with
    text := by simpa [messageTexts_concat, hmessage] using h.text
    reasoning := by simpa [reasoningTexts_concat, hreasoning] using h.reasoning }

end ReplayedTexts

/-- One output of the response. -/
theorem Replayed.step (h : Replayed done (s, a))
    (hname : isResponsesToolOutputType out.type = true → trimSpace out.name ≠ "") :
    Replayed (done ++ [out]) (readChunks (terminalOutput out) (s, a)) := by
  -- tools and texts do not meet
  cases htool : isResponsesToolOutputType out.type with
  | true =>
    obtain ⟨hmessage, hreasoning⟩ := ResponsesOutputType.ne_of_tool htool
    have hitem : terminalOutput out s = toolItem (replayEvent out) out s := by
      simp [terminalOutput, hmessage, hreasoning, htool, replayEvent]
    obtain ⟨htools, honly⟩ := h.tools.tool (hname htool)
    rw [readChunks_congr hitem]
    exact ⟨(h.texts.of_tools honly).other hmessage hreasoning,
      by simpa [toolOutputs_concat, htool] using htools⟩
  | false =>
    have hapart := Apart.of_output htool (s, a)
    refine ⟨?_, by simpa [toolOutputs_concat, htool] using
      h.tools.of_same hapart.names hapart.tools hapart.sawToolCall hapart.answered⟩
    by_cases hmessage : out.type = .message
    · exact h.texts.message hmessage
    by_cases hreasoning : out.type = .reasoning
    · exact h.texts.thinking hreasoning
    have hnothing : terminalOutput out s = (s, []) := by
      simp [terminalOutput, hmessage, hreasoning, htool]
    rw [readChunks_silent hnothing]
    exact h.texts.other hmessage hreasoning

end Step

theorem Replayed.run {outputs : List ResponsesOutput}
    (hnames : ∀ out ∈ outputs, isResponsesToolOutputType out.type = true → trimSpace out.name ≠ "")
    (h : Replayed done p) :
    Replayed (done ++ outputs)
      (Run.exec (fun p out => readChunks (terminalOutput out) p) p outputs) := by
  induction outputs generalizing done p with
  | nil => simpa using h
  | cons out outputs ih =>
    obtain ⟨hname, hnames⟩ := forall_mem_cons.mp hnames
    have hrest := ih hnames (h.step hname)
    rwa [append_assoc] at hrest

theorem Replayed.start (response : Option OpenAIResponsesResponse) (model : String)
    (includeUsage : Bool) (now : Int) :
    Replayed []
      (applyResponseMetadata response (newResponsesToChatStreamState model includeUsage now),
        {}) := by
  have htools : ReplayedTools [] (newResponsesToChatStreamState model includeUsage now, {}) := by
    refine ⟨rfl, rfl, ⟨nofun, nofun, nofun⟩, ⟨fun name n hn => ?_, nofun, nofun⟩, nofun,
      linked_new .., rfl, le_rfl,
      by simp [OwnNames, newResponsesToChatStreamState], fun _ => rfl⟩
    cases name <;> cases hn
  cases response with
  | none => exact ⟨⟨rfl, rfl, rfl, rfl, rfl, rfl, rfl⟩, htools⟩
  | some response => exact ⟨⟨rfl, rfl, rfl, rfl, rfl, rfl, rfl⟩, htools.of_same rfl rfl rfl rfl⟩

theorem ReplayedTools.allQuiet (h : ReplayedTools done p) : AllQuiet p.1 where
  outputs := h.outputs
  items := h.items
  tools key n hkey := by
    have hn := getElem?_eq_getElem (h.places key n hkey)
    obtain ⟨-, -, -, hquiet⟩ := h.linked.exists_client hn
    exact ⟨_, hn, hquiet⟩

/-- What the client reads of a response that comes as one event. -/
structure ReadsAll (resp : OpenAIResponsesResponse) (response : Option OpenAIResponsesResponse)
    (a : ChatAnswer) :
    Prop where
  text : a.text = firstText (messageTexts resp.output)
  reasoning : a.reasoning = firstText (reasoningTexts resp.output)
  count : a.tools.length ≤ (toolOutputs resp.output).length
  all : a.tools.length = (toolOutputs resp.output).length ↔ OwnNames (toolOutputs resp.output)
  tools : OwnNames (toolOutputs resp.output) →
    a.tools.map described = (toolOutputs resp.output).map describe
  finishReasons : a.finishReasons = [(responsesFinishReasonFromStatus response).getD
    (if a.tools = [] then "stop" else "tool_calls")]

variable {resp : OpenAIResponsesResponse}

theorem terminalChunks_readsAll (event : ResponsesStreamResponse)
    (resp response : OpenAIResponsesResponse)
    (hresponse : terminalResponse event = some response) (houtput : response.output = resp.output)
    (hnames : ∀ out ∈ resp.output, isResponsesToolOutputType out.type = true →
      trimSpace out.name ≠ "")
    (model : String) (includeUsage : Bool) (now : Int) :
    ReadsAll resp (some response)
      (readChunks (terminalChunks event)
        (newResponsesToChatStreamState model includeUsage now, {})).2 := by
  have hrun := (Replayed.start (some response) model includeUsage now).run hnames
  have hreplay : ∀ p : ChatLink, readChunks (terminalOutputChunks (some response)) p =
      Run.exec (fun p out => readChunks (terminalOutput out) p) p resp.output := by
    intro p
    rw [← houtput]
    exact Transducer.reads_outputs ChatAnswer.add p.1 p.2 response.output
  rw [terminalChunks, hresponse, readChunks_seq, readChunks_modify, readChunks_seq, hreplay]
  rw [nil_append] at hrun
  generalize Run.exec (fun p out => readChunks (terminalOutput out) p) _ resp.output = p at hrun ⊢
  obtain ⟨s, a⟩ := p
  obtain ⟨htexts, htools⟩ := hrun
  rw [reads_finalize_quiet htools.allQuiet htexts.finalized]
  have hlength : a.tools.length = s.tools.length := htools.linked.length
  -- the reason tells whether there were calls
  have hnil : s.tools = [] ↔ a.tools = [] := by
    rw [← length_eq_zero_iff, ← hlength, length_eq_zero_iff]
  have hcount := htools.count
  have hall := htools.all
  simp only [← hlength] at hcount hall
  refine ⟨?_, ?_, ?_, ?_, ?_, ?_⟩
  · simpa using htexts.text
  · simpa using htexts.reasoning
  · simpa using hcount
  · simpa using hall
  · simpa using htools.tools
  · have hsaw : s.sawToolCall = decide (s.tools ≠ []) := htools.sawToolCall
    have hfinish : a.finishReasons = [] := htexts.finishReasons
    by_cases hempty : a.tools = []
    · simp [hfinish, finishReasonOf, hsaw, hnil, hempty]
    · simp [hfinish, finishReasonOf, hsaw, hnil, hempty]

/-! ### Agreement -/

/-- The text that is kept without a stream. -/
theorem extractOutputText_eq_iff
    (hroles : ∀ out ∈ resp.output, out.type = .message → out.role = "" ∨ out.role = "assistant") :
    extractOutputTextFromResponses resp = firstText (messageTexts resp.output) ↔
      ((messageTexts resp.output).filter (· ≠ "")).length ≤ 1 ∧
        ((∃ t ∈ messageTexts resp.output, t ≠ "") ∨
          ∀ out ∈ resp.output, contentTextOf out = "") := by
  have hfilter : (resp.output.filter fun out =>
      out.type = .message && (out.role = "" || out.role = "assistant")) =
        resp.output.filter (·.type = .message) := by
    refine filter_congr fun out hout => ?_
    by_cases htype : out.type = .message
    · simpa [htype] using hroles out hout htype
    · simp [htype]
  have hextract : extractOutputTextFromResponses resp =
      if String.join (messageTexts resp.output) ≠ "" then String.join (messageTexts resp.output)
      else String.join (resp.output.map contentTextOf) := by
    simp only [extractOutputTextFromResponses, hfilter]
    rfl
  have hone := Text.join_eq_firstText_iff (messageTexts resp.output)
  rw [hextract]
  -- without a text in a message the texts of all items are joined
  by_cases hjoin : String.join (messageTexts resp.output) = ""
  · have hempty := (Text.join_eq_empty_iff _).mp hjoin
    have hfirst := (Text.firstText_eq_empty_iff _).mpr hempty
    have hnone : ¬ ∃ t ∈ messageTexts resp.output, t ≠ "" := by
      rintro ⟨t, ht, hne⟩
      exact hne (hempty t ht)
    rw [if_neg (by simpa using hjoin), hfirst, Text.join_eq_empty_iff]
    simp only [hnone, false_or]
    rw [← hone, hjoin, hfirst]
    simp
  · have hsome : ∃ t ∈ messageTexts resp.output, t ≠ "" := by
      by_contra hnone
      push Not at hnone
      exact hjoin ((Text.join_eq_empty_iff _).mpr hnone)
    rw [if_pos hjoin, hone]
    simp [hsome]

theorem toolCalls_describe
    (hnames : ∀ out ∈ resp.output, isResponsesToolOutputType out.type = true →
      trimSpace out.name ≠ "") :
    (resp.output.filterMap toolCallOf).map (fun call =>
      (call.id, call.function.name, call.function.arguments)) =
        (toolOutputs resp.output).map describe := by
  generalize resp.output = outputs at hnames
  induction outputs with
  | nil => rfl
  | cons out outputs ih =>
    obtain ⟨hname, hnames⟩ := forall_mem_cons.mp hnames
    have hrest := ih hnames
    cases htool : isResponsesToolOutputType out.type with
    | false => simpa [toolCallOf, htool, toolOutputs] using hrest
    | true =>
      have hname := hname htool
      by_cases hcall : trimSpace out.callId = ""
      · simpa [toolCallOf, htool, hname, toolOutputs, describe, itemCall, hcall] using hrest
      · simpa [toolCallOf, htool, hname, toolOutputs, describe, itemCall, hcall] using hrest

/-- The response that an event carries at the end of a stream, with its status. -/
theorem finishReason_agrees_iff {type : ResponsesEventType}
    (htype : type = .completed ∨ type = .incomplete) :
    ∃ response, terminalResponse { type, response := some resp } = some response ∧
      response.output = resp.output ∧ ∀ fallback, fallback = "stop" ∨ fallback = "tool_calls" →
        ((responsesFinishReasonFromStatus (some resp)).getD fallback =
            (responsesFinishReasonFromStatus (some response)).getD fallback ↔
          (type = .incomplete → resp.status ≠ .absent)) := by
  rcases htype with rfl | rfl
  · exact ⟨resp, rfl, rfl, fun _ _ => by simp⟩
  by_cases hstatus : resp.status = .absent
  · refine ⟨{ resp with status := .str "incomplete" }, ?_, rfl, fun fallback hfallback => ?_⟩
    · simp [terminalResponse, ensureIncompleteResponse, hstatus]
    · have hnone : responsesFinishReasonFromStatus (some resp) = none :=
        responsesFinishReasonFromStatus_other (by simp [responseStatusString, hstatus])
      have hincomplete : responseStatusString { resp with status := .str "incomplete" } =
          "incomplete" :=
        show trimSpace "incomplete" = "incomplete" by decide +kernel
      rw [hnone, responsesFinishReasonFromStatus_incomplete hincomplete, getD_none, getD_some]
      rcases hfallback with rfl | rfl <;> split <;> simp [hstatus]
  · refine ⟨resp, ?_, rfl, fun _ _ => by simp [hstatus]⟩
    simp [terminalResponse, ensureIncompleteResponse, hstatus]

/-- The parts of the answer, one by one. -/
theorem sameReplay_iff (id : String) :
    SameReplay a (responsesResponseToChatCompletionsResponse resp id) ↔
      extractOutputTextFromResponses resp = a.text ∧
        extractReasoningTextFromResponses resp = a.reasoning ∧
        (resp.output.filterMap toolCallOf).map (fun call =>
          (call.id, call.function.name, call.function.arguments)) = a.tools.map described ∧
        [(responsesFinishReasonFromStatus (some resp)).getD
          (if (resp.output.filterMap toolCallOf).isEmpty then "stop" else "tool_calls")] =
            a.finishReasons := by
  -- an empty reasoning is left out
  have hreasoning : (if extractReasoningTextFromResponses resp ≠ "" then
      some (extractReasoningTextFromResponses resp) else none).getD "" =
        extractReasoningTextFromResponses resp := by
    by_cases hempty : extractReasoningTextFromResponses resp = "" <;> simp [hempty]
  constructor
  · rintro ⟨htext, hthinking, htools, hfinish⟩
    simp only [responsesResponseToChatCompletionsResponse, map_cons, map_nil,
      List.cons.injEq, and_true] at htext hthinking htools hfinish
    exact ⟨htext, hreasoning ▸ hthinking, htools, hfinish⟩
  · rintro ⟨htext, hthinking, htools, hfinish⟩
    refine ⟨?_, ?_, ?_, hfinish⟩ <;>
      simp only [responsesResponseToChatCompletionsResponse, map_cons, map_nil,
        List.cons.injEq, and_true]
    · exact htext
    · exact hreasoning.trans hthinking
    · exact htools

/-- A response that comes as one event is converted as it is without a stream exactly if it is
replayable. -/
theorem replay_agrees_iff (model : String) (includeUsage : Bool) (now : Int) (id : String)
    (type : ResponsesEventType) (htype : type = .completed ∨ type = .incomplete)
    (resp : OpenAIResponsesResponse)
    (hroles : ∀ out ∈ resp.output, out.type = .message → out.role = "" ∨ out.role = "assistant")
    (hnames : ∀ out ∈ resp.output, isResponsesToolOutputType out.type = true →
      trimSpace out.name ≠ "") :
    ∃ s chunks, chatChunksOf (newResponsesToChatStreamState model includeUsage now)
        [{ type, response := some resp }] = .ok (s, chunks) ∧
      (SameReplay (answerOf chunks) (responsesResponseToChatCompletionsResponse resp id) ↔
        Replayable type resp) := by
  obtain ⟨response, hresponse, houtput, hfinish⟩ := finishReason_agrees_iff htype
  have herror : ∀ event ∈ [({ type, response := some resp } : ResponsesStreamResponse)],
      streamError event = none := by
    intro event hevent
    rw [mem_singleton.mp hevent]
    rcases htype with rfl | rfl <;> rfl
  refine ⟨_, _, chatChunksOf_ok _ herror, ?_⟩
  have hall := terminalChunks_readsAll { type, response := some resp } resp response
    hresponse houtput
    hnames model includeUsage now
  have hconvert : convertEvent { type, response := some resp } =
      terminalChunks { type, response := some resp } := by
    rcases htype with rfl | rfl <;> rfl
  have hanswer : answerOf (Transducer.outputs convertEvent
      (newResponsesToChatStreamState model includeUsage now) [{ type, response := some resp }]) =
      (readChunks (terminalChunks { type, response := some resp })
        (newResponsesToChatStreamState model includeUsage now, {})).2 := by
    rw [Transducer.outputs_cons, Transducer.outputs_nil, append_nil, hconvert]
    rfl
  rw [hanswer]
  generalize (readChunks (terminalChunks { type, response := some resp })
    (newResponsesToChatStreamState model includeUsage now, {})).2 = a at hall ⊢
  have htext := extractOutputText_eq_iff hroles
  have hreasoning : extractReasoningTextFromResponses resp =
      firstText (reasoningTexts resp.output) ↔
      ((reasoningTexts resp.output).filter (· ≠ "")).length ≤ 1 :=
    Text.join_eq_firstText_iff (reasoningTexts resp.output)
  have htools : (toolOutputs resp.output).map describe = a.tools.map described ↔
      OwnNames (toolOutputs resp.output) := by
    refine ⟨fun h => hall.all.mp ?_, fun h => (hall.tools h).symm⟩
    simpa using (congrArg List.length h).symm
  -- without names of their own, the number of tool calls differs already
  have hend : OwnNames (toolOutputs resp.output) →
      ([(responsesFinishReasonFromStatus (some resp)).getD
          (if (resp.output.filterMap toolCallOf).isEmpty then "stop" else "tool_calls")] =
            a.finishReasons ↔ (type = .incomplete → resp.status ≠ .absent)) := by
    intro hown
    have hempty : (resp.output.filterMap toolCallOf).isEmpty = decide (a.tools = []) := by
      have hlength := congrArg List.length (hall.tools hown)
      rw [← toolCalls_describe hnames, length_map, length_map] at hlength
      cases hcalls : resp.output.filterMap toolCallOf with
      | nil => simpa [hcalls] using hlength
      | cons call calls =>
        have hne : a.tools ≠ [] := ne_nil_of_length_pos (by simp [hlength, hcalls])
        simpa using hne
    rw [hall.finishReasons, List.cons.injEq, hempty,
      ← hfinish (if a.tools = [] then "stop" else "tool_calls")
      (by split <;> simp)]
    simp
  rw [sameReplay_iff, hall.text, hall.reasoning, htext, hreasoning,
    toolCalls_describe hnames, htools]
  constructor
  · rintro ⟨⟨hone, hsome⟩, hone', hown, hfinal⟩
    exact ⟨hone, hone', hsome, hown, (hend hown).mp hfinal⟩
  · rintro ⟨hone, hone', hsome, hown, hstatus⟩
    exact ⟨⟨hone, hsome⟩, hone', hown, (hend hown).mpr hstatus⟩

/-- Reasoning, a message and a tool call. -/
def plainResponse : OpenAIResponsesResponse :=
  { id := "resp_1"
    status := .str "completed"
    output :=
      [{ type := .reasoning, content := [{ type := .summaryText, text := "Hm." }] },
       { type := .message, role := "assistant",
         content := [{ type := .outputText, text := "Let me look." }] },
       { type := .functionCall, id := "fc_1", callId := "call_1", name := "weather"
         arguments := .str "\x7b\x7d" }] }

theorem replay_agrees_plain : ∃ s chunks, chatChunksOf (newResponsesToChatStreamState "gpt" false 0)
        [{ type := .completed, response := some plainResponse }] = .ok (s, chunks) ∧
      SameReplay (answerOf chunks)
        (responsesResponseToChatCompletionsResponse plainResponse "chat_1") := by
  obtain ⟨s, chunks, hchunks, hsame⟩ :=
    replay_agrees_iff "gpt" false 0 "chat_1" .completed (.inl rfl)
    plainResponse (by decide +kernel) (by decide +kernel)
  refine ⟨s, chunks, hchunks, hsame.mpr ⟨by decide +kernel, by decide +kernel, ?_, ?_, nofun⟩⟩
  · exact .inl ⟨"Let me look.", by decide +kernel, by decide⟩
  · refine ⟨fun out hout => ?_, by simp [toolOutputs, plainResponse, isResponsesToolOutputType]⟩
    have hcall : ∀ out ∈ toolOutputs plainResponse.output, itemCall out ≠ none := by decide +kernel
    exact .inr (hcall out hout)

/-- Two messages in one response. -/
def twoMessages : OpenAIResponsesResponse :=
  { id := "resp_1"
    status := .str "completed"
    output :=
      [{ type := .message, role := "assistant",
         content := [{ type := .outputText, text := "One. " }] },
       { type := .message, role := "assistant",
         content := [{ type := .outputText, text := "Two." }] }] }

theorem second_message_lost : ∃ s chunks, chatChunksOf (newResponsesToChatStreamState "gpt" false 0)
        [{ type := .completed, response := some twoMessages }] = .ok (s, chunks) ∧
      (answerOf chunks).text = "One. " ∧
      (responsesResponseToChatCompletionsResponse twoMessages "chat_1").choices.map
        (·.message.content) = ["One. Two."] ∧
      ¬ SameReplay (answerOf chunks)
        (responsesResponseToChatCompletionsResponse twoMessages "chat_1") := by
  have hwhole : (responsesResponseToChatCompletionsResponse twoMessages "chat_1").choices.map
      (·.message.content) = ["One. Two."] := by decide +kernel
  have hstreamed :
      (answerOf (Transducer.outputs convertEvent (newResponsesToChatStreamState "gpt" false 0)
      [{ type := .completed, response := some twoMessages }])).text = "One. " := by decide +kernel
  refine ⟨_, _, chatChunksOf_ok _ (by decide), hstreamed, hwhole, fun h => ?_⟩
  have htext := h.text
  rw [hwhole, hstreamed] at htext
  exact absurd htext (by decide)
