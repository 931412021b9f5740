/-
The arguments of tool calls, streamed and forwarded.

Arguments come in deltas, and as full copies when an item is done or listed at the end.  A call
that is opened late gets what has waited for it.  Each argument should reach the client once,
under one tool index.

* `Seen` — what has come for one call, from the events alone;
* `CopiesFit` — no delta comes after a full copy, a copy continues what was forwarded, and the
  end lists no call of which the converter has only part of the names;
* `Forwarded` — what the client has of each call, and what waits;
* `arguments_forwarded_once` — if all copies fit, every call has its arguments under its own
  tool index;
* `delta_and_listing` — deltas for an item that was never announced, sent again when it is listed.
-/
import AcuGateway.Lib.Routing
import AcuGateway.ResponsesToolTable
import Mathlib.Data.List.Pairwise

open List ResponsesStreamTool Option Run Dict Transducer
open Text (trimSpace)
open ResponsesToChatStreamState

/-! ### Streams of tool calls -/

/-- A tool call of the stream. -/
structure StreamedCall extends CallNames where
  arguments : String
deriving DecidableEq

variable (c : StreamedCall)

namespace StreamedCall

/-- `item` is the call, with these arguments. -/
def IsItem (item : ResponsesOutput) (arguments : String) : Prop :=
  isResponsesToolOutputType item.type = true ∧ trimSpace item.id = c.itemID ∧
    trimSpace item.callId = c.callID ∧ item.argumentsString = arguments
deriving Decidable

variable (event : ResponsesStreamResponse)

/-- The event names the item of the call, or no item. -/
def MayName : Prop :=
  event.item = none ∧ (trimSpace event.itemID = "" ∨ trimSpace event.itemID = c.itemID)
deriving Decidable

/-- An event about the call: its item has no arguments when it is added, and all of them when it
is done. -/
def Describes : ToolEvent → Prop
  | .delta => c.MayName event
  | .flush => c.MayName event
  | .added => ∃ item ∈ event.item, c.IsItem item ""
  | .done => ∃ item ∈ event.item, c.IsItem item c.arguments

instance : DecidablePred (c.Describes event) :=
  fun _ => by unfold Describes; split <;> infer_instance

/-- The event is about the call, and carries its output index. -/
def IsEvent : Prop :=
  event.outputIndex = some c.output ∧ ∃ kind ∈ event.type.toolEvent, c.Describes event kind
deriving Decidable

end StreamedCall

open StreamedCall

/-- The calls have names, and each call its own. -/
structure OwnCalls (calls : List StreamedCall) : Prop where
  named : ∀ c ∈ calls, c.itemID ≠ "" ∧ c.callID ≠ ""
  distinct : calls.Pairwise fun c c' => ¬ c.Clashes c'.toCallNames

/-- The outputs that an event lists at the end of a stream. -/
def listed (terminal : ResponsesStreamResponse) : List ResponsesOutput :=
  ((terminalResponse terminal).map OpenAIResponsesResponse.output).getD []

/-- A stream with these tool calls, whatever of their events is missing. -/
structure Streams (calls : List StreamedCall) (events : List ResponsesStreamResponse)
    (terminal : ResponsesStreamResponse) : Prop where
  describes : ∀ event ∈ events, event.NotTool ∨ ∃ c ∈ calls, c.IsEvent event
  ends : terminal.type = .completed ∨ terminal.type = .done ∨ terminal.type = .incomplete
  lists : ∀ out ∈ listed terminal, isResponsesToolOutputType out.type = false ∨
    ∃ c ∈ calls, c.IsItem out c.arguments

/-! ### What has come -/

/-- What has come for a call: the deltas, whether the converter has a tool call for it, whether it
has the item id of that tool call, and whether a full copy came. -/
structure Seen where
  received : String := ""
  opened : Bool := false
  known : Bool := false
  copied : Bool := false

variable (t : Seen)

namespace Seen

/-- The arguments that the client should have. -/
def expected : String := if t.copied then c.arguments else t.received

def event (c : StreamedCall) (t : Seen) (event : ResponsesStreamResponse) : Seen :=
  if c.IsEvent event then
    match event.type.toolEvent with
    | some .delta => { t with received := t.received ++ event.delta }
    | some .flush =>
      { t with opened := true, known := t.known || (!t.opened && trimSpace event.itemID ≠ "") }
    | some .added => { t with opened := true, known := true }
    | some .done => { t with opened := true, known := true, copied := true }
    | none => t
  else t

variable (out : ResponsesOutput)

def listing : Seen :=
  if c.IsItem out c.arguments then { t with opened := true, known := true, copied := true } else t

/-- A full copy continues what has come. -/
def Continued : Prop := t.copied = true ∨ t.received.toList <+: c.arguments.toList
deriving Decidable

/-- No delta after a full copy, and no copy that does not continue what was forwarded. -/
def EventFits (event : ResponsesStreamResponse) : Prop :=
  c.IsEvent event → (event.type.toolEvent = some .delta → event.delta = "" ∨ t.copied = false) ∧
    (event.type.toolEvent = some .done → t.Continued c ∨ (t.opened = false ∧ c.arguments ≠ ""))
deriving Decidable

/-- At the end the call is known by its item id, or nothing has come for it. -/
def ListingFits : Prop :=
  c.IsItem out c.arguments → (t.known = true ∧ t.Continued c) ∨ (t.opened = false ∧ t.received = "")
deriving Decidable

end Seen

/-- What has come for all calls. -/
abbrev SeenCalls := StreamedCall → Seen

def SeenCalls.event (t : SeenCalls) (event : ResponsesStreamResponse) : SeenCalls :=
  fun c => (t c).event c event

def SeenCalls.listing (t : SeenCalls) (out : ResponsesOutput) : SeenCalls :=
  fun c => (t c).listing c out

variable (events : List ResponsesStreamResponse)

/-- What has come before the end, and what with it. -/
def seenBefore : SeenCalls := exec SeenCalls.event (fun _ => {}) events

def seenWith (terminal : ResponsesStreamResponse) : SeenCalls :=
  exec SeenCalls.listing (seenBefore events) (listed terminal)

/-- Every event, and everything that is listed at the end, fits what came before. -/
structure CopiesFit (calls : List StreamedCall) (events : List ResponsesStreamResponse)
    (terminal : ResponsesStreamResponse) : Prop where
  along : Along (fun t event => ∀ c ∈ calls, (t c).EventFits c event) SeenCalls.event
    (fun _ => {}) events
  atEnd : Along (fun t out => ∀ c ∈ calls, (t c).ListingFits c out) SeenCalls.listing
    (seenBefore events) (listed terminal)

/-! ### What the client has -/

/-- The calls `opened` have tool calls, in this order, and `x` has come of each call: the client
has it, or it waits. -/
structure Forwarded (calls : List StreamedCall) (x : StreamedCall → String)
    (opened : List StreamedCall) (p : ChatLink) : Prop where
  mem : ∀ c ∈ opened, c ∈ calls
  registered : Registered (opened.map toCallNames) p.1
  linked : Linked
    (fun n tool u => ∃ c, opened[n]? = some c ∧ tool.arguments = x c ∧ ArgumentsSent tool u) p
  waiting : ∀ c ∈ calls, c ∉ opened → p.1.pendingArgsByOutputIndex.text (some c.output) = x c
  waits : ∀ i w, p.1.pendingArgsByOutputIndex.lookup i = some w →
    w ≠ "" ∧ ∃ c ∈ calls, c ∉ opened ∧ c.output = i
  items : p.1.pendingArgsByItemID = ∅
  found : ∀ (n : Nat) c, opened[n]? = some c → p.1.toolAt (.output c.output) = some n ∨
    p.1.toolOfItem c.itemID = some n

variable {calls opened : List StreamedCall} {x : StreamedCall → String} {n : Nat}
  {s : ResponsesToChatStreamState} {a : ChatAnswer} {c' : StreamedCall} {p p' : ChatLink}
  {event : ResponsesStreamResponse} {outputIndex : Option Int} {itemID : Option String}
    {key : ToolKey}

section Forwarded

variable {x' : StreamedCall → String} {c : StreamedCall} {s' : ResponsesToChatStreamState}

theorem OwnCalls.eq_of_clashes (h : OwnCalls calls) (hc : c ∈ calls) (hc' : c' ∈ calls)
    (hclash : c.Clashes c'.toCallNames) : c = c' := by
  by_contra hne
  have : Std.Symm fun c c' : StreamedCall => ¬ c.Clashes c'.toCallNames :=
    ⟨fun _ _ hnot hsame => hnot hsame.symm⟩
  exact h.distinct.forall hc hc' hne hclash

variable {f : ResponsesStreamTool → ResponsesStreamTool}

namespace Forwarded

section

variable (h : Forwarded calls x opened p)

include h

theorem place_unique {m : Nat} (hm : opened[m]? = some c)
    (hn : opened[n]? = some c) : m = n :=
  h.registered.own m n c.toCallNames c.toCallNames (by simp [hm]) (by simp [hn]) c.clashes_self

/-- A call that is not opened has no name in common with those that are. -/
theorem fresh (hcalls : OwnCalls calls) (hc : c ∈ calls)
    (hnot : c ∉ opened) : ∀ names ∈ opened.map toCallNames, ¬ names.Clashes c.toCallNames := by
  intro names hnames hclash
  obtain ⟨c', hc', rfl⟩ := mem_map.mp hnames
  exact hnot (hcalls.eq_of_clashes (h.mem c' hc') hc hclash ▸ hc')

theorem nothing_waits (hcalls : OwnCalls calls)
    (hc : c ∈ opened) : p.1.pendingArgsByOutputIndex.lookup c.output = none := by
  refine eq_none_iff_forall_ne_some.mpr fun w hw => ?_
  obtain ⟨-, c', hc', hnot, houtput⟩ := h.waits c.output w hw
  have hsame : c' = c := hcalls.eq_of_clashes hc' (h.mem c hc) (.inl houtput)
  exact hnot (hsame ▸ hc)

end

section

variable (h : Forwarded calls x opened (s, a)) (hn : opened[n]? = some c)

include h hn

/-- The tool call in the place of an opened call. -/
theorem tool_of_place :
    ∃ tool u, s.tools[n]? = some tool ∧ a.tools[n]? = some u ∧ tool.arguments = x c ∧
      ArgumentsSent tool u := by
  obtain ⟨hlt, -⟩ := List.getElem?_eq_some_iff.mp hn
  have hlength : opened.length = s.tools.length := by simpa using h.registered.length
  have htool := getElem?_eq_getElem (hlength ▸ hlt : n < s.tools.length)
  obtain ⟨u, hu, -, c', hc', hargs, hsent⟩ := h.linked.exists_client htool
  rw [hn, Option.some.injEq] at hc'
  exact ⟨_, u, htool, hu, hc' ▸ hargs, hsent⟩

/-- A delta for a call that has a tool call. -/
theorem known {rest explicitDelta : String} (hdelta : explicitDelta = "" ∨ explicitDelta = rest)
    (hf : ∀ tool, tool.arguments = x c → Grows rest tool (f tool))
    (hs' : s'.tools = s.tools.modify n f) (hregistered : Registered (opened.map toCallNames) s')
    (hkeeps : KeepsNames s s') (houtputs : s'.pendingArgsByOutputIndex = s.pendingArgsByOutputIndex)
    (hitems : s'.pendingArgsByItemID = s.pendingArgsByItemID) (hx : x' c = x c ++ rest)
    (hother : ∀ c' ∈ calls, c' ≠ c → x' c' = x c') :
    Forwarded calls x' opened (readChunks (toolDelta n explicitDelta) (s', a)) := by
  obtain ⟨tool, -, htool, -, hheld, -⟩ := h.tool_of_place hn
  obtain ⟨-, hsame⟩ := reads_toolDelta_only n explicitDelta s' a
  have hmem : c ∈ opened := mem_of_getElem? hn
  have hgrows := hf tool hheld
  have hnew : (f tool).arguments = x' c := by rw [hgrows.arguments, hheld, hx]
  refine ⟨h.mem, hregistered.after_toolDelta n explicitDelta a, ?_, ?_, ?_, ?_, ?_⟩
  · -- the tool of this call gets the delta, the others are as they were
    refine h.linked.known htool hgrows.index hs' (fun hq u hu => ?_) (fun _ u hu => ?_)
      fun m hm tool u hu => ?_
    · obtain ⟨-, -, -, hu⟩ := hu
      exact ⟨c, hn, hnew, hu.quiet hgrows hdelta hq⟩
    · obtain ⟨-, -, -, hu⟩ := hu
      exact ⟨c, hn, hnew, hu.sends hgrows hdelta⟩
    · obtain ⟨c', hc', hargs', hu⟩ := hu
      refine ⟨c', hc', hargs'.trans (hother c' (h.mem c' (mem_of_getElem? hc')) ?_).symm, hu⟩
      exact fun heq => hm (h.place_unique hn (heq ▸ hc'))
  · intro c' hc' hnot
    rw [hsame.outputs, houtputs, h.waiting c' hc' hnot]
    exact (hother c' hc' fun heq => hnot (heq ▸ hmem)).symm
  · rw [hsame.outputs, houtputs]
    exact h.waits
  · rw [hsame.items, hitems, h.items]
  · intro m c' hc'
    have hkeeps' := hkeeps.trans hsame.keeps
    exact (h.found m c' hc').imp (hkeeps' (.key _) m) (hkeeps' (.item _) m)

/-- Nothing new for a call that has a tool call. -/
theorem again : Forwarded calls x opened (readChunks (toolDelta n "") (s, a)) :=
  h.known hn (.inl rfl) (f := id) (fun _ _ => ⟨(String.append_empty).symm, rfl, rfl⟩)
    (modify_id n s.tools).symm h.registered (KeepsNames.refl s) rfl rfl (String.append_empty).symm
    fun _ _ _ => rfl

end

/-- The first delta for a call. -/
theorem new (h : Forwarded calls x opened (s, a)) (hc : c ∈ calls) (hnot : c ∉ opened)
    {tool : ResponsesStreamTool} (hindex : tool.index = s.tools.length) (hat : tool.argsSentAt = 0)
    (hsent : tool.sent = false) (hargs : tool.arguments = x' c) (hs' : s'.tools = s.tools ++ [tool])
    (hregistered : Registered (opened.map toCallNames ++ [c.toCallNames]) s')
    (hkeeps : KeepsNames s s') (houtputs : ∀ i, s'.pendingArgsByOutputIndex.lookup i =
      if i = c.output then none else s.pendingArgsByOutputIndex.lookup i)
    (hitems : s'.pendingArgsByItemID = s.pendingArgsByItemID)
    (hfound : s'.toolAt (.output c.output) = some s.tools.length ∨
      s'.toolOfItem c.itemID = some s.tools.length)
    (hcalls : OwnCalls calls) (hother : ∀ c' ∈ calls, c' ≠ c → x' c' = x c') :
    Forwarded calls x' (opened ++ [c]) (readChunks (toolDelta s.tools.length "") (s', a)) := by
  obtain ⟨-, hsame⟩ := reads_toolDelta_only s.tools.length "" s' a
  have hlength : opened.length = s.tools.length := by simpa using h.registered.length
  have hkeeps' := hkeeps.trans hsame.keeps
  -- the new call is the last one, and so is its tool
  have hregistered : Registered ((opened ++ [c]).map toCallNames) s' := by
    rwa [map_append]
  refine ⟨?_, hregistered.after_toolDelta _ "" a, ?_, ?_, ?_, ?_, ?_⟩
  · exact forall_mem_append.mpr ⟨h.mem, forall_mem_singleton.mpr hc⟩
  · refine h.linked.new hindex hsent hs' ⟨c, by simp [← hlength], hargs, .new hat _⟩ ?_
    rintro m hm tool u ⟨c', hc', hargs', hu⟩
    refine ⟨c', (getElem?_append_left (hlength ▸ hm)).trans hc', hargs'.trans ?_, hu⟩
    have hmem := mem_of_getElem? hc'
    exact (hother c' (h.mem c' hmem) fun heq => hnot (heq ▸ hmem)).symm
  · intro c' hc' hnot'
    rw [mem_append, mem_singleton, not_or] at hnot'
    -- no other call waits under the same output
    have hne : c'.output ≠ c.output := fun heq => hnot'.2 (hcalls.eq_of_clashes hc' hc (.inl heq))
    have hlookup : s'.pendingArgsByOutputIndex.text (some c'.output) =
        s.pendingArgsByOutputIndex.text (some c'.output) := by
      simp [text, houtputs, hne]
    rw [hsame.outputs, hlookup, h.waiting c' hc' hnot'.1, hother c' hc' hnot'.2]
  · intro i w hw
    rw [hsame.outputs, houtputs] at hw
    split at hw
    · cases hw
    · rename_i hne
      obtain ⟨hempty, c', hc', hnot', houtput⟩ := h.waits i w hw
      refine ⟨hempty, c', hc', ?_, houtput⟩
      rw [mem_append, mem_singleton, not_or]
      exact ⟨hnot', fun heq => hne (houtput ▸ heq ▸ rfl)⟩
  · rw [hsame.items, hitems, h.items]
  · intro m c' hc'
    rcases getElem?_concat_cases hc' with hc' | ⟨rfl, rfl⟩
    · exact (h.found m c' hc').imp (hkeeps' (.key _) m) (hkeeps' (.item _) m)
    · rw [hlength]
      exact hfound.imp (hsame.keeps (.key _) _) (hsame.keeps (.item _) _)

variable (h : Forwarded calls x opened p)

include h

/-- Steps that do not touch the tool calls. -/
theorem same (hnames : SameNames p.1 p'.1)
    (htools : p'.1.tools = p.1.tools) (htools' : p'.2.tools = p.2.tools) :
    Forwarded calls x opened p' where
  mem := h.mem
  registered := h.registered.same hnames (by rw [htools])
  linked := h.linked.of_tools htools htools'
  waiting := by rw [hnames.outputs]; exact h.waiting
  waits := by rw [hnames.outputs]; exact h.waits
  items := hnames.items.trans h.items
  found := by rw [hnames.toolAt, hnames.toolOfItem]; exact h.found

theorem congr (hx : ∀ c ∈ calls, x' c = x c) : Forwarded calls x' opened p where
  mem := h.mem
  registered := h.registered
  linked := by
    refine h.linked.imp ?_
    rintro n tool u ⟨c, hc, hargs, hsent⟩
    exact ⟨c, hc, hargs.trans (hx c (h.mem c (mem_of_getElem? hc))).symm, hsent⟩
  waiting c hc hnot := by rw [h.waiting c hc hnot, hx c hc]
  waits := h.waits
  items := h.items
  found := h.found

/-- No text that waits is empty. -/
theorem lookup_ne_empty (i : Int) : p.1.pendingArgsByOutputIndex.lookup i ≠ some "" :=
  fun hi => (h.waits i "" hi).1 rfl

/-- A call without arguments that wait. -/
theorem lookup_of_empty (hc : c ∈ calls) (hnot : c ∉ opened)
    (hx : x c = "") : p.1.pendingArgsByOutputIndex.lookup c.output = none := by
  have htext := h.waiting c hc hnot
  rw [hx] at htext
  cases hlookup : p.1.pendingArgsByOutputIndex.lookup c.output with
  | none => rfl
  | some w =>
    have hw : w = "" := by simpa [text, hlookup] using htext
    exact absurd (hw ▸ hlookup) (h.lookup_ne_empty c.output)

end Forwarded

/-- The calls that have tool calls after `c` was met. -/
def opening (c : StreamedCall) (opened : List StreamedCall) : List StreamedCall :=
  if c ∈ opened then opened else opened ++ [c]

theorem mem_opening : c' ∈ opening c opened ↔ c' ∈ opened ∨ c' = c := by
  unfold opening
  split
  · rename_i hc
    exact ⟨.inl, fun h => h.elim id fun heq => heq ▸ hc⟩
  · simp

/-- After an event for `c` with these names: the tool calls are those of `opened'`, nothing that was
found before is lost, and `c` is found under the names. -/
structure Stepped (calls : List StreamedCall) (x : StreamedCall → String)
    (opened' : List StreamedCall)
    (c : StreamedCall) (outputIndex : Option Int) (itemID : Option String) (key : ToolKey)
    (p p' : ChatLink) : Prop where
  forwarded : Forwarded calls x opened' p'
  keeps : KeepsNames p.1 p'.1
  only : OnlyTools p p'
  found : ∀ n : Nat, opened'[n]? = some c → p'.1.toolAt key = some n ∧
    (outputIndex = some c.output → p'.1.toolOfOutput c.output = some n) ∧
    (itemID = some c.itemID → p'.1.toolOfItem c.itemID = some n)

/-- The names that a delta gives. -/
theorem StreamedCall.MayName.gives (hname : c.MayName event)
    (houtput : event.outputIndex = some c.output) :
    c.Gives event.outputIndex (eventItem event) none (.output c.output) := by
  rintro (key | i | itemID | callID) hgiven
  · exact hgiven ▸ rfl
  · exact (some.inj (houtput.symm.trans hgiven)).symm
  · have hid : eventItem event = some itemID := hgiven
    have hevent : responseStreamEventItemID event = trimSpace event.itemID := by
      simp [responseStreamEventItemID, hname.1]
    rw [eventItem, hevent] at hid
    split at hid
    · cases hid
    · rename_i hempty
      exact (some.inj hid).symm.trans (hname.2.resolve_left hempty)
  · cases hgiven

namespace Forwarded

section

variable (h : Forwarded calls x opened p)

include h

/-- What is found under a name has the name. -/
theorem call_of_name (name : ToolName) (hn : p.1.named name = some n) :
    ∃ c, opened[n]? = some c ∧ c.Has name := by
  obtain ⟨names, hnames, hhas⟩ := h.registered.names name n hn
  rw [getElem?_map] at hnames
  obtain ⟨c, hc, rfl⟩ := map_eq_some_iff.mp hnames
  exact ⟨c, hc, hhas⟩

/-- A tool call that has a name in common with `c` is that of `c`. -/
theorem place_of_clash (hcalls : OwnCalls calls) (hc : c ∈ calls)
    (hclash : ∃ c', (opened.map toCallNames)[n]? = some c' ∧ c'.Clashes c.toCallNames) :
    opened[n]? = some c := by
  obtain ⟨names, hn, hclash⟩ := hclash
  rw [getElem?_map] at hn
  obtain ⟨c', hc', rfl⟩ := map_eq_some_iff.mp hn
  rw [hc', hcalls.eq_of_clashes (h.mem c' (mem_of_getElem? hc')) hc hclash]

theorem place_of_name (hcalls : OwnCalls calls) (hc : c ∈ calls)
    (name : ToolName) (hname : c.Has name) (hn : p.1.named name = some n) :
    opened[n]? = some c := by
  obtain ⟨c', hc', hhas⟩ := h.registered.names name n hn
  exact h.place_of_clash hcalls hc ⟨c', hc', CallNames.clashes_of_name hhas hname⟩

end

section

variable (h : Forwarded calls x opened (s, a)) (hcalls : OwnCalls calls) (hc : c ∈ calls)

include h hcalls hc

/-- An event that meets the tool call of `c`, or opens it. -/
theorem met {found : Option Nat} {callID₀ : String} {callID : Option String}
    (hmet : ToolMet found f callID₀ outputIndex itemID callID key n s s')
    (hgives : c.Gives outputIndex itemID callID key)
    (hfound : ∀ m, found = some m ↔ opened[m]? = some c)
    (hindex : outputIndex = none → c ∉ opened → x c = "")
    (hnamed : key = .output c.output ∨ itemID = some c.itemID)
    (hf : ∀ tool, (f tool).argsSentAt = tool.argsSentAt ∧ (f tool).index = tool.index ∧
      (f tool).sent = tool.sent)
    (hold : c ∈ opened → ∃ rest, x' c = x c ++ rest ∧
      ∀ tool, tool.arguments = x c → (f tool).arguments = tool.arguments ++ rest)
    (hnew : c ∉ opened → ∀ tool, tool.arguments = "" → (f tool).arguments = x' c)
    (hother : ∀ c' ∈ calls, c' ≠ c → x' c' = x c') :
    Stepped calls x' (opening c opened) c outputIndex itemID key (s, a)
      (readChunks (toolDelta n "") (s', a)) := by
  obtain ⟨honly, hsame⟩ := reads_toolDelta_only n "" s' a
  have honly' := (OnlyTools.of_flags hmet.flags a).trans honly
  have hat : (readChunks (toolDelta n "") (s', a)).1.toolAt key = some n ∧
      (outputIndex = some c.output →
        (readChunks (toolDelta n "") (s', a)).1.toolOfOutput c.output = some n) ∧
      (itemID = some c.itemID →
          (readChunks (toolDelta n "") (s', a)).1.toolOfItem c.itemID = some n) := by
    rw [hsame.toolAt, hsame.toolOfOutput, hsame.toolOfItem]
    exact ⟨hmet.names.given (.key key) rfl, hmet.names.given (.output c.output),
      hmet.names.given (.item c.itemID)⟩
  have hitems : s'.pendingArgsByItemID = s.pendingArgsByItemID := by
    rw [hmet.items, show s.pendingArgsByItemID = ∅ from h.items, takeText_empty]
  -- the output index, if there is one, is that of the call
  have houtput : outputIndex = none ∨ outputIndex = some c.output := by
    cases hi : outputIndex with
    | none => exact .inl rfl
    | some i => exact .inr (congrArg some (hgives (.output i) hi))
  by_cases hmem : c ∈ opened
  · obtain ⟨m, hm⟩ := mem_iff_getElem?.mp hmem
    obtain ⟨rfl, htools⟩ := hmet.known ((hfound m).mpr hm)
    have houtputs : s'.pendingArgsByOutputIndex = s.pendingArgsByOutputIndex := by
      rw [hmet.outputs]
      rcases houtput with ho | ho
      · rw [ho]
        rfl
      · have hnone : s.pendingArgsByOutputIndex.lookup c.output = none :=
          h.nothing_waits hcalls hmem
        simp [ho, takeText, hnone]
    obtain ⟨rest, hx, hargs⟩ := hold hmem
    obtain ⟨hregistered, hkeeps⟩ :=
      h.registered.known (by simp [hm]) hmet.names hgives (by simp [htools])
    rw [opening, if_pos hmem]
    refine ⟨?_, hkeeps.trans hsame.keeps, honly', fun k hk => ?_⟩
    · exact h.known hm (.inl rfl)
        (fun tool htool => ⟨hargs tool htool, (hf tool).1, (hf tool).2.1⟩) htools
        hregistered hkeeps houtputs hitems hx hother
    · rw [← h.place_unique hm hk]
      exact hat
  · have hnone : found = none :=
      eq_none_iff_forall_ne_some.mpr fun m hm => hmem (mem_of_getElem? ((hfound m).mp hm))
    obtain ⟨rfl, htools⟩ := hmet.new hnone
    have houtputs : ∀ i, s'.pendingArgsByOutputIndex.lookup i =
        if i = c.output then none else s.pendingArgsByOutputIndex.lookup i := by
      intro i
      rw [hmet.outputs]
      rcases houtput with ho | ho
      · have hnone : s.pendingArgsByOutputIndex.lookup c.output = none :=
          h.lookup_of_empty hc hmem (hindex ho hmem)
        rw [ho]
        by_cases hi : i = c.output
        · rw [if_pos hi, hi]
          exact hnone
        · rw [if_neg hi]
          rfl
      · rw [ho, lookup_takeText (h.lookup_ne_empty c.output)]
    obtain ⟨hregistered, hkeeps⟩ :=
      h.registered.new (h.fresh hcalls hc hmem) hmet.names hgives (by simp [htools])
    have hplace : s'.toolAt (.output c.output) = some s.tools.length ∨
        s'.toolOfItem c.itemID = some s.tools.length := by
      rcases hnamed with hkey | hid
      · exact .inl (hmet.names.given (.key _) hkey.symm)
      · exact .inr (hmet.names.given (.item _) hid)
    have hforwarded := h.new hc hmem (hf _).2.1 (hf _).1 (hf _).2.2 (hnew hmem _ rfl) htools
      hregistered hkeeps
      houtputs hitems hplace hcalls hother
    have hlast : (opened ++ [c])[s.tools.length]? = some c := by
      have hlength : opened.length = s.tools.length := by simpa using h.registered.length
      simp [← hlength]
    rw [opening, if_neg hmem]
    refine ⟨hforwarded, hkeeps.trans hsame.keeps, honly', fun k hk => ?_⟩
    rw [← hforwarded.place_unique hlast hk]
    exact hat

/-- The arguments that wait for `c`, under the names of an event. -/
theorem waitingFor_eq (houtput : event.outputIndex = none ∨ event.outputIndex = some c.output) :
    (c ∈ opened → waitingFor event s = "") ∧
      ((event.outputIndex = none → c ∉ opened → x c = "") → c ∉ opened →
        waitingFor event s = x c) := by
  have hitems : s.pendingArgsByItemID = ∅ := h.items
  rw [waitingFor, hitems, text_empty, String.append_empty]
  constructor
  · intro hmem
    have hnone : s.pendingArgsByOutputIndex.lookup c.output = none := h.nothing_waits hcalls hmem
    -- an event without an index asks for nothing that waits
    rcases houtput with ho | ho
    · rw [ho]
      rfl
    · simp [ho, text, hnone]
  · intro hindex hmem
    rcases houtput with ho | ho
    · rw [ho, hindex ho hmem]
      rfl
    · rw [ho]
      exact h.waiting c hc hmem

/-- An item of the call. -/
theorem item {item : ResponsesOutput}
    (hitem : eventItem event = some c.itemID) (hcall : itemCall item = some c.callID)
    (houtput : event.outputIndex = none ∨ event.outputIndex = some c.output)
    (hkey : (keyForEvent event <|> fallbackToolKey item.id item.callId event.outputIndex) =
      some key)
    (hhas : c.HasKey key) (hfind : ∀ m, opened[m]? = some c → toolFor event item key s = some m)
    (hindex : event.outputIndex = none → c ∉ opened → x c = "")
    (hx : x' c = if item.argumentsString ≠ "" then item.argumentsString else x c)
    (hcontinues : c ∈ opened → ∃ rest, x' c = x c ++ rest)
    (hother : ∀ c' ∈ calls, c' ≠ c → x' c' = x c') :
    Stepped calls x' (opening c opened) c event.outputIndex (some c.itemID) key (s, a)
      (readChunks (toolItem event item) (s, a)) := by
  obtain ⟨n, s', hstep, hmet⟩ := toolItem_met (s := s) h.registered.noDangling hkey
  rw [readChunks_congr hstep]
  have hgives : c.Gives event.outputIndex (eventItem event) (itemCall item) key := by
    rw [hitem, hcall]
    exact CallNames.gives_of houtput hhas
  -- the names of the event lead to the call, if it has a tool at all
  have hfound : ∀ m, toolFor event item key s = some m ↔ opened[m]? = some c := by
    intro m
    refine ⟨fun hm => ?_, hfind m⟩
    exact h.place_of_clash hcalls hc (h.registered.toolFor_clashes hgives hm)
  obtain ⟨hknown, hwaits⟩ := h.waitingFor_eq hcalls hc houtput
  have hfull : ∀ waiting tool, ((meet event item waiting tool).full item).arguments =
        if item.argumentsString ≠ "" then item.argumentsString else tool.arguments ++ waiting := by
    intro waiting tool
    simp only [full_eq, meet]
  rw [← hitem]
  refine h.met hcalls hc hmet hgives hfound hindex (.inr hitem) (fun tool => ?_) (fun hmem => ?_)
    (fun hmem tool htool => ?_) hother
  · simp [full_eq, meet]
  · obtain ⟨rest, hrest⟩ := hcontinues hmem
    refine ⟨rest, hrest, fun tool htool => ?_⟩
    rw [hfull, hknown hmem, String.append_empty, htool, ← hx, hrest]
  · rw [hfull, hwaits hindex hmem, htool, String.empty_append, hx]

end

section

variable (h : Forwarded calls x opened (s, a)) (hcalls : OwnCalls calls) (hc : c ∈ calls)
  (hmem : c ∉ opened)
  (hname : c.MayName event) (houtput : event.outputIndex = some c.output)

include h hcalls hc hmem hname houtput

theorem findTool_none : findToolForEvent event s = none := by
  refine eq_none_iff_forall_ne_some.mpr fun m hm => hmem ?_
  have hclash := h.registered.findTool_clashes hname.1 (hname.gives houtput) hm
  exact mem_of_getElem? (h.place_of_clash hcalls hc hclash)

/-- The end of the arguments of a call that has no tool call yet. -/
theorem flush :
    Stepped calls x (opening c opened) c event.outputIndex (eventItem event)
      (.output c.output) (s, a) (readChunks (flushPendingTool event) (s, a)) := by
  have hgives := hname.gives houtput
  have hfind := h.findTool_none hcalls hc hmem hname houtput
  have hkey : keyForEvent event = some (.output c.output) := by
    simp [keyForEvent, houtput]
  obtain ⟨n, s', hstep, hmet⟩ :=
    flushPendingTool_met (s := s) h.registered.noDangling hfind hname.1 hkey
  obtain ⟨-, hwaits⟩ := h.waitingFor_eq hcalls hc (.inr houtput)
  have hindex : event.outputIndex = none → c ∉ opened → x c = "" := by
    rw [houtput]
    exact fun hnone => (by cases hnone)
  -- the call has no tool, so no name leads to one
  have hfound : ∀ m, s.toolAt (.output c.output) = some m ↔ opened[m]? = some c := by
    intro m
    refine ⟨fun hm => ?_, fun hm => absurd (mem_of_getElem? hm) hmem⟩
    exact h.place_of_name hcalls hc (.key (.output c.output)) (hgives _ rfl) hm
  rw [readChunks_congr hstep]
  refine h.met hcalls hc hmet hgives hfound hindex (.inl rfl) (fun tool => ⟨rfl, rfl, rfl⟩)
    (fun hopen => absurd hopen hmem) (fun _ tool htool => ?_) fun _ _ _ => rfl
  show tool.arguments ++ waitingFor event s = x c
  rw [htool, hwaits hindex hmem, String.empty_append]

end

end Forwarded

end Forwarded

/-! ### Events -/

/-- The converter has what has come of the calls. -/
structure TrackedCalls (calls : List StreamedCall) (t : SeenCalls) (opened : List StreamedCall)
    (p : ChatLink) :
    Prop where
  forwarded : Forwarded calls (fun c => (t c).expected c) opened p
  openedIff : ∀ c ∈ calls, (t c).opened = true ↔ c ∈ opened
  known : ∀ (n : Nat) c, opened[n]? = some c → (t c).known = true → p.1.toolOfItem c.itemID = some n
  opens : ∀ c ∈ calls, (t c).known = true ∨ (t c).copied = true → (t c).opened = true
  finalized : p.1.finalized = false

/-- Before the end, every tool call is found by its output index. -/
structure LiveCalls (calls : List StreamedCall) (t : SeenCalls) (opened : List StreamedCall)
    (p : ChatLink) : Prop
    extends TrackedCalls calls t opened p where
  outputs : ∀ (n : Nat) c, opened[n]? = some c →
    p.1.toolOfOutput c.output = some n ∧ p.1.toolAt (.output c.output) = some n

section Events

variable {t t' : SeenCalls} {c : StreamedCall}

theorem getElem?_opening (h : (opening c opened)[n]? = some c') (hne : c' ≠ c) :
    opened[n]? = some c' := by
  unfold opening at h
  split at h
  · exact h
  · exact (getElem?_concat_cases h).resolve_right fun hlast => hne hlast.2

theorem TrackedCalls.stepped (h : TrackedCalls calls t opened p) (hc : c ∈ calls)
    (hstep : Stepped calls (fun c => (t' c).expected c) (opening c opened) c outputIndex itemID
      key p p')
    (hother : ∀ c' ∈ calls, c' ≠ c → t' c' = t c') (hopened : (t' c).opened = true)
    (hknown : (t' c).known = true → itemID = some c.itemID ∨ (t c).known = true) :
    TrackedCalls calls t' (opening c opened) p' where
  forwarded := hstep.forwarded
  openedIff := by
    intro c' hc'
    rw [mem_opening]
    by_cases heq : c' = c
    · subst heq
      simp [hopened]
    · rw [hother c' hc' heq, h.openedIff c' hc']
      simp [heq]
  known := by
    intro n c' hn hk
    by_cases heq : c' = c
    · subst heq
      rcases hknown hk with hid | hbefore
      · exact (hstep.found n hn).2.2 hid
      · -- it was opened before, in the same place
        have hmem : c' ∈ opened := (h.openedIff c' hc).mp (h.opens c' hc (.inl hbefore))
        rw [opening, if_pos hmem] at hn
        exact hstep.keeps (.item _) n (h.known n c' hn hbefore)
    · have hn' := getElem?_opening hn heq
      have hc' := h.forwarded.mem c' (mem_of_getElem? hn')
      rw [hother c' hc' heq] at hk
      exact hstep.keeps (.item _) n (h.known n c' hn' hk)
  opens := by
    intro c' hc' hk
    by_cases heq : c' = c
    · rw [heq, hopened]
    · rw [hother c' hc' heq] at hk ⊢
      exact h.opens c' hc' hk
  finalized := hstep.only.finalized.trans h.finalized

theorem LiveCalls.stepped (h : LiveCalls calls t opened p) (hc : c ∈ calls)
    (hstep : Stepped calls (fun c => (t' c).expected c) (opening c opened) c (some c.output) itemID
      (.output c.output) p p')
    (hother : ∀ c' ∈ calls, c' ≠ c → t' c' = t c') (hopened : (t' c).opened = true)
    (hknown : (t' c).known = true → itemID = some c.itemID ∨ (t c).known = true) :
    LiveCalls calls t' (opening c opened) p' where
  toTrackedCalls := h.toTrackedCalls.stepped hc hstep hother hopened hknown
  outputs := by
    intro n c' hn
    by_cases heq : c' = c
    · subst heq
      obtain ⟨hat, hof, -⟩ := hstep.found n hn
      exact ⟨hof rfl, hat⟩
    · obtain ⟨hof, hat⟩ := h.outputs n c' (getElem?_opening hn heq)
      exact ⟨hstep.keeps (.output _) n hof, hstep.keeps (.key _) n hat⟩

theorem TrackedCalls.apart (h : TrackedCalls calls t opened p) (hp' : Apart p p') :
    TrackedCalls calls t opened p' :=
  { h with
    forwarded := h.forwarded.same hp'.names hp'.tools hp'.answered
    known := by rw [hp'.names.toolOfItem]; exact h.known
    finalized := hp'.finalized.trans h.finalized }

theorem LiveCalls.apart (h : LiveCalls calls t opened p) (hp' : Apart p p') :
    LiveCalls calls t opened p' where
  toTrackedCalls := h.toTrackedCalls.apart hp'
  outputs := by rw [hp'.names.toolOfOutput, hp'.names.toolAt]; exact h.outputs

/-- An event is about one call at most. -/
theorem event_other (hcalls : OwnCalls calls) (hc : c ∈ calls) (hevent : c.IsEvent event)
    (c' : StreamedCall) (hc' : c' ∈ calls) (hne : c' ≠ c) : t.event event c' = t c' := by
  have hnot : ¬ c'.IsEvent event := by
    intro hevent'
    have houtput : c'.output = c.output := some.inj (hevent'.1.symm.trans hevent.1)
    exact hne (hcalls.eq_of_clashes hc' hc (.inl houtput))
  rw [SeenCalls.event, Seen.event, if_neg hnot]

/-- Deltas and the end of arguments find the tool call of their call. -/
theorem LiveCalls.findTool (h : LiveCalls calls t opened p) (hn : opened[n]? = some c)
    (hname : c.MayName event)
    (houtput : event.outputIndex = some c.output) : findToolForEvent event p.1 = some n := by
  rw [findToolForEvent_eq h.forwarded.registered.noDangling hname.1, houtput]
  simp [(h.outputs n c hn).1]

/-- An event for a call whose tool call is there, or for one that still waits. -/
theorem LiveCalls.retained (h : LiveCalls calls t opened p)
    (hforwarded : Forwarded calls (fun c => (t' c).expected c) opened p')
    (hkeeps : KeepsNames p.1 p'.1) (hfinalized : p'.1.finalized = p.1.finalized)
    (hflags : ∀ c ∈ calls, (t' c).opened = (t c).opened ∧ (t' c).known = (t c).known ∧
      (t' c).copied = (t c).copied) : LiveCalls calls t' opened p' where
  forwarded := hforwarded
  openedIff c hc := by rw [(hflags c hc).1, h.openedIff c hc]
  known n c hn hk := by
    rw [(hflags c (h.forwarded.mem c (mem_of_getElem? hn))).2.1] at hk
    exact hkeeps (.item _) n (h.known n c hn hk)
  opens c hc hk := by
    rw [(hflags c hc).2.1, (hflags c hc).2.2] at hk
    rw [(hflags c hc).1, h.opens c hc hk]
  finalized := hfinalized.trans h.finalized
  outputs n c hn :=
    ⟨hkeeps (.output _) n (h.outputs n c hn).1, hkeeps (.key _) n (h.outputs n c hn).2⟩

/-- A full copy continues what is forwarded. -/
theorem Seen.Continued.exists_rest {t : Seen} (h : t.Continued c) :
    ∃ rest, c.arguments = t.expected c ++ rest := by
  unfold Seen.expected
  rcases h with hcopied | hstart
  · exact ⟨"", by simp [hcopied]⟩
  · split
    · exact ⟨"", by simp⟩
    · exact Text.exists_append_of_prefix hstart

section

variable (h : LiveCalls calls t opened (s, a)) (hcalls : OwnCalls calls) (hc : c ∈ calls)
  (hevent : c.IsEvent event)

include h hcalls hc hevent

/-- A delta goes to the tool call of its call, or waits for it. -/
theorem LiveCalls.delta (hkind : event.type.toolEvent = some .delta) (hname : c.MayName event)
    (hfits : event.delta = "" ∨ (t c).copied = false) :
    LiveCalls calls (t.event event) opened (readChunks (toolArgumentsDelta event) (s, a)) := by
  have ht : t.event event c = { t c with received := (t c).received ++ event.delta } := by
    simp only [SeenCalls.event, Seen.event, if_pos hevent, hkind]
  have hother : ∀ c' ∈ calls, c' ≠ c → t.event event c' = t c' := event_other hcalls hc hevent
  by_cases hempty : event.delta = ""
  · have hnothing : toolArgumentsDelta event s = (s, []) := if_pos hempty
    have hsame : t.event event = t := by
      funext c'
      simp [SeenCalls.event, Seen.event, hkind, hempty]
    rwa [readChunks_silent hnothing, hsame]
  -- after a copy of the arguments no delta comes
  have hcopied : (t c).copied = false := hfits.resolve_left hempty
  have hx : (t.event event c).expected c = (t c).expected c ++ event.delta := by
    simp [ht, Seen.expected, hcopied]
  have hxs : ∀ c' ∈ calls, c' ≠ c → (t.event event c').expected c' = (t c').expected c' :=
    fun c' hc' hne => by rw [hother c' hc' hne]
  have hflags : ∀ c' ∈ calls, (t.event event c').opened = (t c').opened ∧
      (t.event event c').known = (t c').known ∧ (t.event event c').copied = (t c').copied := by
    intro c' hc'
    by_cases heq : c' = c
    · rw [heq, ht]
      exact ⟨rfl, rfl, rfl⟩
    · rw [hother c' hc' heq]
      exact ⟨rfl, rfl, rfl⟩
  -- a delta for a call without a tool waits under its output index
  by_cases hmem : c ∈ opened
  · obtain ⟨n, hn⟩ := mem_iff_getElem?.mp hmem
    have hfind : findToolForEvent event s = some n := h.findTool hn hname hevent.1
    have hstep : toolArgumentsDelta event s =
        toolDelta n event.delta (s.modifyTool n (more event.delta)) := by
      simp only [toolArgumentsDelta, if_neg hempty, hfind]
    have hsame : SameNames s (s.modifyTool n (more event.delta)) := rfl
    obtain ⟨honly, hsame'⟩ :=
      reads_toolDelta_only n event.delta (s.modifyTool n (more event.delta)) a
    rw [readChunks_congr hstep]
    refine h.retained ?_ (hsame.keeps.trans hsame'.keeps) honly.finalized hflags
    exact h.forwarded.known hn (.inr rfl) (f := more event.delta)
      (fun _ _ => ⟨rfl, rfl, rfl⟩) rfl (h.forwarded.registered.same hsame (by simp [modifyTool]))
        hsame.keeps rfl rfl
      hx hxs
  · have hfind := h.forwarded.findTool_none hcalls hc hmem hname hevent.1
    have hstep : toolArgumentsDelta event s = (waitForTool event s, []) := by
      simp only [toolArgumentsDelta, if_neg hempty, hfind]
    have hwait : waitForTool event s =
        let waiting := s.pendingArgsByOutputIndex.text (some c.output) ++ event.delta
        { s with pendingArgsByOutputIndex :=
            s.pendingArgsByOutputIndex.insert c.output waiting } := by
      simp only [waitForTool, hevent.1]
      rfl
    have htext : s.pendingArgsByOutputIndex.text (some c.output) = (t c).expected c :=
      h.forwarded.waiting c hc hmem
    rw [readChunks_silent hstep, hwait, htext]
    have hnamed : ∀ waiting,
        ({ s with pendingArgsByOutputIndex := waiting } : ResponsesToChatStreamState).named =
            s.named :=
      fun _ => by funext name; cases name <;> rfl
    refine h.retained ⟨h.forwarded.mem, ?_, ?_, ?_, ?_, h.forwarded.items, h.forwarded.found⟩
      (fun name n hn => by rw [hnamed]; exact hn) rfl hflags
    · obtain ⟨hlength, hown, hdangling, hnames⟩ := h.forwarded.registered
      refine ⟨hlength, hown, ⟨hdangling.output, hdangling.item, hdangling.call⟩, ?_⟩
      rw [hnamed]
      exact hnames
    · refine Linked.of_tools (h.forwarded.linked.imp ?_) rfl rfl
      rintro n tool u ⟨c', hc', hargs, hsent⟩
      have hopen := mem_of_getElem? hc'
      exact ⟨c', hc', hargs.trans
        (hxs c' (h.forwarded.mem c' hopen) fun heq => hmem (heq ▸ hopen)).symm, hsent⟩
    · intro c' hc' hnot
      by_cases heq : c' = c
      · subst heq
        simp [text, hx]
      · -- the other outputs wait as before
        have hne : c'.output ≠ c.output := fun hout => heq (hcalls.eq_of_clashes hc' hc (.inl hout))
        have hbefore : s.pendingArgsByOutputIndex.text (some c'.output) = (t c').expected c' :=
          h.forwarded.waiting c' hc' hnot
        rw [hxs c' hc' heq, ← hbefore]
        simp [text, AList.lookup_insert_ne hne]
    · intro i w hw
      rw [lookup_insert_of] at hw
      split at hw
      · rename_i hi
        refine ⟨?_, c, hc, hmem, hi.symm⟩
        rw [← some.inj hw]
        simp [hempty]
      · exact h.forwarded.waits i w hw

/-- The end of the arguments opens a call that has only waited. -/
theorem LiveCalls.flush (hkind : event.type.toolEvent = some .flush) (hname : c.MayName event) :
    LiveCalls calls (t.event event) (opening c opened)
      (readChunks (flushPendingTool event) (s, a)) := by
  have ht : t.event event c = { t c with
      opened := true, known := (t c).known || (!(t c).opened && trimSpace event.itemID ≠ "") } := by
    simp only [SeenCalls.event, Seen.event, if_pos hevent, hkind]
  have hother : ∀ c' ∈ calls, c' ≠ c → t.event event c' = t c' := event_other hcalls hc hevent
  have hxs : ∀ c' ∈ calls, (t.event event c').expected c' = (t c').expected c' := by
    intro c' hc'
    by_cases heq : c' = c
    · rw [heq, ht]
      rfl
    · rw [hother c' hc' heq]
  by_cases hmem : c ∈ opened
  · obtain ⟨n, hn⟩ := mem_iff_getElem?.mp hmem
    have hopened : (t c).opened = true := (h.openedIff c hc).mpr hmem
    have hfind : findToolForEvent event s = some n := h.findTool hn hname hevent.1
    have hstep : flushPendingTool event s = toolDelta n "" s := by
      simp only [flushPendingTool, hfind]
    obtain ⟨honly, hsame⟩ := reads_toolDelta_only n "" s a
    rw [readChunks_congr hstep, opening, if_pos hmem]
    refine h.retained ?_ hsame.keeps honly.finalized fun c' hc' => ?_
    · exact (h.forwarded.again hn).congr hxs
    · by_cases heq : c' = c
      · rw [heq, ht]
        simp [hopened]
      · rw [hother c' hc' heq]
        exact ⟨rfl, rfl, rfl⟩
  · have hstep := h.forwarded.flush hcalls hc hmem hname hevent.1
    rw [hevent.1] at hstep
    refine h.stepped hc ⟨hstep.forwarded.congr hxs, hstep.keeps, hstep.only, hstep.found⟩ hother
      (by rw [ht]) fun hknown => ?_
    rw [ht] at hknown
    by_cases hbefore : (t c).known = true
    · exact .inr hbefore
    · -- the item id of the event is that of the call
      have hid : trimSpace event.itemID ≠ "" := by
        simp only [hbefore, Bool.false_or, Bool.and_eq_true, decide_eq_true_eq] at hknown
        exact hknown.2
      have hitem : responseStreamEventItemID event = trimSpace event.itemID := by
        simp [responseStreamEventItemID, hname.1]
      left
      rw [eventItem, hitem, if_neg hid, hname.2.resolve_left hid]

end

variable {arguments : String}

/-- The names of an item are those of its call. -/
theorem StreamedCall.IsItem.names {item : ResponsesOutput} (h : c.IsItem item arguments)
    (hcalls : OwnCalls calls) (hc : c ∈ calls) (hitem : event.item = some item) :
    eventItem event = some c.itemID ∧ itemCall item = some c.callID := by
  obtain ⟨hitemID, hcallID⟩ := hcalls.named c hc
  constructor
  · have hevent : responseStreamEventItemID event = c.itemID := by
      simp [responseStreamEventItemID, hitem, h.2.1, hitemID]
    rw [eventItem, hevent, if_neg hitemID]
  · rw [itemCall, h.2.2.1, if_neg hcallID]

/-- An item that is added or done. -/
theorem LiveCalls.item (h : LiveCalls calls t opened (s, a))
    (hcalls : OwnCalls calls) (hc : c ∈ calls) (hevent : c.IsEvent event) {item : ResponsesOutput}
    (hitem : event.item = some item) (his : c.IsItem item arguments)
    (ht : (t.event event c).opened = true)
    (hx : (t.event event c).expected c = if arguments ≠ "" then arguments else (t c).expected c)
    (hcontinues : c ∈ opened → ∃ rest, (t.event event c).expected c = (t c).expected c ++ rest) :
    LiveCalls calls (t.event event) (opening c opened)
      (readChunks (toolItem event item) (s, a)) := by
  obtain ⟨hid, hcall⟩ := his.names hcalls hc hitem
  have hother : ∀ c' ∈ calls, c' ≠ c → t.event event c' = t c' := event_other hcalls hc hevent
  have hkey : (keyForEvent event <|> fallbackToolKey item.id item.callId event.outputIndex) =
      some (.output c.output) := by
    simp [keyForEvent, hevent.1]
  -- a call with a tool is found under its output index
  have hfind : ∀ m, opened[m]? = some c → toolFor event item (.output c.output) s = some m := by
    intro m hm
    have hat : s.toolAt (.output c.output) = some m := (h.outputs m c hm).2
    simp [toolFor, hat]
  have hstep : Stepped calls (fun c => (t.event event c).expected c) (opening c opened) c
      event.outputIndex
      (some c.itemID) (.output c.output) (s, a) (readChunks (toolItem event item) (s, a)) :=
    h.forwarded.item hcalls hc hid hcall (.inr hevent.1) hkey rfl hfind
      (fun hnone => by rw [hevent.1] at hnone; cases hnone) (by rw [his.2.2.2]; exact hx) hcontinues
      fun c' hc' hne => by rw [hother c' hc' hne]
  rw [hevent.1] at hstep
  exact h.stepped hc hstep hother ht fun _ => .inl rfl

/-- Every event that fits. -/
theorem LiveCalls.step (h : LiveCalls calls t opened p) (hcalls : OwnCalls calls) (hc : c ∈ calls)
    (hevent : c.IsEvent event) (hfits : (t c).EventFits c event) :
    ∃ opened', LiveCalls calls (t.event event) opened' (readChunks (convertEvent event) p) := by
  obtain ⟨s, a⟩ := p
  obtain ⟨kind, hkind, hdescribes⟩ := hevent.2
  have hkind : event.type.toolEvent = some kind := hkind
  cases kind with
  | delta =>
    rw [convertEvent_delta hkind]
    exact ⟨opened, h.delta hcalls hc hevent hkind hdescribes ((hfits hevent).1 hkind)⟩
  | flush =>
    rw [convertEvent_flush hkind]
    exact ⟨_, h.flush hcalls hc hevent hkind hdescribes⟩
  | added =>
    obtain ⟨item, hitem, his⟩ := hdescribes
    have ht : t.event event c = { t c with opened := true, known := true } := by
      simp only [SeenCalls.event, Seen.event, if_pos hevent, hkind]
    rw [convertEvent_item (.inl hkind) hitem his.1]
    refine ⟨_, h.item hcalls hc hevent hitem his (by rw [ht]) (by rw [ht]; rfl) fun _ => ⟨"", ?_⟩⟩
    rw [ht, String.append_empty]
    rfl
  | done =>
    obtain ⟨item, hitem, his⟩ := hdescribes
    have ht : t.event event c = { t c with opened := true, known := true, copied := true } := by
      simp only [SeenCalls.event, Seen.event, if_pos hevent, hkind]
    have hx : (t.event event c).expected c = c.arguments := by
      rw [ht]
      rfl
    have hcopy := (hfits hevent).2 hkind
    rw [convertEvent_item (.inr hkind) hitem his.1]
    refine ⟨_, h.item hcalls hc hevent hitem his (by rw [ht]) ?_ fun hmem => ?_⟩
    · rw [hx]
      by_cases hempty : c.arguments = ""
      · -- a copy without arguments continues only what is empty
        obtain ⟨rest, hrest⟩ := (hcopy.resolve_right fun hnot => hnot.2 hempty).exists_rest
        rw [hempty] at hrest
        have hnothing : (t c).expected c = "" := (String.append_eq_empty_iff.mp hrest.symm).1
        simp [hempty, hnothing]
      · rw [if_pos hempty]
    · have hopened : (t c).opened = true := (h.openedIff c hc).mpr hmem
      have hcontinued : (t c).Continued c := hcopy.resolve_right fun hnot => by
        rw [hopened] at hnot
        cases hnot.1
      rw [hx]
      exact hcontinued.exists_rest

/-- A run of events that fit. -/
theorem LiveCalls.run (hcalls : OwnCalls calls) {events : List ResponsesStreamResponse}
    (hevents : ∀ event ∈ events, event.NotTool ∨ ∃ c ∈ calls, c.IsEvent event)
    (h : LiveCalls calls t opened p)
    (hfits : Along (fun t event => ∀ c ∈ calls, (t c).EventFits c event) SeenCalls.event t events) :
    ∃ opened', LiveCalls calls (exec SeenCalls.event t events) opened'
      (exec (fun p event => readChunks (convertEvent event) p) p events) := by
  induction events generalizing t opened p with
  | nil => exact ⟨opened, h⟩
  | cons event events ih =>
    obtain ⟨hnot | ⟨c, hc, hevent⟩, hrest⟩ := forall_mem_cons.mp hevents
    · -- no call is concerned
      have hsame : t.event event = t := by
        funext c
        have hno : ¬ c.IsEvent event := by
          rintro ⟨-, kind, hkind, hdescribes⟩
          have hkind : event.type.toolEvent = some kind := hkind
          rcases hnot.2 with hnone | ⟨hitems, hitem⟩
          · rw [hnone] at hkind
            cases hkind
          · have htool : ∃ item ∈ event.item, isResponsesToolOutputType item.type = true := by
              cases kind with
              | delta => simp [hkind] at hitems
              | flush => simp [hkind] at hitems
              | added => exact hdescribes.imp fun item h => ⟨h.1, h.2.1⟩
              | done => exact hdescribes.imp fun item h => ⟨h.1, h.2.1⟩
            obtain ⟨item, hmem, htype⟩ := htool
            rw [hitem item hmem] at htype
            cases htype
        rw [SeenCalls.event, Seen.event, if_neg hno]
      exact ih hrest (hsame.symm ▸ h.apart (Apart.of_event hnot p)) hfits.2
    · obtain ⟨opened', h'⟩ := h.step hcalls hc hevent (hfits.1 c hc)
      exact ih hrest h' hfits.2

end Events

/-! ### The end of the stream -/

section End

variable {t : SeenCalls} {c : StreamedCall} {out : ResponsesOutput}

/-- A call that is listed at the end. -/
theorem TrackedCalls.listing (h : TrackedCalls calls t opened (s, a)) (hcalls : OwnCalls calls)
    (hc : c ∈ calls) (his : c.IsItem out c.arguments) (hfits : (t c).ListingFits c out) :
    TrackedCalls calls (t.listing out) (opening c opened)
      (readChunks (terminalOutput out) (s, a)) := by
  have ht : t.listing out c = { t c with opened := true, known := true, copied := true } := by
    simp only [SeenCalls.listing, Seen.listing, if_pos his]
  have hother : ∀ c' ∈ calls, c' ≠ c → t.listing out c' = t c' := by
    intro c' hc' hne
    have hnot : ¬ c'.IsItem out c'.arguments := fun his' =>
      hne (hcalls.eq_of_clashes hc' hc (.inr (.inl (his'.2.1.symm.trans his.2.1))))
    rw [SeenCalls.listing, Seen.listing, if_neg hnot]
  have hout : terminalOutput out s = toolItem { item := some out } out s := by
    obtain ⟨hmessage, hreasoning⟩ := ResponsesOutputType.ne_of_tool his.1
    simp [terminalOutput, hmessage, hreasoning, his.1]
  obtain ⟨hid, hcall⟩ := his.names hcalls hc
    (show ({ item := some out } : ResponsesStreamResponse).item = some out from rfl)
  have hkey : (keyForEvent { item := some out } <|> fallbackToolKey out.id out.callId none) =
      some (.item c.itemID) := by
    simp [keyForEvent, fallbackToolKey, his.2.1, (hcalls.named c hc).1]
  -- a call that has a tool call is known, and the copy continues what it has
  have hknown : c ∈ opened → (t c).known = true ∧ (t c).Continued c := by
    intro hmem
    refine (hfits his).resolve_right fun hnot => ?_
    rw [(h.openedIff c hc).mpr hmem] at hnot
    cases hnot.1
  have hempty : c ∉ opened → (t c).expected c = "" := by
    intro hmem
    have hclosed : ¬ (t c).opened = true := fun hopen => hmem ((h.openedIff c hc).mp hopen)
    have hcopied : ¬ (t c).copied = true := fun hcopied => hclosed (h.opens c hc (.inr hcopied))
    rcases hfits his with hk | hnothing
    · exact absurd (h.opens c hc (.inl hk.1)) hclosed
    · rw [Seen.expected, if_neg hcopied, hnothing.2]
  have hfind : ∀ m, opened[m]? = some c →
      toolFor { item := some out } out (.item c.itemID) s = some m := by
    intro m hm
    have hof : s.toolOfItem c.itemID = some m := h.known m c hm (hknown (mem_of_getElem? hm)).1
    cases hat : s.toolAt (.item c.itemID) with
    | none => simp [toolFor, hat, hid, hof]
    | some k =>
      have hk := h.forwarded.place_of_name hcalls hc (.key (.item c.itemID)) rfl hat
      simp [toolFor, hat, h.forwarded.place_unique hk hm]
  have hx : (t.listing out c).expected c = c.arguments := by
    rw [ht]
    rfl
  have hstep : Stepped calls (fun c => (t.listing out c).expected c) (opening c opened) c none
      (some c.itemID) (.item c.itemID) (s, a)
          (readChunks (toolItem { item := some out } out) (s, a)) := by
    refine h.forwarded.item hcalls hc hid hcall (.inl rfl) hkey rfl hfind (fun _ => hempty) ?_
      (fun hmem => ?_)
      fun c' hc' hne => by rw [hother c' hc' hne]
    · rw [his.2.2.2, hx]
      by_cases hargs : c.arguments = ""
      · have hnothing : (t c).expected c = "" := by
          by_cases hmem : c ∈ opened
          · obtain ⟨rest, hrest⟩ := (hknown hmem).2.exists_rest
            rw [hargs] at hrest
            exact (String.append_eq_empty_iff.mp hrest.symm).1
          · exact hempty hmem
        simp [hargs, hnothing]
      · rw [if_pos hargs]
    · rw [hx]
      exact (hknown hmem).2.exists_rest
  rw [readChunks_congr hout]
  exact h.stepped hc hstep hother (by rw [ht]) fun _ => .inl rfl

/-- All that is listed at the end. -/
theorem TrackedCalls.run (hcalls : OwnCalls calls) {outputs : List ResponsesOutput}
    (houtputs : ∀ out ∈ outputs, isResponsesToolOutputType out.type = false ∨
      ∃ c ∈ calls, c.IsItem out c.arguments) (h : TrackedCalls calls t opened p)
    (hfits : Along (fun t out => ∀ c ∈ calls, (t c).ListingFits c out) SeenCalls.listing t
      outputs) :
    ∃ opened', TrackedCalls calls (exec SeenCalls.listing t outputs) opened'
      (exec (fun p out => readChunks (terminalOutput out) p) p outputs) := by
  induction outputs generalizing t opened p with
  | nil => exact ⟨opened, h⟩
  | cons out outputs ih =>
    obtain ⟨htype | ⟨c, hc, his⟩, hrest⟩ := forall_mem_cons.mp houtputs
    · have hsame : t.listing out = t := by
        funext c
        have hno : ¬ c.IsItem out c.arguments :=
          fun his => Bool.false_ne_true (htype.symm.trans his.1)
        rw [SeenCalls.listing, Seen.listing, if_neg hno]
      exact ih hrest (hsame.symm ▸ h.apart (Apart.of_output htype p)) hfits.2
    · exact ih hrest (h.listing hcalls hc his (hfits.1 c hc)) hfits.2

/-- A key of a tool call, or of arguments that wait. -/
def Flushable (calls opened : List StreamedCall) (p : ChatLink) (key : ToolKey) : Prop :=
  (∃ n, p.1.toolAt key = some n) ∨ ∃ c ∈ calls, c ∉ opened ∧ key = .output c.output

variable (h : Forwarded calls x opened (s, a))

include h

/-- A key under which a tool call is found has nothing that waits. -/
theorem Forwarded.takePending_eq (hcalls : OwnCalls calls)
    (hkey : s.toolAt key = some n) : takePending key n s = s := by
  refine takePending_nothing h.items fun i hi => ?_
  subst hi
  obtain ⟨c, hc, hhas⟩ := h.call_of_name (.key _) hkey
  rw [show i = c.output from hhas]
  exact h.nothing_waits hcalls (mem_of_getElem? hc)

/-- One key: its tool call is there, or it is opened for what waits. -/
theorem Forwarded.flushOne (hcalls : OwnCalls calls)
    (hkey : Flushable calls opened (s, a) key) :
    ∃ opened', Forwarded calls x opened' (readChunks (flushKey key) (s, a)) ∧
      KeepsNames s (readChunks (flushKey key) (s, a)).1 ∧
      (∃ n, (readChunks (flushKey key) (s, a)).1.toolAt key = some n) ∧
      (∀ c ∈ opened, c ∈ opened') ∧ ∀ c ∈ opened', c ∈ opened ∨ key = .output c.output := by
  cases hat : s.toolAt key with
  | some n =>
    have hstep : flushKey key s = toolDelta n "" s := by
      have hlookup : s.toolByKey.lookup key = some n := hat
      simp only [flushKey, openToolAt, hlookup, h.takePending_eq hcalls hat]
    obtain ⟨c, hn, -⟩ := h.call_of_name (.key _) hat
    obtain ⟨-, hsame⟩ := reads_toolDelta_only n "" s a
    rw [readChunks_congr hstep]
    exact ⟨opened, h.again hn, hsame.keeps, ⟨n, hsame.keeps (.key key) n hat⟩, fun _ hc => hc,
      fun _ hc => .inl hc⟩
  | none =>
    obtain ⟨n, hn⟩ | ⟨c, hc, hmem, rfl⟩ := hkey
    · rw [show s.toolAt key = some n from hn] at hat
      cases hat
    -- a tool is opened for what waits under this index
    let opened := s.newTool (.output c.output) (ToolKey.output c.output).fallbackCallID
    let s' := takePending (.output c.output) s.tools.length opened.1
    have hstep : flushKey (.output c.output) s = toolDelta s.tools.length "" s' := by
      have hlookup : s.toolByKey.lookup (.output c.output) = none := hat
      simp only [flushKey, openToolAt, hlookup]
      rfl
    have htext : (s.pendingArgsByOutputIndex.lookup c.output).getD "" = x c := h.waiting c hc hmem
    have htools : s'.tools = s.tools ++ [more (x c)
        { key := .output c.output, callID := (ToolKey.output c.output).fallbackCallID
          index := s.tools.length }] := by
      rw [← htext]
      exact modify_concat ..
    have hkeys : ∀ key', s'.toolAt key' = if key' = .output c.output then some s.tools.length
        else s.toolAt key' :=
      fun key' => lookup_insert_of ..
    have hnames : NamesBound none none none (.output c.output) s.tools.length s s' :=
      namesBound_of_maps h.registered.noDangling (.inl hat) hkeys rfl rfl rfl
    have hgives : c.Gives none none none (.output c.output) := fun name hgiven => by
      cases name <;> cases hgiven
      rfl
    obtain ⟨hregistered, hkeeps⟩ :=
      h.registered.new (h.fresh hcalls hc hmem) hnames hgives (by simp [htools])
    obtain ⟨-, hsame⟩ := reads_toolDelta_only s.tools.length "" s' a
    have hfound : s'.toolAt (.output c.output) = some s.tools.length := by rw [hkeys, if_pos rfl]
    rw [readChunks_congr hstep]
    refine ⟨_ ++ [c], h.new hc hmem rfl rfl rfl ?_ htools hregistered hkeeps
      (fun i => lookup_erase_of ..) rfl (.inl hfound) hcalls fun _ _ _ => rfl,
      hkeeps.trans hsame.keeps, ⟨_, hsame.keeps (.key _) _ hfound⟩,
      fun c' hc' => mem_append_left _ hc', ?_⟩
    · exact String.empty_append
    · exact forall_mem_append.mpr ⟨fun c' hc' => .inl hc', forall_mem_singleton.mpr (.inr rfl)⟩

omit h in
/-- All keys. -/
theorem Forwarded.flushRun (hcalls : OwnCalls calls) {keys : List ToolKey}
    (h : Forwarded calls x opened p) (hkeys : ∀ key ∈ keys, Flushable calls opened p key) :
    ∃ opened', Forwarded calls x opened' (exec (fun p key => readChunks (flushKey key) p) p keys) ∧
      KeepsNames p.1 (exec (fun p key => readChunks (flushKey key) p) p keys).1 ∧
      (∀ key ∈ keys, ∃ n, (exec (fun p key => readChunks (flushKey key) p) p keys).1.toolAt key =
        some n) ∧
      ∀ c ∈ opened, c ∈ opened' := by
  induction keys generalizing opened p with
  | nil => exact ⟨opened, h, KeepsNames.refl _, nofun, fun _ hc => hc⟩
  | cons key keys ih =>
    obtain ⟨s, a⟩ := p
    obtain ⟨opened₁, h₁, hkeeps₁, hkey, hgrows, honly⟩ :=
      h.flushOne hcalls (hkeys key mem_cons_self)
    have hrest : ∀ key' ∈ keys,
        Flushable calls opened₁ (readChunks (flushKey key) (s, a)) key' := by
      intro key' hkey'
      rcases hkeys key' (mem_cons_of_mem key hkey') with ⟨n, hn⟩ | ⟨c, hc, hmem, rfl⟩
      · exact .inl ⟨n, hkeeps₁ (.key key') n hn⟩
      · by_cases hmem₁ : c ∈ opened₁
        · -- it was opened with this key
          rcases honly c hmem₁ with hbefore | rfl
          · exact absurd hbefore hmem
          · exact .inl hkey
        · exact .inr ⟨c, hc, hmem₁, rfl⟩
    obtain ⟨opened₂, h₂, hkeeps₂, hall, hgrows₂⟩ := ih h₁ hrest
    refine ⟨opened₂, h₂, hkeeps₁.trans hkeeps₂, fun key' hkey' => ?_,
      fun c hc => hgrows₂ c (hgrows c hc)⟩
    rcases mem_cons.mp hkey' with rfl | hkey'
    · obtain ⟨n, hn⟩ := hkey
      exact ⟨n, hkeeps₂ (.key _) n hn⟩
    · exact hall key' hkey'

/-- After the last flush, what has come of a call without a tool call is nothing. -/
theorem Forwarded.flushAll (hcalls : OwnCalls calls) :
    ∃ opened', Forwarded calls x opened' (readChunks flushAllPendingTools (s, a)) ∧
      ∀ c ∈ calls, c ∉ opened' → x c = "" := by
  have hitems : s.pendingArgsByItemID = ∅ := h.items
  have hmem : ∀ key, key ∈ flushKeys s ↔ key ∈ s.toolByKey.keys ∨
      ∃ i, i ∈ s.pendingArgsByOutputIndex.keys ∧ ToolKey.output i = key ∧
          key ∉ s.toolByKey.keys := by
    intro key
    rw [flushKeys, mem_insertionSort]
    simp [hitems]
    grind
  -- a key is flushed if it has a tool, or if something waits under it
  have hkeys : ∀ key ∈ flushKeys s, Flushable calls opened (s, a) key := by
    intro key hkey
    rcases (hmem key).mp hkey with hat | ⟨i, hi, rfl, -⟩
    · exact .inl (mem_keys_iff.mp hat)
    · obtain ⟨w, hw⟩ := mem_keys_iff.mp hi
      obtain ⟨-, c, hc, hnot, rfl⟩ := h.waits i w hw
      exact .inr ⟨c, hc, hnot, rfl⟩
  have hrun : readChunks flushAllPendingTools (s, a) =
      exec (fun p key => readChunks (flushKey key) p) (s, a) (flushKeys s) :=
    reads_outputs ChatAnswer.add s a (flushKeys s)
  obtain ⟨opened', h', -, hall, hgrows⟩ := h.flushRun hcalls hkeys
  rw [hrun]
  refine ⟨opened', h', fun c hc hnot => ?_⟩
  by_contra hne
  have hbefore : c ∉ opened := fun hopen => hnot (hgrows c hopen)
  have htext : (s.pendingArgsByOutputIndex.lookup c.output).getD "" = x c := h.waiting c hc hbefore
  have hin : c.output ∈ s.pendingArgsByOutputIndex.keys := by
    refine mem_keys_iff.mpr ?_
    cases hlookup : s.pendingArgsByOutputIndex.lookup c.output with
    | none =>
      rw [hlookup] at htext
      exact absurd htext.symm hne
    | some w => exact ⟨w, rfl⟩
  have hflushed : ToolKey.output c.output ∈ flushKeys s := by
    rw [hmem]
    by_cases hat : ToolKey.output c.output ∈ s.toolByKey.keys
    · exact .inl hat
    · exact .inr ⟨c.output, hin, rfl, hat⟩
  obtain ⟨n, hn⟩ := hall _ hflushed
  exact hnot (mem_of_getElem? (h'.place_of_name hcalls hc (.key (.output c.output)) rfl hn))

/-- The end of a stream. -/
theorem Forwarded.ends (hcalls : OwnCalls calls)
    (hopen : s.finalized = false) (response : Option OpenAIResponsesResponse) :
    ∃ opened', Forwarded calls x opened' (readChunks (finalize response) (s, a)) ∧
      ∀ c ∈ calls, c ∉ opened' → x c = "" := by
  have hfinal : Forwarded calls x opened ({ s with finalized := true }, a) := h.same rfl rfl rfl
  obtain ⟨opened', h', hsilent⟩ := hfinal.flushAll hcalls
  rw [readChunks_congr (finalize_open hopen response), readChunks_seq, readChunks_modify,
    readChunks_seq, readChunks_seq]
  refine ⟨opened', ?_, hsilent⟩
  generalize readChunks flushAllPendingTools ({ s with finalized := true }, a) = p at h' ⊢
  have hstart := Apart.of_ensureStart p
  have h'' := h'.same hstart.names hstart.tools hstart.answered
  generalize readChunks ensureStart p = p at h'' ⊢
  refine h''.same rfl rfl ?_
  rw [readChunks_emitFrom]
  unfold usageChunk
  split <;> rfl

end End

/-! ### Forwarded once -/

/-- The tool call of a call of the stream. -/
def ResponsesToChatStreamState.toolOf (s : ResponsesToChatStreamState) (c : CallNames) :
    Option Nat :=
  s.toolAt (.output c.output) <|> s.toolOfItem c.itemID

/-- The argument fragments under a tool index, put together. -/
def ChatAnswer.argumentsAt (a : ChatAnswer) (n : Nat) : String :=
  ((a.tools.find? (·.index = (n : Int))).map (·.arguments)).getD ""

/-- Under the tool index of each call the client has what has come of the call, and it has no other
tool calls. -/
structure ForwardedOnce (calls : List StreamedCall) (t : SeenCalls) (s : ResponsesToChatStreamState)
    (a : ChatAnswer) : Prop where
  routed : Routed (fun c : { c // c ∈ calls } => s.toolOf c.1.toCallNames)
    (fun c => (t c.1).expected c.1) a.argumentsAt
  owned : ∀ u ∈ a.tools, ∃ c ∈ calls, ∃ n : Nat, s.toolOf c.toCallNames = some n ∧ u.index = n

theorem Numbered.find?_eq {tools : List AnswerTool} (h : Numbered tools) :
    tools.find? (·.index = (n : Int)) = tools[n]? := by
  refine Option.ext fun u => ?_
  rw [find?_eq_some_iff_getElem]
  constructor
  · -- the index of a tool is its place
    rintro ⟨hu, m, hm, rfl, -⟩
    have hindex := h m _ (getElem?_eq_getElem hm)
    have hmn : m = n := by
      simp only [decide_eq_true_eq] at hu
      omega
    rw [← hmn, getElem?_eq_getElem hm]
  · intro hu
    obtain ⟨hn, rfl⟩ := List.getElem?_eq_some_iff.mp hu
    refine ⟨by simp [h n _ hu], n, hn, rfl, fun m hm => ?_⟩
    have hindex := h m _ (getElem?_eq_getElem (hm.trans hn))
    simp only [hindex, Bool.not_eq_true', decide_eq_false_iff_not]
    omega

section Once

variable {t : SeenCalls}

theorem Forwarded.toolOf_iff (h : Forwarded calls x opened p) (hcalls : OwnCalls calls)
    {c : StreamedCall}
    (hc : c ∈ calls) (n : Nat) : p.1.toolOf c.toCallNames = some n ↔ opened[n]? = some c := by
  have hkey : ∀ m, p.1.toolAt (.output c.output) = some m → opened[m]? = some c := fun m hm =>
    h.place_of_name hcalls hc (.key (.output c.output)) rfl hm
  rw [toolOf]
  constructor
  · intro hn
    rcases (orElse_eq_some _ _ _).mp hn with hat | ⟨-, hof⟩
    · exact hkey n hat
    · exact h.place_of_name hcalls hc (.item c.itemID) rfl hof
  · intro hn
    cases hat : p.1.toolAt (.output c.output) with
    | some m => simp [h.place_unique (hkey m hat) hn]
    | none =>
      have hof := (h.found n c hn).resolve_left (by simp [hat])
      simp [hof]

theorem Forwarded.once (h : Forwarded calls (fun c => (t c).expected c) opened p)
    (hcalls : OwnCalls calls) (hsilent : ∀ c ∈ calls, c ∉ opened → (t c).expected c = "") :
    ForwardedOnce calls t p.1 p.2 := by
  obtain ⟨s, a⟩ := p
  have hlength : opened.length = a.tools.length := by
    have hplaces := h.registered.length
    rw [length_map] at hplaces
    exact hplaces.trans h.linked.length.symm
  refine ⟨⟨?_, ?_, ?_, ?_⟩, ?_⟩
  · -- calls and tools are one to one
    rintro ⟨c, hc⟩ ⟨c', hc'⟩ n hn hn'
    have hsame := ((h.toolOf_iff hcalls hc n).mp hn).symm.trans ((h.toolOf_iff hcalls hc' n).mp hn')
    exact Subtype.ext (some.inj hsame)
  · rintro ⟨c, hc⟩ n hn
    obtain ⟨tool, u, -, hu, hargs, hsent⟩ := h.tool_of_place ((h.toolOf_iff hcalls hc n).mp hn)
    rw [ChatAnswer.argumentsAt, h.linked.numbered.find?_eq, hu]
    exact hsent.arguments.trans hargs
  · rintro ⟨c, hc⟩ hnone
    refine hsilent c hc fun hmem => ?_
    obtain ⟨n, hn⟩ := mem_iff_getElem?.mp hmem
    rw [(h.toolOf_iff hcalls hc n).mpr hn] at hnone
    cases hnone
  · intro n hfree
    have hnone : a.tools[n]? = none := by
      refine eq_none_iff_forall_ne_some.mpr fun u hu => ?_
      obtain ⟨hlt, -⟩ := List.getElem?_eq_some_iff.mp hu
      have hn := getElem?_eq_getElem (hlength ▸ hlt : n < opened.length)
      have hc := h.mem _ (mem_of_getElem? hn)
      exact hfree ⟨_, hc⟩ ((h.toolOf_iff hcalls hc n).mpr hn)
    rw [ChatAnswer.argumentsAt, h.linked.numbered.find?_eq, hnone]
    rfl
  · intro u hu
    obtain ⟨n, hn⟩ := mem_iff_getElem?.mp hu
    obtain ⟨hlt, -⟩ := List.getElem?_eq_some_iff.mp hn
    have hplace := getElem?_eq_getElem (hlength ▸ hlt : n < opened.length)
    have hc := h.mem _ (mem_of_getElem? hplace)
    exact ⟨_, hc, n, (h.toolOf_iff hcalls hc n).mpr hplace, h.linked.numbered n u hn⟩

theorem liveCalls_start (model : String) (includeUsage : Bool) (now : Int) :
    LiveCalls calls (fun _ => {}) []
      (newResponsesToChatStreamState model includeUsage now, {}) where
  forwarded :=
    { mem := nofun
      registered := registered_new model includeUsage now
      linked := linked_new _ model includeUsage now
      waiting := fun _ _ _ => rfl
      waits := nofun
      items := rfl
      found := nofun }
  openedIff := by simp
  known := nofun
  opens := by simp
  finalized := rfl
  outputs := nofun

end Once

/-- If every copy fits what came before, each call has the arguments that have come of it under one
tool index: all of them once a full copy came, and the deltas as long as none did. -/
theorem arguments_forwarded_once (calls : List StreamedCall) (events : List ResponsesStreamResponse)
    (terminal : ResponsesStreamResponse) (model : String) (includeUsage : Bool) (now : Int)
    (hcalls : OwnCalls calls) (hstreams : Streams calls events terminal)
    (hfits : CopiesFit calls events terminal) :
    ∃ s chunks, chatChunksOf (newResponsesToChatStreamState model includeUsage now)
      (events ++ [terminal]) =
        .ok (s, chunks) ∧
      ForwardedOnce calls (seenWith events terminal) s (answerOf chunks) := by
  have herror : ∀ event ∈ events ++ [terminal], streamError event = none := by
    intro event hevent
    rcases mem_append.mp hevent with hevent | hevent
    · rcases hstreams.describes event hevent with hnot | ⟨c, -, -, kind, hkind, -⟩
      · exact streamError_eq_none (.inl hnot.1)
      · exact streamError_eq_none (.inl (ResponsesEventType.isEnd_of_toolEvent hkind))
    · rw [mem_singleton.mp hevent]
      exact streamError_eq_none (.inr hstreams.ends)
  refine ⟨_, _, chatChunksOf_ok _ herror, ?_⟩
  obtain ⟨opened, hlive⟩ :=
    (liveCalls_start model includeUsage now).run hcalls hstreams.describes hfits.along
  have hrun :
      (final convertEvent (newResponsesToChatStreamState model includeUsage now)
        (events ++ [terminal]),
      answerOf
        (outputs convertEvent (newResponsesToChatStreamState model includeUsage now)
          (events ++ [terminal]))) =
      readChunks (convertEvent terminal) (exec (fun p event => readChunks (convertEvent event) p)
        (newResponsesToChatStreamState model includeUsage now, {}) events) :=
    (reads_outputs ChatAnswer.add _ {} (events ++ [terminal])).trans (exec_append _ events _)
  generalize exec (fun p event => readChunks (convertEvent event) p)
    (newResponsesToChatStreamState model includeUsage now, {}) events = p at hlive hrun
  rw [convertEvent_terminal hstreams.ends, terminalChunks, readChunks_seq, readChunks_seq] at hrun
  -- the metadata, what is listed, and the end
  have hmeta := hlive.toTrackedCalls.apart (Apart.of_metadata (terminalResponse terminal) p)
  generalize readChunks (.modify (applyResponseMetadata (terminalResponse terminal))) p =
    p at hmeta hrun
  obtain ⟨opened₁, hlisted⟩ := hmeta.run hcalls hstreams.lists hfits.atEnd
  have houtputs : readChunks (terminalOutputChunks (terminalResponse terminal)) p =
      exec (fun p out => readChunks (terminalOutput out) p) p (listed terminal) :=
    reads_outputs ChatAnswer.add p.1 p.2 (listed terminal)
  rw [houtputs] at hrun
  generalize exec (fun p out => readChunks (terminalOutput out) p) p (listed terminal) =
    p at hlisted hrun
  obtain ⟨opened₂, hend, hsilent⟩ :=
    hlisted.forwarded.ends hcalls hlisted.finalized (terminalResponse terminal)
  rw [← hrun] at hend
  exact hend.once hcalls hsilent

def weatherCall : StreamedCall where
  output := 0
  itemID := "fc_0"
  callID := "call_0"
  arguments := "\x7b\"q\":1\x7d"

def timeCall : StreamedCall where
  output := 1
  itemID := "fc_1"
  callID := "call_1"
  arguments := "\x7b\x7d"

/-- The item of a call, as it is done and listed. -/
def StreamedCall.item : ResponsesOutput :=
  { type := .functionCall, id := c.itemID, callId := c.callID, name := "f",
    arguments := .str c.arguments }

/-- One call that is announced, next to one whose arguments come first. -/
def interleavedEvents : List ResponsesStreamResponse :=
  [{ type := .functionArgsDelta, outputIndex := some 1, itemID := "fc_1", delta := "\x7b\x7d" },
   { type := .outputItemAdded, outputIndex := some 0
     item := some { weatherCall.item with arguments := .str "" } },
   { type := .functionArgsDelta, outputIndex := some 0, itemID := "fc_0", delta := "\x7b\"q\":" },
   { type := .functionArgsDone, outputIndex := some 1, itemID := "fc_1" },
   { type := .functionArgsDelta, outputIndex := some 0, itemID := "fc_0", delta := "1\x7d" },
   { type := .outputItemDone, outputIndex := some 0, item := some weatherCall.item }]

def bothListed : ResponsesStreamResponse :=
  { type := .completed
    response := some { status := .str "completed", output := [weatherCall.item, timeCall.item] } }

theorem arguments_forwarded_once_interleaved :
    (∀ c ∈ [weatherCall, timeCall], (seenWith interleavedEvents bothListed c).expected c =
      c.arguments) ∧
    ∃ s chunks, chatChunksOf (newResponsesToChatStreamState "gpt" false 0)
      (interleavedEvents ++ [bothListed]) =
        .ok (s, chunks) ∧
      ForwardedOnce [weatherCall, timeCall] (seenWith interleavedEvents bothListed) s
        (answerOf chunks) := by
  refine ⟨by decide +kernel, arguments_forwarded_once _ _ _ "gpt" false 0 ⟨by decide, by decide⟩
    ⟨?_, .inl rfl, ?_⟩ ⟨?_, ?_⟩⟩
  · decide +kernel
  · decide +kernel
  · decide +kernel
  · decide +kernel

/-- The arguments come as one delta, and the item is never announced. -/
def silentDelta : List ResponsesStreamResponse :=
  [{ type := .functionArgsDelta, outputIndex := some 0, itemID := "fc_0",
     delta := weatherCall.arguments }]

def oneListed : ResponsesStreamResponse :=
  { type := .completed
    response := some { status := .str "completed", output := [weatherCall.item] } }

/-- The arguments are sent under two tool indices: for the item that is listed, and for the delta
that still waits. -/
theorem delta_and_listing : OwnCalls [weatherCall] ∧ Streams [weatherCall] silentDelta oneListed ∧
    (seenWith silentDelta oneListed weatherCall).received = weatherCall.arguments ∧
    ∃ s chunks, chatChunksOf (newResponsesToChatStreamState "gpt" false 0)
      (silentDelta ++ [oneListed]) =
        .ok (s, chunks) ∧
      (answerOf chunks).tools.map (fun u => (u.index, u.arguments)) =
        [(0, weatherCall.arguments), (1, weatherCall.arguments)] ∧
      ¬ ForwardedOnce [weatherCall] (seenWith silentDelta oneListed) s (answerOf chunks) := by
  have htools : (answerOf (outputs convertEvent (newResponsesToChatStreamState "gpt" false 0)
      (silentDelta ++ [oneListed]))).tools.map (fun u => (u.index, u.arguments)) =
      [(0, weatherCall.arguments), (1, weatherCall.arguments)] := by decide +kernel
  refine ⟨⟨by decide, by decide⟩, ⟨by decide +kernel, .inl rfl, by decide +kernel⟩,
    by decide +kernel, _, _, chatChunksOf_ok _ (by decide), htools, fun honce => ?_⟩
  have howned : ∀ i : Int, (i, weatherCall.arguments) ∈
      [((0 : Int), weatherCall.arguments), (1, weatherCall.arguments)] →
      ∃ n : Nat, (final convertEvent (newResponsesToChatStreamState "gpt" false 0)
        (silentDelta ++ [oneListed])).toolOf weatherCall.toCallNames = some n ∧ i = n := by
    intro i hi
    rw [← htools] at hi
    obtain ⟨u, hu, heq⟩ := mem_map.mp hi
    obtain ⟨c, hc, n, hn, hindex⟩ := honce.owned u hu
    rw [mem_singleton.mp hc] at hn
    exact ⟨n, hn, (congrArg Prod.fst heq).symm.trans hindex⟩
  -- both indices would have to be that of the one call
  obtain ⟨n, hn, hzero⟩ := howned 0 (by simp)
  obtain ⟨m, hm, hone⟩ := howned 1 (by simp)
  have hsame : n = m := some.inj (hn.symm.trans hm)
  omega
