/-
Under which names the stream converter knows its tool calls.

A tool call is found by its key, its output index, its item id or its call id.  Each of the
maps leads to a key and from there to the tool call, unless the key is unknown.

* `NoDangling` — the maps lead to known keys only;
* `NamesBound` — what is found under which name, after names of one tool call were given;
* `toolItem_met`, `flushPendingTool_met` — what an item and the end of arguments do to the tool
  calls.
-/
import AcuGateway.ResponsesToChat

open List ResponsesStreamTool Dict Option
open Text (trimSpace)
open ResponsesToChatStreamState

namespace ResponsesToChatStreamState

variable (s : ResponsesToChatStreamState)

def toolAt (key : ToolKey) : Option Nat := s.toolByKey.lookup key

def toolOfOutput (i : Int) : Option Nat := (s.outputIndexToKey.lookup i).bind s.toolAt

def toolOfItem (itemID : String) : Option Nat := (s.itemIDToKey.lookup itemID).bind s.toolAt

def toolOfCall (callID : String) : Option Nat := (s.callIDToKey.lookup callID).bind s.toolAt

/-- A name of a tool call: a key, or what one of the maps leads from. -/
inductive ToolName
  | key (key : ToolKey)
  | output (i : Int)
  | item (itemID : String)
  | call (callID : String)

/-- The tool call that is found under a name. -/
def named : ToolName → Option Nat
  | .key key => s.toolAt key
  | .output i => s.toolOfOutput i
  | .item itemID => s.toolOfItem itemID
  | .call callID => s.toolOfCall callID

/-- The maps lead to known keys. -/
structure NoDangling (s : ResponsesToChatStreamState) : Prop where
  output : ∀ i key, s.outputIndexToKey.lookup i = some key → ∃ n, s.toolAt key = some n
  item : ∀ itemID key, s.itemIDToKey.lookup itemID = some key → ∃ n, s.toolAt key = some n
  call : ∀ callID key, s.callIDToKey.lookup callID = some key → ∃ n, s.toolAt key = some n

/-- What the state knows of the names of tool calls, and the arguments that wait. -/
def nameMaps : ResponsesToChatStreamState :=
  { newResponsesToChatStreamState "" false 0 with
    toolByKey := s.toolByKey
    outputIndexToKey := s.outputIndexToKey
    itemIDToKey := s.itemIDToKey
    callIDToKey := s.callIDToKey
    pendingArgsByOutputIndex := s.pendingArgsByOutputIndex
    pendingArgsByItemID := s.pendingArgsByItemID }

/-- The state without what it knows of tool calls. -/
def flags : ResponsesToChatStreamState :=
  { s with
    tools := []
    toolByKey := ∅
    outputIndexToKey := ∅
    itemIDToKey := ∅
    callIDToKey := ∅
    pendingArgsByOutputIndex := ∅
    pendingArgsByItemID := ∅ }

end ResponsesToChatStreamState

variable (event : ResponsesStreamResponse)

/-- The item id that an event gives, if it gives one. -/
def eventItem : Option String :=
  if responseStreamEventItemID event = "" then none else some (responseStreamEventItemID event)

variable (item : ResponsesOutput)

/-- The call id of an item, if it has one. -/
def itemCall : Option String :=
  if trimSpace item.callId = "" then none else some (trimSpace item.callId)

/-- The arguments that wait for a tool call under the names that an event gives. -/
def waitingFor (s : ResponsesToChatStreamState) : String :=
  s.pendingArgsByOutputIndex.text event.outputIndex ++ s.pendingArgsByItemID.text (eventItem event)

variable {s s' : ResponsesToChatStreamState} {key : ToolKey} {n : Nat} {outputIndex : Option Int}
  {itemID callID : Option String}

theorem waitingFor_eq_empty (houtputs : s.pendingArgsByOutputIndex = ∅)
    (hitems : s.pendingArgsByItemID = ∅) : waitingFor event s = "" := by
  simp [waitingFor, houtputs, hitems]

/-- The tool call after an event with its item. -/
def ResponsesStreamTool.meet (waiting : String) (tool : ResponsesStreamTool) :
    ResponsesStreamTool :=
  { tool with
    arguments := tool.arguments ++ waiting
    itemID := (eventItem event).getD tool.itemID
    callID := (itemCall item).getD (if tool.callID = "" then trimSpace item.id else tool.callID)
    name := if trimSpace item.name ≠ "" then trimSpace item.name else tool.name }

/-! ### Binding -/

theorem bindOutputIndex_eq : bindOutputIndex outputIndex key n s =
      { s.modifyTool n (more (s.pendingArgsByOutputIndex.text outputIndex)) with
        outputIndexToKey := s.outputIndexToKey.bindTo outputIndex key
        pendingArgsByOutputIndex := s.pendingArgsByOutputIndex.takeText outputIndex } := by
  cases outputIndex with
  | none => simp [bindOutputIndex, bindTo, takeText, Dict.text, modifyTool]
  | some i =>
    cases hpending : s.pendingArgsByOutputIndex.lookup i with
    | none => simp [bindOutputIndex, hpending, bindTo, takeText, Dict.text, modifyTool]
    | some pending =>
      by_cases hempty : pending = "" <;>
        simp [bindOutputIndex, hpending, hempty, bindTo, takeText, Dict.text, modifyTool]

theorem bindItemID_eq : bindItemID (responseStreamEventItemID event) key n s =
      { s.modifyTool n (fun tool =>
          { tool with
            arguments := tool.arguments ++ s.pendingArgsByItemID.text (eventItem event)
            itemID := (eventItem event).getD tool.itemID }) with
        itemIDToKey := s.itemIDToKey.bindTo (eventItem event) key
        pendingArgsByItemID := s.pendingArgsByItemID.takeText (eventItem event) } := by
  by_cases hid : responseStreamEventItemID event = ""
  · simp only [bindItemID, eventItem, hid, if_true, bindTo, takeText, Dict.text, modifyTool,
      bind_none, getD_none, String.append_empty]
    change s = { s with tools := s.tools.modify n id }
    rw [modify_id]
  · cases hpending : s.pendingArgsByItemID.lookup (responseStreamEventItemID event) with
    | none =>
      simp [bindItemID, eventItem, hid, hpending, bindTo, takeText, Dict.text, modifyTool]
    | some pending =>
      by_cases hempty : pending = ""
      · simp [bindItemID, eventItem, hid, hpending, hempty, bindTo, takeText, Dict.text, modifyTool]
      · simp [bindItemID, eventItem, hid, hpending, hempty, bindTo, takeText, Dict.text, modifyTool,
          modify_modify_eq]
        rfl

theorem bindCallID_eq : bindCallID item key n s =
      { s.modifyTool n (fun tool =>
          { tool with
            callID := (itemCall item).getD
              (if tool.callID = "" then trimSpace item.id else tool.callID) }) with
        callIDToKey := s.callIDToKey.bindTo (itemCall item) key } := by
  by_cases hid : trimSpace item.callId = ""
  · simp [bindCallID, itemCall, hid, bindTo, modifyTool]
  · simp [bindCallID, itemCall, hid, bindTo, modifyTool]

theorem bindName_eq : bindName item n s = s.modifyTool n (fun tool =>
      { tool with name := if trimSpace item.name ≠ "" then trimSpace item.name
        else tool.name }) := by
  by_cases hname : trimSpace item.name = ""
  · simp only [bindName, hname, ne_eq, not_true_eq_false, if_false, modifyTool]
    change s = { s with tools := s.tools.modify n id }
    rw [modify_id]
  · simp [bindName, hname]

theorem bindTool_eq : bindTool event item key n s =
      { s.modifyTool n (meet event item (waitingFor event s)) with
        outputIndexToKey := s.outputIndexToKey.bindTo event.outputIndex key
        itemIDToKey := s.itemIDToKey.bindTo (eventItem event) key
        callIDToKey := s.callIDToKey.bindTo (itemCall item) key
        pendingArgsByOutputIndex := s.pendingArgsByOutputIndex.takeText event.outputIndex
        pendingArgsByItemID := s.pendingArgsByItemID.takeText (eventItem event) } := by
  -- the four updates of the tool are one
  have htools : ∀ l : List ResponsesStreamTool,
      ((((l.modify n (more (s.pendingArgsByOutputIndex.text event.outputIndex))).modify n
        fun tool =>
          { tool with
            arguments := tool.arguments ++ s.pendingArgsByItemID.text (eventItem event)
            itemID := (eventItem event).getD tool.itemID }).modify n fun tool =>
          { tool with
            callID := (itemCall item).getD
              (if tool.callID = "" then trimSpace item.id else tool.callID) }).modify n fun tool =>
          { tool with name := if trimSpace item.name ≠ "" then trimSpace item.name
            else tool.name }) =
      l.modify n (meet event item (waitingFor event s)) := by
    intro l
    simp only [modify_modify_eq]
    congr 1
    funext tool
    simp [meet, more, waitingFor, String.append_assoc]
  rw [bindTool, bindOutputIndex_eq, bindItemID_eq, bindCallID_eq, bindName_eq]
  simp only [modifyTool, htools]

/-! ### Names -/

/-- The names that an event gives. -/
def GivenName (outputIndex : Option Int) (itemID callID : Option String) (key : ToolKey) :
    ToolName → Prop
  | .key key' => key' = key
  | .output i => outputIndex = some i
  | .item itemID' => itemID = some itemID'
  | .call callID' => callID = some callID'

/-- `s'` knows tool call `n` under the names given, and otherwise what `s` knows. -/
structure NamesBound (outputIndex : Option Int) (itemID callID : Option String) (key : ToolKey)
    (n : Nat) (s s' : ResponsesToChatStreamState) : Prop where
  given : ∀ name, GivenName outputIndex itemID callID key name → s'.named name = some n
  other : ∀ name, ¬ GivenName outputIndex itemID callID key name → s'.named name = s.named name
  noDangling : s'.NoDangling

/-- A map whose entries lead to known keys, after `name` was bound to `key`. -/
theorem bindTo_resolves {κ : Type} [DecidableEq κ] {d d' : Dict κ ToolKey} {name : Option κ}
    (hd : ∀ k key', d.lookup k = some key' → ∃ m, s.toolAt key' = some m)
    (hfree : s.toolAt key = none ∨ s.toolAt key = some n)
    (hkey : ∀ key', s'.toolAt key' = if key' = key then some n else s.toolAt key')
    (hd' : d' = d.bindTo name key) (k : κ) :
    (name = some k → (d'.lookup k).bind s'.toolAt = some n) ∧
      (¬ name = some k → (d'.lookup k).bind s'.toolAt = (d.lookup k).bind s.toolAt) ∧
      ∀ key', d'.lookup k = some key' → ∃ m, s'.toolAt key' = some m := by
  subst hd'
  rw [lookup_bindTo]
  by_cases hname : name = some k
  · simp [hname, hkey]
  · simp only [hname, if_false]
    cases hk : d.lookup k with
    | none => simp
    | some key' =>
      obtain ⟨m, hm⟩ := hd k key' hk
      by_cases hkey' : key' = key
      · subst hkey'
        have hmn : m = n := by simpa [hm] using hfree
        simp [hkey, hm, hmn]
      · simp [hkey, hkey', hm]

theorem namesBound_of_maps (hd : s.NoDangling) (hfree : s.toolAt key = none ∨ s.toolAt key = some n)
    (hkey : ∀ key', s'.toolAt key' = if key' = key then some n else s.toolAt key')
    (houtput : s'.outputIndexToKey = s.outputIndexToKey.bindTo outputIndex key)
    (hitem : s'.itemIDToKey = s.itemIDToKey.bindTo itemID key)
    (hcall : s'.callIDToKey = s.callIDToKey.bindTo callID key) :
    NamesBound outputIndex itemID callID key n s s' where
  given
    | .key key', h => (hkey key').trans (if_pos h)
    | .output i, h => (bindTo_resolves hd.output hfree hkey houtput i).1 h
    | .item itemID, h => (bindTo_resolves hd.item hfree hkey hitem itemID).1 h
    | .call callID, h => (bindTo_resolves hd.call hfree hkey hcall callID).1 h
  other
    | .key key', h => (hkey key').trans (if_neg h)
    | .output i, h => (bindTo_resolves hd.output hfree hkey houtput i).2.1 h
    | .item itemID, h => (bindTo_resolves hd.item hfree hkey hitem itemID).2.1 h
    | .call callID, h => (bindTo_resolves hd.call hfree hkey hcall callID).2.1 h
  noDangling :=
    ⟨fun i => (bindTo_resolves hd.output hfree hkey houtput i).2.2,
      fun id => (bindTo_resolves hd.item hfree hkey hitem id).2.2,
      fun id => (bindTo_resolves hd.call hfree hkey hcall id).2.2⟩

/-- The tool call that an item belongs to. -/
def toolFor (key : ToolKey) (s : ResponsesToChatStreamState) : Option Nat :=
  s.toolAt key <|> ((eventItem event).bind s.toolOfItem <|> (itemCall item).bind s.toolOfCall)

variable {event item}

/-- It is found under one of the names given. -/
theorem exists_name_of_toolFor (h : toolFor event item key s = some n) :
    ∃ name, GivenName event.outputIndex (eventItem event) (itemCall item) key name ∧
      s.named name = some n := by
  rcases (orElse_eq_some _ _ _).mp h with hat | ⟨-, hnames⟩
  · exact ⟨.key key, rfl, hat⟩
  rcases (orElse_eq_some _ _ _).mp hnames with hitem | ⟨-, hcall⟩
  · obtain ⟨itemID, hid, hn⟩ := bind_eq_some_iff.mp hitem
    exact ⟨.item itemID, hid, hn⟩
  · obtain ⟨callID, hid, hn⟩ := bind_eq_some_iff.mp hcall
    exact ⟨.call callID, hid, hn⟩

theorem knownTool_eq : knownTool event item s =
      ((eventItem event).bind s.toolOfItem <|> (itemCall item).bind s.toolOfCall) := by
  simp only [knownTool, eventItem, itemCall, ne_eq, ite_not]
  by_cases hitem : responseStreamEventItemID event = "" <;>
    by_cases hcall : trimSpace item.callId = "" <;>
    simp [hitem, hcall, toolOfItem, toolOfCall] <;> rfl

/-- An event without an item finds its tool call by the output index or by the item id. -/
theorem findToolForEvent_eq (hd : s.NoDangling) (hitem : event.item = none) :
    findToolForEvent event s =
      (event.outputIndex.bind s.toolOfOutput <|> (eventItem event).bind s.toolOfItem) := by
  have hitems : (eventItem event).bind s.toolOfItem =
      (if trimSpace event.itemID ≠ "" then s.itemIDToKey.lookup (trimSpace event.itemID)
        else none).bind
        s.toolAt := by
    have hid : responseStreamEventItemID event = trimSpace event.itemID := by
      simp [responseStreamEventItemID, hitem]
    by_cases hempty : trimSpace event.itemID = "" <;> simp [eventItem, hid, hempty, toolOfItem]
  have houtputs : event.outputIndex.bind s.toolOfOutput =
      (event.outputIndex.bind s.outputIndexToKey.lookup).bind s.toolAt := by
    cases event.outputIndex <;> rfl
  rw [findToolForEvent, hitems, houtputs]
  -- an output index that is bound leads to a tool
  cases houtput : event.outputIndex.bind s.outputIndexToKey.lookup with
  | some key =>
    obtain ⟨i, -, hkey⟩ := bind_eq_some_iff.mp houtput
    obtain ⟨n, hn⟩ := hd.output i key hkey
    have hn' : s.toolByKey.lookup key = some n := hn
    simp [hn, hn']
  | none =>
    generalize (if trimSpace event.itemID ≠ "" then s.itemIDToKey.lookup (trimSpace event.itemID)
      else none) = key
    cases key <;> simp [hitem, toolAt]

/-- `opened` has tool call `n` under `key`: one that was `found`, or a new one. -/
structure ToolOpened (found : Option Nat) (callID : String) (key : ToolKey) (n : Nat)
    (s opened : ResponsesToChatStreamState) : Prop where
  tools : (found = some n ∧ opened.tools = s.tools) ∨ (found = none ∧ n = s.tools.length ∧
      opened.tools = s.tools ++ [{ key, callID, index := s.tools.length }])
  free : s.toolAt key = none ∨ s.toolAt key = some n
  keys : ∀ key', opened.toolAt key' = if key' = key then some n else s.toolAt key'
  rest : opened = { s with tools := opened.tools, toolByKey := opened.toolByKey }

theorem opened_known (h : s.toolAt key = some n) (callID : String) :
    ToolOpened (some n) callID key n s s where
  tools := .inl ⟨rfl, rfl⟩
  free := .inr h
  keys key' := by
    by_cases hkey : key' = key
    · rw [if_pos hkey, hkey, h]
    · rw [if_neg hkey]
  rest := rfl

theorem opened_new (h : s.toolAt key = none) (callID : String) :
    ToolOpened none callID key (s.newTool key callID).2 s (s.newTool key callID).1 where
  tools := .inr ⟨rfl, rfl, rfl⟩
  free := .inl h
  keys _ := lookup_insert_of ..
  rest := rfl

theorem openToolAt_opened (key : ToolKey) (callID : String) (s : ResponsesToChatStreamState) :
    ToolOpened (s.toolAt key) callID key (openToolAt key callID s).2 s
      (openToolAt key callID s).1 := by
  unfold openToolAt
  cases hkey : s.toolByKey.lookup key with
  | some n =>
    rw [show s.toolAt key = some n from hkey]
    exact opened_known hkey callID
  | none =>
    rw [show s.toolAt key = none from hkey]
    exact opened_new hkey callID

theorem openTool_opened (event : ResponsesStreamResponse) (item : ResponsesOutput) (key : ToolKey)
    (s : ResponsesToChatStreamState) :
    ToolOpened (toolFor event item key s) "" key (openTool event item key s).2 s
      (openTool event item key s).1 := by
  unfold openTool
  cases hkey : s.toolByKey.lookup key with
  | some n =>
    rw [show toolFor event item key s = some n by simp [toolFor, toolAt, hkey]]
    exact opened_known hkey ""
  | none =>
    have hfor : toolFor event item key s = knownTool event item s := by
      simp [toolFor, toolAt, hkey, knownTool_eq]
    rw [hfor]
    cases knownTool event item s with
    | some n => exact ⟨.inl ⟨rfl, rfl⟩, .inl hkey, fun _ => lookup_insert_of .., rfl⟩
    | none => exact opened_new hkey ""

/-! ### Events and their tool calls -/

/-- From `s` to `s'`, on the way to tool call `n`: the tool call changes by `f`, after it was opened
if it is new, and is known under the names given. -/
structure ToolMet (found : Option Nat) (f : ResponsesStreamTool → ResponsesStreamTool)
    (callID₀ : String)
    (outputIndex : Option Int) (itemID callID : Option String) (key : ToolKey) (n : Nat)
    (s s' : ResponsesToChatStreamState) : Prop where
  tools : (found = some n ∧ s'.tools = s.tools.modify n f) ∨ (found = none ∧ n = s.tools.length ∧
      s'.tools = s.tools ++ [f { key, callID := callID₀, index := s.tools.length }])
  names : NamesBound outputIndex itemID callID key n s s'
  flags : s'.flags = s.flags
  outputs : s'.pendingArgsByOutputIndex = s.pendingArgsByOutputIndex.takeText outputIndex
  items : s'.pendingArgsByItemID = s.pendingArgsByItemID.takeText itemID

namespace ToolMet

variable {found : Option Nat} {f : ResponsesStreamTool → ResponsesStreamTool} {callID₀ : String}
  (h : ToolMet found f callID₀ outputIndex itemID callID key n s s')

include h

theorem known {m : Nat} (hm : found = some m) : m = n ∧ s'.tools = s.tools.modify n f := by
  rcases h.tools with ⟨hn, htools⟩ | ⟨hnone, -⟩
  · exact ⟨some.inj (hm.symm.trans hn), htools⟩
  · rw [hm] at hnone
    cases hnone

theorem new (hnone : found = none) :
    n = s.tools.length ∧ s'.tools =
      s.tools ++ [f { key, callID := callID₀, index := s.tools.length }] := by
  rcases h.tools with ⟨hn, -⟩ | ⟨-, hn⟩
  · rw [hnone] at hn
    cases hn
  · exact hn

theorem nothing_waits (houtputs : s.pendingArgsByOutputIndex = ∅)
    (hitems : s.pendingArgsByItemID = ∅) :
    s'.pendingArgsByOutputIndex = ∅ ∧ s'.pendingArgsByItemID = ∅ := by
  rw [h.outputs, h.items, houtputs, hitems, takeText_empty, takeText_empty]
  exact ⟨rfl, rfl⟩

end ToolMet

theorem modify_concat {α : Type} (l : List α) (x : α) (f : α → α) :
    (l ++ [x]).modify l.length f = l ++ [f x] := by
  induction l with
  | nil => rfl
  | cons y l ih => simp [ih]

theorem ToolOpened.met {found : Option Nat} {callID₀ : String}
    {opened : ResponsesToChatStreamState} (h : ToolOpened found callID₀ key n s opened)
    (hd : s.NoDangling) {f : ResponsesStreamTool → ResponsesStreamTool}
    (hs' : s' = { opened.modifyTool n f with
      outputIndexToKey := opened.outputIndexToKey.bindTo outputIndex key
      itemIDToKey := opened.itemIDToKey.bindTo itemID key
      callIDToKey := opened.callIDToKey.bindTo callID key
      pendingArgsByOutputIndex := opened.pendingArgsByOutputIndex.takeText outputIndex
      pendingArgsByItemID := opened.pendingArgsByItemID.takeText itemID }) :
    ToolMet found f callID₀ outputIndex itemID callID key n s s' := by
  have hrest := h.rest
  subst hs'
  refine ⟨?_, namesBound_of_maps hd h.free h.keys ?_ ?_ ?_, ?_, ?_, ?_⟩
  · rcases h.tools with ⟨hfound, htools⟩ | ⟨hfound, hn, htools⟩
    · exact .inl ⟨hfound, by simp only [modifyTool, htools]⟩
    · refine .inr ⟨hfound, hn, ?_⟩
      simp only [modifyTool, htools, hn, modify_concat]
  · rw [hrest]
  · rw [hrest]
  · rw [hrest]
  · rw [hrest]
    rfl
  · rw [hrest]
  · rw [hrest]

theorem toolItem_met (hd : s.NoDangling)
    (hkey : (keyForEvent event <|> fallbackToolKey item.id item.callId event.outputIndex) =
      some key) :
    ∃ n s', toolItem event item s = toolDelta n "" s' ∧ ToolMet (toolFor event item key s)
        (fun tool => (tool.meet event item (waitingFor event s)).full item) ""
        event.outputIndex (eventItem event) (itemCall item) key n s s' := by
  have hopen := openTool_opened event item key s
  have hitem : toolItem event item s = toolDelta (openTool event item key s).2 ""
      ((bindTool event item key (openTool event item key s).2
        (openTool event item key s).1).modifyTool
        (openTool event item key s).2 (full item)) := by
    simp [toolItem, ensureToolForEvent, hkey]
  rw [hitem]
  generalize (openTool event item key s).2 = n at hopen ⊢
  generalize (openTool event item key s).1 = opened at hopen ⊢
  have hwaiting : waitingFor event opened = waitingFor event s := by rw [hopen.rest]; rfl
  refine ⟨n, _, rfl, hopen.met hd ?_⟩
  rw [bindTool_eq, hwaiting]
  simp only [modifyTool, modify_modify_eq]
  rfl

/-- Without an item, the tool call is the one stored under the output index or the item id. -/
theorem flushPendingTool_met (hd : s.NoDangling)
    (hfind : findToolForEvent event s = none) (hitem : event.item = none)
    (hkey : keyForEvent event = some key) :
    ∃ n s', flushPendingTool event s = toolDelta n "" s' ∧ ToolMet (s.toolAt key) (fun tool =>
          { tool.more (waitingFor event s) with itemID := (eventItem event).getD tool.itemID })
        (fallbackCallID event) event.outputIndex (eventItem event) none key n s s' := by
  have hopen := openToolAt_opened key (fallbackCallID event) s
  have hflush : flushPendingTool event s = toolDelta (openToolAt key (fallbackCallID event) s).2 ""
        (bindItemID (responseStreamEventItemID event) key
          (openToolAt key (fallbackCallID event) s).2
          (bindOutputIndex event.outputIndex key (openToolAt key (fallbackCallID event) s).2
            (openToolAt key (fallbackCallID event) s).1)) := by
    -- the key comes from the output index, or else from the item
    cases houtput : event.outputIndex with
    | none =>
      have hkey' : eventItemKey event = some key := by
        simpa [keyForEvent, houtput, hitem] using hkey
      simp [flushPendingTool, hfind, ensureFallbackToolForEvent, houtput, hkey']
    | some i =>
      have hkey' : ToolKey.output i = key := by simpa [keyForEvent, houtput] using hkey
      simp [flushPendingTool, hfind, ensureFallbackToolForEvent, houtput, hkey']
  rw [hflush]
  generalize (openToolAt key (fallbackCallID event) s).2 = n at hopen ⊢
  generalize (openToolAt key (fallbackCallID event) s).1 = opened at hopen ⊢
  have hwaiting : waitingFor event opened = waitingFor event s := by rw [hopen.rest]; rfl
  refine ⟨n, _, rfl, hopen.met hd ?_⟩
  rw [bindOutputIndex_eq, bindItemID_eq, ← hwaiting]
  simp only [modifyTool, modify_modify_eq, waitingFor]
  congr 2
  funext tool
  simp [more, String.append_assoc]
