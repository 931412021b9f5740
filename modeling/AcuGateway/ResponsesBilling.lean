/-
What a Responses request is billed for, streamed or not.

One handler reads the whole response; the other one reads its events, counts tool calls and
images as they are done, and takes the usage from the last event.

* `oaiResponsesHandler`, `OaiResponsesStream.step` — the two handlers, as far as they bill;
* `SharesImageName`, `distinctImages` — the images, without those that share a name with an
  earlier one;
* `streamed_billing_agrees_iff` — a stream is billed as its response exactly if the
  response has no error, the images are as many in the order of the stream as in that of
  the response, and, where the stream ends with `response.incomplete`, what is then
  estimated is what the response reports;
* `incomplete_stream_estimated` — a response that was cut off.
-/
import AcuGateway.Lib.Dict
import AcuGateway.Lib.Distinct
import AcuGateway.Lib.Run
import AcuGateway.ResponsesMessages

open List Run InputTokenDetails Distinct
open Text (trimSpace lowerIs)

/-! ### Responses, as far as they are billed -/

inductive BilledOutputType
  | webSearchCall
  | fileSearchCall
  | functionCall
  | imageGenerationCall
  | other
deriving DecidableEq

structure BilledOutput where
  type : BilledOutputType
  id : String := ""
  callId : String := ""
  name : String := ""
  status : String := ""
  result : String := ""

structure BilledResponse where
  /-- the type of its error, empty if there is none -/
  errorType : String := ""
  status : RawMessage := .absent
  output : List BilledOutput := []
  usage : Option Usage := none

/-- What the handlers read besides the response. -/
structure RelayEnv where
  /-- the tool has a price for the model -/
  priced : String → Bool
  /-- the hash of an image -/
  digest : String → String
  estimatePromptTokens : Int
  countTextToken : String → Int

/-! ### Tool calls -/

/-- How often each tool was called. -/
abbrev CallCounts := Dict String Int

def isReservedBillableToolName (name : String) : Bool :=
  name ∈ ["web_search_preview", "web_search", "file_search", "google_search", "image_generation"]

def resolveWebSearchToolName (tools : CallCounts) : String :=
  if (tools.lookup "web_search_preview").isSome then "web_search_preview"
  else if (tools.lookup "web_search").isSome then "web_search"
  else "web_search_preview"

def incrementBillableToolCall (name : String) (tools : CallCounts) : CallCounts :=
  tools.insert name ((tools.lookup name).getD 0 + 1)

variable (env : RelayEnv)

def countBillableToolCall (tools : CallCounts) (item : BilledOutput) : CallCounts :=
  match item.type with
  | .webSearchCall => incrementBillableToolCall (resolveWebSearchToolName tools) tools
  | .fileSearchCall => incrementBillableToolCall "file_search" tools
  | .functionCall =>
    if item.name = "" ∨ isReservedBillableToolName item.name ∨ env.priced item.name = false then
      tools
    else incrementBillableToolCall item.name tools
  | _ => tools

/-! ### Images -/

/-- A name under which an image is known.  In the source they are strings with different
beginnings. -/
inductive ImageAlias
  | id (id : String)
  | call (callId : String)
  | index (outputIndex : Int)
  | result (digest : String)
deriving DecidableEq

structure ImageGenerationCallCounter where
  seen : List ImageAlias := []
  count : Int := 0

variable (item : BilledOutput)

/-- A finished image. -/
def BilledOutput.isImage : Bool :=
  item.type = .imageGenerationCall && trimSpace item.result ≠ "" &&
  !(["failed", "cancelled", "canceled", "incomplete", "partial"].any
    (lowerIs (trimSpace item.status)))

/-- The names of an image, wherever it stands. -/
def BilledOutput.aliases (env : RelayEnv) : List ImageAlias :=
  (if item.id ≠ "" then [.id item.id] else []) ++
    (if item.callId ≠ "" then [.call item.callId] else []) ++ [.result (env.digest item.result)]

/-- The place of an output, if it is known. -/
def indexAlias (outputIndex : Option Int) : List ImageAlias :=
  (outputIndex.toList.filter (0 ≤ ·)).map .index

variable (c : ImageGenerationCallCounter)

namespace ImageGenerationCallCounter

def observe (item : BilledOutput) (outputIndex : Option Int) : ImageGenerationCallCounter :=
  let aliases := item.aliases env ++ indexAlias outputIndex
  if item.isImage = false ∨ ∃ name ∈ aliases, name ∈ c.seen then c
  else { seen := aliases ++ c.seen, count := c.count + 1 }

def commit (tools : CallCounts) : CallCounts := tools.insert "image_generation" (min c.count 5)

def observeAll (items : List (BilledOutput × Option Int)) : ImageGenerationCallCounter :=
  items.foldl (fun c item => c.observe env item.1 item.2) c

end ImageGenerationCallCounter

open ImageGenerationCallCounter

def isNonBillableResponsesStatus : RawMessage → Bool
  | .str status =>
    ["failed", "cancelled", "canceled", "incomplete"].any (lowerIs (trimSpace status))
  | _ => false

variable (response : BilledResponse)

/-- The outputs with their places. -/
def BilledResponse.places : List (BilledOutput × Option Int) :=
  response.output.zipIdx.map fun p => (p.1, some (p.2 : Int))

/-! ### The whole response -/

def oaiResponsesUsage : Option Usage → Usage
  | none => {}
  | some usage =>
    { promptTokens := usage.inputTokens
      completionTokens := usage.outputTokens
      totalTokens := usage.totalTokens
      promptTokensDetails :=
        { cachedTokens := (usage.inputTokensDetails.map cachedTokens).getD 0
          cacheWriteTokens := (usage.inputTokensDetails.map cacheWriteTokens).getD 0 } }

/-- The images of a whole response. -/
def BilledResponse.images : ImageGenerationCallCounter :=
  if isNonBillableResponsesStatus response.status then {}
  else observeAll env {} response.places

def oaiResponsesHandler (tools : CallCounts) (response : BilledResponse) :
    Except String (Usage × CallCounts) :=
  if response.errorType ≠ "" then .error response.errorType
  else .ok (oaiResponsesUsage response.usage,
    (response.images env).commit (response.output.foldl (countBillableToolCall env) tools))

/-! ### The stream -/

inductive BilledEventType
  | completed
  | done
  | failed
  | incomplete
  | cancelled
  | canceled
  | outputTextDelta
  | outputItemDone
  | other
deriving DecidableEq

structure BilledEvent where
  type : BilledEventType
  response : Option BilledResponse := none
  delta : String := ""
  item : Option BilledOutput := none
  outputIndex : Option Int := none

structure OaiResponsesStream where
  usage : Usage := {}
  text : String := ""
  imageCounter : ImageGenerationCallCounter := {}
  imageCommitted : Bool := false
  tools : CallCounts

namespace OaiResponsesStream

/-- Take over what the last event reports. -/
def takeUsage (usage reported : Usage) : Usage :=
  { usage with
    promptTokens := if reported.inputTokens ≠ 0 then reported.inputTokens else usage.promptTokens
    completionTokens := if reported.outputTokens ≠ 0 then reported.outputTokens
      else usage.completionTokens
    totalTokens := if reported.totalTokens ≠ 0 then reported.totalTokens else usage.totalTokens
    promptTokensDetails :=
      match reported.inputTokensDetails with
      | some details =>
        { usage.promptTokensDetails with
          cachedTokens := details.cachedTokens
          cacheWriteTokens := details.cacheWriteTokens }
      | none => usage.promptTokensDetails }

/-- Images are counted once. -/
def commitImages (counter : ImageGenerationCallCounter) (s : OaiResponsesStream) :
    OaiResponsesStream :=
  if s.imageCommitted then s
  else { s with imageCounter := counter, tools := counter.commit s.tools, imageCommitted := true }

def takeResponse (response : BilledResponse) (s : OaiResponsesStream) : OaiResponsesStream :=
  let s := { s with usage := (response.usage.map (takeUsage s.usage)).getD s.usage }
  s.commitImages (if isNonBillableResponsesStatus response.status then {}
    else s.imageCounter.observeAll env response.places)

def takeItem (item : BilledOutput) (outputIndex : Option Int) (s : OaiResponsesStream) :
    OaiResponsesStream :=
  { s with
    tools := countBillableToolCall env s.tools item
    imageCounter := if s.imageCommitted then s.imageCounter
      else s.imageCounter.observe env item outputIndex }

variable (s : OaiResponsesStream)

def step (event : BilledEvent) : OaiResponsesStream :=
  match event.type with
  | .completed | .done =>
    match event.response with
    | some response => s.takeResponse env response
    | none => s.commitImages s.imageCounter
  | .failed | .incomplete | .cancelled | .canceled => s.commitImages {}
  | .outputTextDelta => { s with text := s.text ++ event.delta }
  | .outputItemDone =>
    match event.item with
    | some item => s.takeItem env item event.outputIndex
    | none => s
  | .other => s

/-- The usage at the end of the stream; what was not reported is estimated. -/
def finalUsage : Usage :=
  let completionTokens :=
    if s.usage.completionTokens = 0 ∧ s.text ≠ "" then env.countTextToken s.text
    else s.usage.completionTokens
  let promptTokens :=
    if s.usage.promptTokens = 0 ∧ completionTokens ≠ 0 then env.estimatePromptTokens
    else s.usage.promptTokens
  { s.usage with
    promptTokens, completionTokens, totalTokens := wrap64 (promptTokens + completionTokens) }

end OaiResponsesStream

open OaiResponsesStream

def oaiResponsesStreamHandler (tools : CallCounts) (events : List BilledEvent) :
    Usage × CallCounts :=
  let s := exec (step env) { tools } events
  (s.finalUsage env, s.tools)

/-! ### Images, in two orders -/

open BilledEvent

/-- Two images, with their places, that have an id, a call id, a place or a result in
common. -/
def SharesImageName (env : RelayEnv) (a b : BilledOutput × Option Int) : Prop :=
  (a.1.id ≠ "" ∧ a.1.id = b.1.id) ∨ (a.1.callId ≠ "" ∧ a.1.callId = b.1.callId) ∨
  (a.2.any (0 ≤ ·) ∧ a.2 = b.2) ∨ env.digest a.1.result = env.digest b.1.result
deriving Decidable

/-- The images, without those that share a name with one before them. -/
def distinctImages (items : List (BilledOutput × Option Int)) : List (BilledOutput × Option Int) :=
  distinct (SharesImageName env) (items.filter fun item => item.1.isImage)

section Images

variable {env : RelayEnv} {c d : ImageGenerationCallCounter} {a b : BilledOutput × Option Int}
  {items : List (BilledOutput × Option Int)}

/-- The names of an image at its place. -/
def imageNames (env : RelayEnv) (a : BilledOutput × Option Int) : List ImageAlias :=
  a.1.aliases env ++ indexAlias a.2

/-- What a name says of an image that has it. -/
theorem mem_imageNames {name : ImageAlias} : name ∈ imageNames env a ↔
    match name with
    | .id id => a.1.id ≠ "" ∧ id = a.1.id
    | .call callId => a.1.callId ≠ "" ∧ callId = a.1.callId
    | .index outputIndex => 0 ≤ outputIndex ∧ a.2 = some outputIndex
    | .result digest => digest = env.digest a.1.result := by
  obtain ⟨a, i⟩ := a
  cases name <;> simp [imageNames, BilledOutput.aliases, indexAlias, and_comm]

theorem sharesImageName_iff :
    SharesImageName env a b ↔ ∃ name ∈ imageNames env b, name ∈ imageNames env a := by
  constructor
  · rintro (⟨hne, heq⟩ | ⟨hne, heq⟩ | ⟨hpos, heq⟩ | heq)
    · exact ⟨.id a.1.id, mem_imageNames.mpr ⟨heq ▸ hne, heq⟩, mem_imageNames.mpr ⟨hne, rfl⟩⟩
    · exact ⟨.call a.1.callId, mem_imageNames.mpr ⟨heq ▸ hne, heq⟩, mem_imageNames.mpr ⟨hne, rfl⟩⟩
    · obtain ⟨i, hi, hpos⟩ := (Option.any_eq_true ..).mp hpos
      have hpos : 0 ≤ i := of_decide_eq_true hpos
      exact ⟨.index i, mem_imageNames.mpr ⟨hpos, heq ▸ hi⟩, mem_imageNames.mpr ⟨hpos, hi⟩⟩
    · exact ⟨.result (env.digest a.1.result), mem_imageNames.mpr heq, mem_imageNames.mpr rfl⟩
  · -- a name says of which of the four kinds it is
    rintro ⟨name, hb, ha⟩
    rw [mem_imageNames] at ha hb
    cases name with
    | id id => exact .inl ⟨ha.1, ha.2.symm.trans hb.2⟩
    | call callId => exact .inr (.inl ⟨ha.1, ha.2.symm.trans hb.2⟩)
    | index outputIndex =>
      exact .inr (.inr (.inl ⟨by simp [ha.2, ha.1], ha.2.trans hb.2.symm⟩))
    | result digest => exact .inr (.inr (.inr (ha.symm.trans hb)))

theorem sharesImageName_symm (h : SharesImageName env a b) : SharesImageName env b a := by
  obtain ⟨name, hb, ha⟩ := sharesImageName_iff.mp h
  exact sharesImageName_iff.mpr ⟨name, ha, hb⟩

/-- The counter knows the names of the images that are kept, and how many there are. -/
structure CountsKept (env : RelayEnv) (c : ImageGenerationCallCounter)
    (kept : List (BilledOutput × Option Int)) : Prop where
  count : c.count = kept.length
  seen : ∀ name, name ∈ c.seen ↔ ∃ k ∈ kept, name ∈ imageNames env k

variable {kept : List (BilledOutput × Option Int)}

theorem CountsKept.observe (h : CountsKept env c kept) (a : BilledOutput × Option Int) :
    CountsKept env (c.observe env a.1 a.2)
      (if a.1.isImage then keep (SharesImageName env) kept a else kept) := by
  -- a name that was seen is one of an image that is kept
  have hknown : (∃ name ∈ imageNames env a, name ∈ c.seen) ↔
      ∃ k ∈ kept, SharesImageName env k a := by
    simp only [h.seen, sharesImageName_iff]
    constructor
    · rintro ⟨name, hname, k, hk, hseen⟩
      exact ⟨k, hk, name, hname, hseen⟩
    · rintro ⟨k, hk, name, hname, hseen⟩
      exact ⟨name, hname, k, hk, hseen⟩
  have hobserve : c.observe env a.1 a.2 =
      if a.1.isImage = false ∨ ∃ name ∈ imageNames env a, name ∈ c.seen then c
      else { seen := imageNames env a ++ c.seen, count := c.count + 1 } := rfl
  rw [hobserve, keep]
  rcases himage : a.1.isImage with _ | _
  · exact h
  · by_cases hnew : ∃ k ∈ kept, SharesImageName env k a
    · simpa [hknown, hnew] using h
    · simp only [hknown, hnew, Bool.true_eq_false, or_self, if_false, if_true]
      refine ⟨by simp [h.count], fun name => ?_⟩
      rw [mem_append, h.seen]
      simp only [mem_append, mem_singleton, or_and_right, exists_or, exists_eq_left]
      exact or_comm

theorem CountsKept.observeAll (h : CountsKept env c kept)
    (items : List (BilledOutput × Option Int)) :
    CountsKept env (c.observeAll env items)
      ((items.filter fun item => item.1.isImage).foldl (keep (SharesImageName env)) kept) := by
  induction items generalizing c kept with
  | nil => exact h
  | cons a items ih =>
    have hrest := ih (h.observe a)
    rcases himage : a.1.isImage with _ | _
    · simpa [himage, ImageGenerationCallCounter.observeAll] using hrest
    · simpa [himage, ImageGenerationCallCounter.observeAll] using hrest

/-- A counter counts the distinct images. -/
theorem count_observeAll (env : RelayEnv) (items : List (BilledOutput × Option Int)) :
    (observeAll env {} items).count = (distinctImages env items).length := by
  have hstart : CountsKept env {} [] := ⟨rfl, fun name => by simp⟩
  exact (hstart.observeAll items).count

end Images

/-! ### The two bills -/

/-- The response is over. -/
def BilledEventType.isTerminal (type : BilledEventType) : Bool :=
  type ∈ [.completed, .done, .failed, .incomplete, .cancelled, .canceled]

variable (event : BilledEvent)

/-- The item that an event reports as done, with its place. -/
def BilledEvent.doneItem : Option (BilledOutput × Option Int) :=
  if event.type = .outputItemDone then event.item.map (·, event.outputIndex) else none

/-- The text that an event adds. -/
def BilledEvent.textDelta : String := if event.type = .outputTextDelta then event.delta else ""

/-- The events before the last one list the output of a response, in any order and with
any places. -/
structure StreamOf (response : BilledResponse) (events : List BilledEvent) : Prop where
  going : ∀ event ∈ events, event.type.isTerminal = false
  lists : ((events.filterMap doneItem).map Prod.fst).Perm response.output

/-- The bill of the stream is that of the response. -/
structure SameBill (streamed whole : Usage × CallCounts) : Prop where
  prompt : streamed.1.promptTokens = whole.1.promptTokens
  completion : streamed.1.completionTokens = whole.1.completionTokens
  cached : streamed.1.promptTokensDetails.cachedTokens = whole.1.promptTokensDetails.cachedTokens
  cacheWrite : streamed.1.promptTokensDetails.cacheWriteTokens =
    whole.1.promptTokensDetails.cacheWriteTokens
  tools : ∀ name, streamed.2.lookup name = whole.2.lookup name

/-- The stream before its last event. -/
def OaiResponsesStream.before (tools : CallCounts) (events : List BilledEvent) :
    OaiResponsesStream where
  text := String.join (events.map textDelta)
  imageCounter := observeAll env {} (events.filterMap doneItem)
  tools := (events.filterMap doneItem).foldl
    (fun tools item => countBillableToolCall env tools item.1) tools

theorem before_concat (tools : CallCounts) (events : List BilledEvent) {event : BilledEvent}
    (hgoing : event.type.isTerminal = false) :
    step env (.before env tools events) event = .before env tools (events ++ [event]) := by
  have htext : ∀ s t : String, s ++ String.join [t] = s ++ t := by simp [String.join_cons]
  simp only [before, map_append, map_cons, map_nil, String.join_append, htext,
    filterMap_append, foldl_append, observeAll]
  obtain ⟨type, response, delta, item, outputIndex⟩ := event
  cases type with
  | completed | done | failed | incomplete | cancelled | canceled => cases hgoing
  | outputTextDelta => simp [step, doneItem, textDelta]
  | outputItemDone =>
    cases item with
    | none => simp [step, doneItem, textDelta]
    | some item =>
      simp [step, takeItem, doneItem, textDelta]
  | other => simp [step, doneItem, textDelta]

variable {events : List BilledEvent}

/-- Up to the last event, nothing is taken from the response. -/
theorem exec_going (tools : CallCounts) (hgoing : ∀ event ∈ events, event.type.isTerminal = false) :
    exec (step env) { tools } events = .before env tools events := by
  induction events using List.reverseRecOn with
  | nil => rfl
  | append_singleton events event ih =>
    rw [exec_append, ih fun e he => hgoing e (mem_append_left _ he), exec_cons, exec_nil]
    exact before_concat env tools events (hgoing event (by simp))

section Bills

variable {env : RelayEnv} {tools : CallCounts} {response : BilledResponse} {usage : Usage}

/-- The tool an output counts for; a web search counts for the tool `web`. -/
def billedTool (env : RelayEnv) (web : String) (item : BilledOutput) : Option String :=
  match item.type with
  | .webSearchCall => some web
  | .fileSearchCall => some "file_search"
  | .functionCall =>
    if item.name = "" ∨ isReservedBillableToolName item.name ∨ env.priced item.name = false then
      none
    else some item.name
  | _ => none

theorem countBillableToolCall_eq (env : RelayEnv) (tools : CallCounts) (item : BilledOutput) :
    countBillableToolCall env tools item =
      (billedTool env (resolveWebSearchToolName tools) item).elim tools
        (incrementBillableToolCall · tools) := by
  unfold countBillableToolCall billedTool
  cases item.type with
  | functionCall =>
    dsimp only
    split_ifs <;> rfl
  | _ => rfl

/-- Counting a tool leaves the one that web searches count for. -/
theorem resolveWebSearchToolName_count (env : RelayEnv) (tools : CallCounts) (item : BilledOutput) :
    resolveWebSearchToolName (countBillableToolCall env tools item) =
      resolveWebSearchToolName tools := by
  rw [countBillableToolCall_eq]
  unfold billedTool
  -- a function with the name of a web search is not counted
  have hother (name : String) (h : name ≠ "web_search_preview") (h' : name ≠ "web_search") :
      resolveWebSearchToolName (incrementBillableToolCall name tools) =
          resolveWebSearchToolName tools := by
    simp only [resolveWebSearchToolName, incrementBillableToolCall, Dict.lookup_insert_of,
      if_neg h.symm, if_neg h'.symm]
  cases item.type with
  | webSearchCall =>
    simp only [Option.elim_some, resolveWebSearchToolName, incrementBillableToolCall,
      Dict.lookup_insert_of]
    split_ifs <;> simp_all
  | fileSearchCall => exact hother _ (by decide) (by decide)
  | functionCall =>
    dsimp only
    split_ifs with hskip
    · rfl
    · simp only [not_or] at hskip
      refine hother item.name ?_ ?_
      · intro hname
        exact hskip.2.1 (by rw [hname]; decide)
      · intro hname
        exact hskip.2.1 (by rw [hname]; decide)
  | imageGenerationCall => rfl
  | other => rfl

/-- How often a tool is counted does not depend on the order of the outputs. -/
theorem lookup_countAll (env : RelayEnv) (tools : CallCounts) (items : List BilledOutput)
    (name : String) :
    (items.foldl (countBillableToolCall env) tools).lookup name =
      match items.countP
        (fun item => billedTool env (resolveWebSearchToolName tools) item = some name) with
      | 0 => tools.lookup name
      | n + 1 => some ((tools.lookup name).getD 0 + (n + 1)) := by
  induction items generalizing tools with
  | nil => rfl
  | cons item items ih =>
    rw [foldl_cons, ih, resolveWebSearchToolName_count, countBillableToolCall_eq]
    rcases htool : billedTool env (resolveWebSearchToolName tools) item with _ | tool
    · rw [countP_cons_of_neg (by simp [htool])]
      rfl
    · -- only calls of this tool change its count
      by_cases hname : tool = name
      · subst hname
        rw [countP_cons_of_pos (by simp [htool])]
        simp only [Option.elim_some, incrementBillableToolCall, Dict.lookup_insert_of, if_true]
        generalize items.countP _ = n
        cases n with
        | zero => rfl
        | succ n =>
          simp only [Option.getD_some, Option.some.injEq]
          omega
      · rw [countP_cons_of_neg (by simp [htool, hname])]
        simp only [Option.elim_some, incrementBillableToolCall, Dict.lookup_insert_of,
          if_neg (Ne.symm hname)]

/-- The tools that were counted on the way are those of the output. -/
theorem StreamOf.lookup_tools (h : StreamOf response events) (name : String) :
    (before env tools events).tools.lookup name =
      (response.output.foldl (countBillableToolCall env) tools).lookup name := by
  have hbefore : (before env tools events).tools =
      ((events.filterMap doneItem).map Prod.fst).foldl (countBillableToolCall env) tools := by
    rw [foldl_map]
    rfl
  rw [hbefore, lookup_countAll, lookup_countAll, h.lists.countP_eq]

/-- The response is cut off, or it has as many distinct images, up to five, in the order of
the stream and then of the output, as in the order of the output. -/
def CountedAlike (env : RelayEnv) (response : BilledResponse) (events : List BilledEvent) : Prop :=
  response.status = .str "incomplete" ∨
    min (distinctImages env (events.filterMap doneItem ++ response.places)).length 5 =
      min (distinctImages env response.places).length 5

/-- Two images that share a name with a third one share a name. -/
def NamesAgree (env : RelayEnv) (items : List (BilledOutput × Option Int)) : Prop :=
  ∀ a ∈ items, ∀ b ∈ items, ∀ c ∈ items, a.1.isImage = true → b.1.isImage = true →
    c.1.isImage = true → SharesImageName env c a → SharesImageName env c b → SharesImageName env a b

/-- Where names agree, the order does not matter. -/
theorem countedAlike_of_namesAgree (h : StreamOf response events)
    (hnames : NamesAgree env (events.filterMap doneItem ++ response.places)) :
    CountedAlike env response events := by
  refine .inr ?_
  unfold distinctImages
  rw [filter_append, length_distinct_append]
  · exact fun a _ => .inr (.inr (.inr rfl))
  · exact fun a b => sharesImageName_symm
  · rw [← filter_append]
    intro a ha b hb c hc
    obtain ⟨ha, haimage⟩ := mem_filter.mp ha
    obtain ⟨hb, hbimage⟩ := mem_filter.mp hb
    obtain ⟨hc, hcimage⟩ := mem_filter.mp hc
    exact hnames a ha b hb c hc haimage hbimage hcimage
  · -- an image of the stream is in the output, with the same result
    intro a ha
    obtain ⟨hdone, himage⟩ := mem_filter.mp ha
    have houtput : a.1 ∈ response.output := h.lists.subset (mem_map_of_mem hdone)
    obtain ⟨n, hn⟩ := mem_iff_getElem?.mp houtput
    have hn := mk_mem_zipIdx_iff_getElem?.mpr hn
    refine ⟨(a.1, some (n : Int)), mem_filter.mpr ⟨mem_map.mpr ⟨(a.1, n), hn, rfl⟩, himage⟩, ?_⟩
    exact .inr (.inr (.inr rfl))

/-- No image is counted exactly if there is none. -/
theorem images_eq_zero_iff :
    min (observeAll env {} response.places).count 5 = 0 ↔
      ∀ output ∈ response.output, output.isImage = false := by
  rw [count_observeAll]
  constructor
  · intro hzero output hmem
    by_contra himage
    obtain ⟨n, hn⟩ := mem_iff_getElem?.mp hmem
    have hn := mk_mem_zipIdx_iff_getElem?.mpr hn
    -- an image has its own place among the outputs, so it is counted
    have hplace : (output, some (n : Int)) ∈ response.places.filter fun item => item.1.isImage :=
      mem_filter.mpr ⟨mem_map.mpr ⟨(output, n), hn, rfl⟩, by simpa using himage⟩
    have hself : SharesImageName env (output, some (n : Int)) (output, some (n : Int)) :=
      .inr (.inr (.inr rfl))
    obtain ⟨k, hk, -⟩ := exists_mem_distinct hplace hself
    have hpos := length_pos_of_mem hk
    unfold distinctImages at hzero
    omega
  · intro hnone
    have hfilter : response.places.filter (fun item => item.1.isImage) = [] := by
      refine filter_eq_nil_iff.mpr fun p hp => ?_
      obtain ⟨q, hq, rfl⟩ := mem_map.mp hp
      simp [hnone q.1 (fst_mem_of_mem_zipIdx hq)]
    rw [distinctImages, hfilter]
    rfl

variable {c d : ImageGenerationCallCounter} {s : OaiResponsesStream}

/-- A usage that a response reports, of a prompt and of an answer. -/
structure Reports (response : BilledResponse) (usage : Usage) : Prop where
  status : response.status = .str "completed" ∨ response.status = .str "incomplete"
  reported : response.usage = some usage
  input : 0 < usage.inputTokens
  output : 0 < usage.outputTokens

/-- What is estimated from a stream is what the response reports. -/
structure EstimatesRight (env : RelayEnv) (response : BilledResponse) (usage : Usage)
    (text : String) : Prop where
  written : text ≠ ""
  completion : env.countTextToken text = usage.outputTokens
  prompt : env.estimatePromptTokens = usage.inputTokens
  cached : (usage.inputTokensDetails.map cachedTokens).getD 0 = 0
  cacheWrite : (usage.inputTokensDetails.map cacheWriteTokens).getD 0 = 0
  images : response.status = .str "incomplete" ∨ ∀ output ∈ response.output, output.isImage = false

theorem nonBillable_iff (h : Reports response usage) :
    isNonBillableResponsesStatus response.status = true ↔ response.status = .str "incomplete" := by
  rcases h.status with hs | hs <;> rw [hs] <;> decide

/-- A usage that is taken over as a whole. -/
theorem takeUsage_reported (h : Reports response usage) :
    (takeUsage {} usage).promptTokens = usage.inputTokens ∧
      (takeUsage {} usage).completionTokens = usage.outputTokens ∧
      (takeUsage {} usage).promptTokensDetails =
        (oaiResponsesUsage (some usage)).promptTokensDetails := by
  have hin : usage.inputTokens ≠ 0 := (Int.ne_of_lt h.input).symm
  have hout : usage.outputTokens ≠ 0 := (Int.ne_of_lt h.output).symm
  refine ⟨if_pos hin, if_pos hout, ?_⟩
  cases hdetails : usage.inputTokensDetails <;> simp [takeUsage, oaiResponsesUsage, hdetails]

/-- Nothing is estimated where both counts are reported. -/
theorem finalUsage_reported (hprompt : s.usage.promptTokens ≠ 0)
    (hcompletion : s.usage.completionTokens ≠ 0) :
    s.finalUsage env =
      { s.usage with totalTokens := wrap64 (s.usage.promptTokens + s.usage.completionTokens) } := by
  simp [finalUsage, hprompt, hcompletion]

/-- After the same calls, two counters leave the same counts exactly if they agree up to
five images. -/
theorem commit_iff {tools' : CallCounts} (htools : ∀ name, tools.lookup name = tools'.lookup name) :
    (∀ name, (c.commit tools).lookup name = (d.commit tools').lookup name) ↔
      min c.count 5 = min d.count 5 := by
  simp only [commit, Dict.lookup_insert_of, htools]
  constructor
  · intro hall
    have himages := hall "image_generation"
    rw [if_pos rfl, if_pos rfl] at himages
    exact Option.some.inj himages
  · intro hsame name
    rw [hsame]

/-- A stream that ends with the response. -/
theorem completed_bill_iff (h : Reports response usage) (hstream : StreamOf response events)
    {terminal : BilledEventType} (hterminal : terminal = .completed ∨ terminal = .done) :
    SameBill
      (oaiResponsesStreamHandler env tools
        (events ++ [{ type := terminal, response := some response }]))
        (oaiResponsesUsage response.usage,
          (response.images env).commit (response.output.foldl (countBillableToolCall env) tools)) ↔
      CountedAlike env response events := by
  let c : ImageGenerationCallCounter := if isNonBillableResponsesStatus response.status then {}
    else (before env tools events).imageCounter.observeAll env response.places
  have hstep : step env (.before env tools events) { type := terminal, response := some response } =
      { before env tools events with
        usage := takeUsage {} usage
        imageCounter := c
        imageCommitted := true
        tools := c.commit (before env tools events).tools } := by
    have htake : step env (.before env tools events)
        { type := terminal, response := some response } =
        (before env tools events).takeResponse env response := by
      rcases hterminal with rfl | rfl <;> rfl
    rw [htake, takeResponse, h.reported]
    rfl
  have hcount : min c.count 5 = min (response.images env).count 5 ↔
      CountedAlike env response events := by
    -- the stream goes through its own items, and then through the output
    have htwice : (before env tools events).imageCounter.observeAll env response.places =
        observeAll env {} (events.filterMap doneItem ++ response.places) := foldl_append.symm
    rw [CountedAlike, ← nonBillable_iff h, show c = ite _ _ _ from rfl,
      BilledResponse.images, htwice]
    rcases isNonBillableResponsesStatus response.status with _ | _
    · simp only [Bool.false_eq_true, if_false, false_or, count_observeAll]
      omega
    · simp
  obtain ⟨hprompt, hcompletion, hdetails⟩ := takeUsage_reported h
  have hin : (takeUsage {} usage).promptTokens ≠ 0 := hprompt ▸ (Int.ne_of_lt h.input).symm
  have hout : (takeUsage {} usage).completionTokens ≠ 0 :=
    hcompletion ▸ (Int.ne_of_lt h.output).symm
  rw [oaiResponsesStreamHandler, exec_append, exec_going env tools hstream.going, exec_cons,
    exec_nil, hstep, h.reported, finalUsage_reported hin hout, ← hcount,
    ← commit_iff hstream.lookup_tools]
  constructor
  · exact fun hsame => hsame.tools
  · exact fun htools =>
      ⟨hprompt, hcompletion, congrArg cachedTokens hdetails,
        congrArg cacheWriteTokens hdetails, htools⟩

/-- Everything is estimated where nothing is reported. -/
theorem finalUsage_estimated (env : RelayEnv) (h : s.usage = {}) (hout : 0 < usage.outputTokens) :
    (s.finalUsage env).promptTokens = usage.inputTokens ∧
      (s.finalUsage env).completionTokens = usage.outputTokens ↔
      s.text ≠ "" ∧ env.countTextToken s.text = usage.outputTokens ∧
        env.estimatePromptTokens = usage.inputTokens := by
  have hcompletion : (s.finalUsage env).completionTokens = if s.text ≠ "" then
      env.countTextToken s.text else 0 := by
    simp [finalUsage, h]
  have hprompt : (s.finalUsage env).promptTokens =
      if (s.finalUsage env).completionTokens ≠ 0 then env.estimatePromptTokens else 0 := by
    simp [finalUsage, h]
  constructor
  · rintro ⟨hp, hc⟩
    -- the stream reported nothing, so both counts are estimates
    have hne : (s.finalUsage env).completionTokens ≠ 0 := by omega
    rw [hprompt, if_pos hne] at hp
    rw [hcompletion] at hc hne
    by_cases htext : s.text = ""
    · simp [htext] at hne
    · rw [if_pos htext] at hc
      exact ⟨htext, hc, hp⟩
  · rintro ⟨htext, hc, hp⟩
    rw [if_pos htext, hc] at hcompletion
    rw [hprompt, hcompletion, if_pos (by omega), hp]
    exact ⟨rfl, rfl⟩

theorem images_committed_iff (h : Reports response usage) : min (response.images env).count 5 = 0 ↔
      response.status = .str "incomplete" ∨ ∀ output ∈ response.output, output.isImage = false := by
  rw [← nonBillable_iff h, BilledResponse.images]
  cases isNonBillableResponsesStatus response.status with
  | true => exact iff_of_true rfl (.inl rfl)
  | false =>
    rw [if_neg (by simp), images_eq_zero_iff]
    simp

/-- A stream that is cut off. -/
theorem incomplete_bill_iff (h : Reports response usage) (hstream : StreamOf response events) :
    SameBill
      (oaiResponsesStreamHandler env tools
        (events ++ [{ type := .incomplete, response := some response }]))
        (oaiResponsesUsage response.usage,
          (response.images env).commit (response.output.foldl (countBillableToolCall env) tools)) ↔
      EstimatesRight env response usage (String.join (events.map textDelta)) := by
  -- the stream that is cut off counts no images
  let cut : OaiResponsesStream :=
    { before env tools events with
      imageCounter := {}
      imageCommitted := true
      tools := commit {} (before env tools events).tools }
  have hhandler : oaiResponsesStreamHandler env tools
      (events ++ [{ type := .incomplete, response := some response }]) =
      (cut.finalUsage env, cut.tools) := by
    rw [oaiResponsesStreamHandler, exec_append, exec_going env tools hstream.going, exec_cons,
      exec_nil]
    rfl
  have himages : (∀ name, cut.tools.lookup name = ((response.images env).commit
      (response.output.foldl (countBillableToolCall env) tools)).lookup name) ↔
        response.status = .str "incomplete" ∨ ∀ output ∈ response.output,
            output.isImage = false := by
    rw [← images_committed_iff h, eq_comm]
    exact commit_iff hstream.lookup_tools
  have hestimated := finalUsage_estimated env (s := cut) rfl h.output
  rw [hhandler, h.reported]
  constructor
  · rintro ⟨hp, hc, hcached, hwrite, htools⟩
    obtain ⟨htext, hcount, hprompt⟩ := hestimated.mp ⟨hp, hc⟩
    exact ⟨htext, hcount, hprompt, hcached.symm, hwrite.symm, himages.mp htools⟩
  · rintro ⟨htext, hcount, hprompt, hcached, hwrite, hnone⟩
    obtain ⟨hp, hc⟩ := hestimated.mpr ⟨htext, hcount, hprompt⟩
    exact ⟨hp, hc, hcached.symm, hwrite.symm, himages.mpr hnone⟩

end Bills

/-- A stream is billed as its response exactly if the response has no error, its images are
as many in both orders, and a cut-off stream is estimated right.  The images are as many
where two that share a name with a third one share a name. -/
theorem streamed_billing_agrees_iff (env : RelayEnv) (tools : CallCounts)
    (response : BilledResponse) (usage : Usage)
    (events : List BilledEvent) (terminal : BilledEventType) (h : Reports response usage)
    (hstream : StreamOf response events)
    (hterminal : terminal = .completed ∨ terminal = .done ∨ terminal = .incomplete) :
    ((∃ whole, oaiResponsesHandler env tools response = .ok whole ∧
      SameBill
        (oaiResponsesStreamHandler env tools
          (events ++ [{ type := terminal, response := some response }])) whole) ↔
    response.errorType = "" ∧ (terminal ≠ .incomplete → CountedAlike env response events) ∧
      (terminal = .incomplete →
        EstimatesRight env response usage (String.join (events.map textDelta)))) ∧
    (NamesAgree env (events.filterMap doneItem ++ response.places) →
      CountedAlike env response events) := by
  refine ⟨?_, countedAlike_of_namesAgree hstream⟩
  by_cases herror : response.errorType = ""
  · have hwhole : oaiResponsesHandler env tools response = .ok (oaiResponsesUsage response.usage,
        (response.images env).commit (response.output.foldl (countBillableToolCall env) tools)) :=
      if_neg (not_not_intro herror)
    simp only [hwhole, herror, true_and, Except.ok.injEq, exists_eq_left']
    -- both ends of a whole response count alike
    rcases hterminal with rfl | rfl | rfl
    · rw [completed_bill_iff h hstream (.inl rfl)]
      simp
    · rw [completed_bill_iff h hstream (.inr rfl)]
      simp
    · rw [incomplete_bill_iff h hstream]
      simp
  · have hfails : oaiResponsesHandler env tools response = .error response.errorType :=
      if_pos herror
    refine iff_of_false ?_ fun hall => herror hall.1
    rintro ⟨whole, hok, -⟩
    rw [hfails] at hok
    cases hok

/-- A response with a web search and an image. -/
def searchResponse : BilledResponse where
  status := .str "completed"
  output :=
    [{ type := .webSearchCall, id := "ws" },
      { type := .imageGenerationCall, id := "ig", result := "png" }]
  usage := some { inputTokens := 12, outputTokens := 5 }

theorem streamed_billing_agrees_search :
    ∃ whole, oaiResponsesHandler ⟨fun _ => false, id, 7, fun _ => 3⟩ ∅ searchResponse = .ok whole ∧
      SameBill (oaiResponsesStreamHandler ⟨fun _ => false, id, 7, fun _ => 3⟩ ∅
        ([{ type := .outputItemDone,
            item := some { type := .imageGenerationCall, id := "ig", result := "png" } },
          { type := .outputItemDone, item := some { type := .webSearchCall, id := "ws" },
            outputIndex := some 0 }] ++
         [{ type := .completed, response := some searchResponse }])) whole := by
  refine (streamed_billing_agrees_iff _ _ _ { inputTokens := 12, outputTokens := 5 } _ _
    ⟨.inl rfl, rfl, by decide, by decide⟩ ⟨by decide, ?_⟩ (.inl rfl)).1.mpr
    ⟨rfl, fun _ => .inr (by decide), fun hcut => by cases hcut⟩
  exact .swap ..

-- the second image has the result of the first and the id of the third
example : let image (id result : String) : BilledOutput × Option Int :=
      ({ type := .imageGenerationCall, id, result }, none)
    let env : RelayEnv := ⟨fun _ => false, id, 7, fun _ => 3⟩
    (distinctImages env [image "1" "A", image "2" "A", image "2" "B"]).length = 2 ∧
      (distinctImages env [image "2" "A", image "1" "A", image "2" "B"]).length = 1 := by
  decide

/-- A response that was cut off after two of its tokens were sent. -/
theorem incomplete_stream_estimated :
    ¬ ∃ whole, oaiResponsesHandler ⟨fun _ => false, id, 7, fun _ => 2⟩ ∅
        { status := .str "incomplete", usage := some { inputTokens := 12, outputTokens := 5 } } =
          .ok whole ∧
      SameBill (oaiResponsesStreamHandler ⟨fun _ => false, id, 7, fun _ => 2⟩ ∅
        [{ type := .outputTextDelta, delta := "Hello there" },
         { type := .incomplete
           response := some { status := .str "incomplete"
                              usage := some { inputTokens := 12, outputTokens := 5 } } }])
        whole := by
  rintro ⟨whole, hok, hsame⟩
  obtain rfl := Except.ok.inj hok
  exact absurd hsame.prompt (by decide)
