/-
Which chat streams are converted to well-formed Responses streams.

The converter announces an item under the id that it has then.  A later delta may bring another
id for a tool call, and a chunk may bring the id of the response; and a finish reason closes all
items, after which more deltas may come.  What has to be known of the past is the ids under
which the items were announced.

* `ChatAction` — what a chunk makes the converter do, one thing after the other;
* `ChatAction.Fits` — an action that keeps to the items, as they were announced;
* `InStep` — the converter and a reader of its events;
* `well_formed_response_iff` — the events are well-formed exactly if there is a chunk, every action
  fits, and at the end all items have the ids under which they were announced;
* `late_call_id` — a tool call whose id comes with its second delta.
-/
import AcuGateway.ChatToResponses
import AcuGateway.ResponsesEventStream

open List Transducer Emitter OutputState Option Run ChatToResponsesStreamState
open Text (trimSpace)

/-! ### Actions -/

/-- What a chunk makes the converter do. -/
inductive ChatAction
  | begins (chunk : ChatCompletionsStreamResponse)
  | reasoning (delta : String)
  | text (delta : String)
  | tool (toolCall : ToolCallResponse)
  | finish (finishReason : String)

namespace ChatAction

def step : ChatAction → ResponsesStep
  | .begins chunk => seq (.modify (applyChunkMetadata chunk)) ensureCreated
  | .reasoning delta => appendReasoningDelta delta
  | .text delta => appendTextDelta delta
  | .tool toolCall => appendToolCallDelta toolCall
  | .finish finishReason => seq (.modify (applyFinishReason finishReason)) doneDeltaEvents

end ChatAction

open ChatAction

def ChatStreamChoice.actions (choice : ChatStreamChoice) : List ChatAction :=
  (if choice.delta.getReasoningContent ≠ "" then [.reasoning choice.delta.getReasoningContent]
    else []) ++
  (if choice.delta.getContentString ≠ "" then [.text choice.delta.getContentString] else []) ++
  choice.delta.toolCalls.map .tool ++
  (choice.finishReason.toList.filter (trimSpace · ≠ "")).map .finish

def ChatCompletionsStreamResponse.actions (chunk : ChatCompletionsStreamResponse) :
    List ChatAction :=
  .begins chunk :: chunk.choices.flatMap ChatStreamChoice.actions

theorem appendChoice_actions (choice : ChatStreamChoice) :
    appendChoice choice = drive step choice.actions := by
  -- each part of a choice is an action, or none if it is empty
  have hreasoning : (if choice.delta.getReasoningContent ≠ "" then
      appendReasoningDelta choice.delta.getReasoningContent else .emit []) =
      drive step (if choice.delta.getReasoningContent ≠ "" then
        [.reasoning choice.delta.getReasoningContent] else []) := by
    split
    · rw [drive_singleton]
      rfl
    · rfl
  have htext : (if choice.delta.getContentString ≠ "" then
      appendTextDelta choice.delta.getContentString else .emit []) =
      drive step (if choice.delta.getContentString ≠ "" then
        [.text choice.delta.getContentString] else []) := by
    split
    · rw [drive_singleton]
      rfl
    · rfl
  have htools : appendToolCalls choice.delta.toolCalls =
      drive step (choice.delta.toolCalls.map .tool) := by
    rw [drive_map]
    rfl
  have hfinish : finishAnswer choice.finishReason =
      drive step ((choice.finishReason.toList.filter (trimSpace · ≠ "")).map .finish) := by
    cases choice.finishReason with
    | none => rfl
    | some reason =>
      by_cases hblank : trimSpace reason = ""
      · simp [finishAnswer, hblank, drive_nil]
      · simp [finishAnswer, hblank, drive_singleton, step]
  rw [appendChoice, hreasoning, htext, htools, hfinish, ChatStreamChoice.actions, drive_append,
    drive_append, drive_append, seq_assoc, seq_assoc]

theorem chunk_actions (chunk : ChatCompletionsStreamResponse) :
    chatCompletionsStreamChunkToResponsesEvents chunk = drive step chunk.actions := by
  have hchoices : drive appendChoice chunk.choices =
      drive step (chunk.choices.flatMap ChatStreamChoice.actions) :=
    drive_flatMap appendChoice_actions chunk.choices
  calc chatCompletionsStreamChunkToResponsesEvents chunk
    _ = seq (.modify (applyChunkMetadata chunk))
        (seq ensureCreated (drive appendChoice chunk.choices)) := rfl
    _ = drive step chunk.actions := by
      rw [hchoices, ChatCompletionsStreamResponse.actions, drive_cons, step, seq_assoc]

/-- All that the chunks of a stream make the converter do. -/
def actionsOf (chunks : List ChatCompletionsStreamResponse) : List ChatAction :=
  chunks.flatMap ChatCompletionsStreamResponse.actions

variable (s : ChatToResponsesStreamState)

theorem responsesEventsOf_actions (chunks : List ChatCompletionsStreamResponse) :
    responsesEventsOf s chunks = outputs step s (actionsOf chunks) ++
      (finalizeChatCompletionsStreamToResponses
        (Transducer.final step s (actionsOf chunks))).2 := by
  have hdrive := congrFun (drive_flatMap chunk_actions chunks) s
  obtain ⟨hfinal, houtputs⟩ := Prod.ext_iff.mp hdrive
  rw [responsesEventsOf]
  exact congrArg₂ (fun final events => events ++ (finalizeChatCompletionsStreamToResponses final).2)
    hfinal houtputs

/-! ### Items and the ids under which they were announced -/

/-- An output item of the converter. -/
structure OutputView where
  index : Int
  type : ResponsesOutputType
  id : String
  text : String
  done : Bool

/-- What stands at a place of the output, if it was started. -/
def ChatToResponsesStreamState.view : ChatToResponsesOutputRef → Option OutputView
  | .message =>
    if s.textStarted then some ⟨s.textOutputIndex, .message, s.messageID, s.text, s.textDone⟩
    else none
  | .reasoning =>
    if s.reasoningStarted then
      some ⟨s.reasoningIndex, .reasoning, s.reasoningID, s.reasoning, s.reasoningDone⟩
    else none
  | .tool toolIndex =>
    (s.toolsByIndex.lookup toolIndex).map fun tool =>
      ⟨tool.outputIndex, .functionCall, tool.id, tool.arguments, tool.done⟩

/-- Item number `index` was announced as `id`. -/
def AnnouncedAs (ids : List String) (index : Int) (id : String) : Prop :=
  match index with
  | .ofNat i => ids[i]? = some id
  | .negSucc _ => False

instance (ids : List String) (index : Int) : DecidablePred (AnnouncedAs ids index) := fun _ => by
  unfold AnnouncedAs; split <;> infer_instance

/-- The item takes a delta under `id`: it is open, and was announced with that id. -/
def OutputView.Takes (ids : List String) (v : OutputView) (id : String) : Prop :=
  v.done = false ∧ AnnouncedAs ids v.index id
deriving Decidable

/-- The id of a tool call, once a delta has come. -/
def idAfter (toolCall : ToolCallResponse) (id : String) : String :=
  if trimSpace toolCall.id ≠ "" then trimSpace toolCall.id else id

/-- The converter, with the ids under which it has announced its items. -/
abbrev Announcing := ChatToResponsesStreamState × List String

variable (c : Announcing)

/-- The action keeps to the items that were announced.  A delta goes to an item that is open, under
the id of its announcement, and items are closed under these ids. -/
def ChatAction.Fits : ChatAction → Prop
  | .begins _ => True
  | .reasoning _ => ∀ v ∈ c.1.view .reasoning, v.Takes c.2 v.id
  | .text _ => ∀ v ∈ c.1.view .message, v.Takes c.2 v.id
  | .tool toolCall =>
    ∀ v ∈ c.1.view (.tool (toolCall.index.getD 0)),
      toolCall.function.arguments ≠ "" → v.Takes c.2 (idAfter toolCall v.id)
  | .finish _ =>
    ∀ ref ∈ c.1.outputOrder, ∀ v ∈ c.1.view ref, v.done = false → AnnouncedAs c.2 v.index v.id

instance (c : Announcing) (action : ChatAction) : Decidable (action.Fits c) := by
  unfold ChatAction.Fits; split <;> infer_instance

/-- The ids are those of the announcements. -/
def Announcing.Kept : Prop :=
  ∀ ref ∈ c.1.outputOrder, ∀ v ∈ c.1.view ref, AnnouncedAs c.2 v.index v.id
deriving Decidable

/-- The id of the item that an action starts. -/
def ChatAction.announces : ChatAction → List String
  | .begins _ | .finish _ => []
  | .reasoning _ => if s.reasoningStarted then [] else [s.reasoningID]
  | .text _ => if s.textStarted then [] else [s.messageID]
  | .tool toolCall =>
    if (s.toolsByIndex.lookup (toolCall.index.getD 0)).isSome then []
    else [idAfter toolCall (s.id ++ "_call_" ++ toString (toolCall.index.getD 0))]

def Announcing.next (action : ChatAction) : Announcing :=
  ((action.step c.1).1, c.2 ++ action.announces c.1)

/-! ### The converter and a reader of its events -/

/-- Item `v` of the converter is item number `n` of the reader. -/
structure PlacedAt (s : ChatToResponsesStreamState) (t : OutputState)
    (ref : ChatToResponsesOutputRef) (v : OutputView) (n : Nat) (item : OutputItem) : Prop where
  index : v.index = n
  order : s.outputOrder[n]? = some ref
  read : t.items[n]? = some item
  type : item.type = v.type
  text : item.text = v.text
  done : item.done = v.done

/-- The two texts of a state are written only once they are started. -/
structure TextsBegin (s : ChatToResponsesStreamState) : Prop where
  text : s.textStarted = false → s.text = "" ∧ s.textDone = false
  reasoning : s.reasoningStarted = false → s.reasoning = "" ∧ s.reasoningDone = false

/-- The reader has the items of the converter, whatever their ids are. -/
structure InStep (s : ChatToResponsesStreamState) (t : OutputState) : Prop where
  sent : s.sentCreated = true
  created : t.created = true
  running : t.ended = false
  next : s.nextOutputIndex = t.items.length
  length : s.outputOrder.length = t.items.length
  nodup : s.outputOrder.Nodup
  known : ∀ ref ∈ s.outputOrder, ∃ v, s.view ref = some v
  place : ∀ ref v, s.view ref = some v → ∃ n item, PlacedAt s t ref v n item
  texts : TextsBegin s

variable {s} {s' : ChatToResponsesStreamState} {t : OutputState} {ref : ChatToResponsesOutputRef}
  {v : OutputView}
  {event : ResponsesStreamResponse}

namespace PlacedAt

variable {n : Nat} {item : OutputItem} {id : String}

variable (h : PlacedAt s t ref v n item)

include h

theorem announced_iff : AnnouncedAs t.itemIDs v.index id ↔ item.id = id := by
  rw [h.index]
  show t.itemIDs[n]? = some id ↔ _
  rw [itemIDs, getElem?_map, h.read, map_some, Option.some.injEq]

theorem isOpen_iff : t.IsOpen (some v.index) v.type id ↔ v.Takes t.itemIDs id := by
  rw [OutputView.Takes, h.announced_iff, OutputState.IsOpen, h.index, itemAt_natCast, h.read,
    map_some, h.type, h.done]
  simp [and_comm]

variable (hindex : event.outputIndex = some v.index)

include hindex

/-- A delta, or the end of the deltas. -/
theorem writes_iff (hrunning : t.ended = false)
    (hrole : event.type.role = .writes v.type ∨ event.type.role = .completes v.type) :
    t.Allowed event ↔ v.Takes t.itemIDs event.itemID := by
  have htakes : t.Takes event event.type.role ↔ t.IsOpen (some v.index) v.type event.itemID := by
    rw [← hindex]
    rcases hrole with hrole | hrole <;> rw [hrole] <;> rfl
  rw [Allowed, htakes, h.isOpen_iff]
  exact and_iff_right hrunning

theorem closes_iff (hrunning : t.ended = false)
    (hrole : event.type.role = .closes) {out : ResponsesOutput}
    (hout : event.item = some out) (htype : out.type = v.type) :
    t.Allowed event ↔ v.Takes t.itemIDs out.id := by
  have htakes : t.Takes event event.type.role ↔ t.IsOpen (some v.index) v.type out.id := by
    rw [← hindex, ← htype, hrole]
    show t.Closes event ↔ _
    rw [Closes, hout]
  rw [Allowed, htakes, h.isOpen_iff]
  exact and_iff_right hrunning

end PlacedAt

variable {v' : OutputView}

/-- An item that is not started has no place. -/
theorem InStep.fresh (h : InStep s t) (hnew : s.view ref = none) : ref ∉ s.outputOrder := by
  intro hmem
  obtain ⟨v, hv⟩ := h.known ref hmem
  rw [hnew] at hv
  cases hv

/-! ### One item -/

/-- From `s` to `s'` item `ref` was started, as `v`. -/
structure Announces (ref : ChatToResponsesOutputRef) (s s' : ChatToResponsesStreamState)
    (v : OutputView) (event : ResponsesStreamResponse) : Prop where
  new : s.view ref = none
  view : ∀ r, s'.view r = if r = ref then some v else s.view r
  fresh : v.index = s.nextOutputIndex ∧ v.text = "" ∧ v.done = false
  next : s'.nextOutputIndex = s.nextOutputIndex + 1
  order : s'.outputOrder = s.outputOrder ++ [ref]
  sent : s'.sentCreated = s.sentCreated
  texts : TextsBegin s'
  type : event.type = .outputItemAdded
  index : event.outputIndex = some v.index
  item : event.item.map (fun out => (out.type, out.id)) = some (v.type, v.id)
  itemID : event.itemID = "" ∨ event.itemID = v.id

/-- From `s` to `s'` item `ref` changed from `v` to `v'`. -/
structure Changes (ref : ChatToResponsesOutputRef) (s s' : ChatToResponsesStreamState)
    (v v' : OutputView) : Prop where
  old : s.view ref = some v
  view : ∀ r, s'.view r = if r = ref then some v' else s.view r
  kept : v'.index = v.index ∧ v'.type = v.type
  next : s'.nextOutputIndex = s.nextOutputIndex
  order : s'.outputOrder = s.outputOrder
  sent : s'.sentCreated = s.sentCreated
  texts : TextsBegin s'

/-- The next item is started. -/
theorem Announces.inStep (ha : Announces ref s s' v event) (h : InStep s t) (id : String) :
    InStep s' { t with items := t.items ++ [{ type := v.type, id }] } where
  sent := ha.sent.trans h.sent
  created := h.created
  running := h.running
  next := by
    rw [ha.next, h.next, length_append, length_singleton]
    push_cast
    rfl
  length := by simp [ha.order, h.length]
  nodup := by
    rw [ha.order, nodup_append]
    refine ⟨h.nodup, nodup_singleton ref, fun r hr r' hr' hsame => h.fresh ha.new ?_⟩
    rw [← mem_singleton.mp hr', ← hsame]
    exact hr
  known := by
    intro r hr
    rw [ha.view]
    split
    · exact ⟨v, rfl⟩
    · rename_i hne
      rw [ha.order, mem_append, mem_singleton] at hr
      exact h.known r (hr.resolve_right hne)
  place := by
    intro r w hw
    rw [ha.view] at hw
    split at hw
    · -- the new item is at the end of both lists
      rename_i hr
      obtain rfl := some.inj hw
      refine ⟨t.items.length, { type := v.type, id },
        ⟨?_, ?_, ?_, rfl, ha.fresh.2.1.symm, ha.fresh.2.2.symm⟩⟩
      · rw [ha.fresh.1, h.next]
      · rw [ha.order, ← h.length, hr, getElem?_concat_length]
      · exact getElem?_concat_length
    · obtain ⟨n, item, hplace⟩ := h.place r w hw
      obtain ⟨hlt, -⟩ := List.getElem?_eq_some_iff.mp hplace.order
      obtain ⟨hlt', -⟩ := List.getElem?_eq_some_iff.mp hplace.read
      refine ⟨n, item, { hplace with order := ?_, read := ?_ }⟩
      · rw [ha.order, getElem?_append_left hlt, hplace.order]
      · exact (getElem?_append_left hlt').trans hplace.read
  texts := ha.texts

/-- An item changes, and the reader changes it in the same way. -/
theorem Changes.inStep (hc : Changes ref s s' v v') (h : InStep s t) {f : OutputItem → OutputItem}
    (hf : ∀ item, item.text = v.text → item.done = v.done →
      (f item).type = item.type ∧ (f item).text = v'.text ∧ (f item).done = v'.done) :
    InStep s' (t.modifyAt (some v.index) f) := by
  obtain ⟨n, item, hplaced⟩ := h.place ref v hc.old
  rw [hplaced.index, modifyAt_natCast]
  refine ⟨hc.sent.trans h.sent, h.created, h.running, ?_, ?_, hc.order ▸ h.nodup, ?_, ?_, hc.texts⟩
  · rw [hc.next, h.next, length_modify]
  · rw [hc.order, h.length, length_modify]
  · intro r hr
    rw [hc.view]
    split
    · exact ⟨v', rfl⟩
    · exact h.known r (hc.order ▸ hr)
  · intro r w hw
    rw [hc.view] at hw
    split at hw
    · rename_i hr
      obtain rfl := some.inj hw
      obtain ⟨htype', htext', hdone'⟩ := hf item hplaced.text hplaced.done
      refine ⟨n, f item, ⟨hc.kept.1.trans hplaced.index, ?_, ?_, ?_, htext', hdone'⟩⟩
      · rw [hc.order, hr, hplaced.order]
      · simp [hplaced.read]
      · rw [htype', hplaced.type, hc.kept.2]
    · rename_i hne
      obtain ⟨m, item', hplaced'⟩ := h.place r w hw
      -- the other items are at other places
      have hmn : n ≠ m := by
        rintro rfl
        exact hne (some.inj (hplaced'.order.symm.trans hplaced.order))
      refine ⟨m, item', { hplaced' with order := hc.order ▸ hplaced'.order, read := ?_ }⟩
      simp [hmn, hplaced'.read]

theorem Announces.reads (ha : Announces ref s s' v event) (h : InStep s t) :
    t.Allowed event ∧ InStep s' (t.next event) ∧ v.Takes (t.next event).itemIDs v.id := by
  obtain ⟨out, hout, hpair⟩ := map_eq_some_iff.mp ha.item
  obtain ⟨htype, hid⟩ := Prod.ext_iff.mp hpair
  -- the index of the event is the place of the new item
  have hindex : event.outputIndex = some (t.items.length : Int) := by
    rw [ha.index, ha.fresh.1, h.next]
  have hnext : t.next event = { t with items := t.items ++ [{ type := v.type, id := v.id }] } := by
    rw [OutputState.next, ha.type]
    simp only [ResponsesEventType.role, hout, toList_some, map_cons, map_nil]
    rw [show out.type = v.type from htype, show out.id = v.id from hid]
  refine ⟨⟨h.running, ?_⟩, ?_, ?_⟩
  · rw [ha.type]
    refine ⟨h.created, hindex, by rw [hout]; rfl, ha.itemID.imp id fun hsame => ?_⟩
    rw [hout, map_some, hsame, show out.id = v.id from hid]
  · rw [hnext]
    exact ha.inStep h v.id
  · refine ⟨ha.fresh.2.2, ?_⟩
    have hannounced : AnnouncedAs (t.next event).itemIDs (t.items.length : Int) v.id := by
      rw [hnext]
      show ((t.items ++ [_]).map OutputItem.id)[t.items.length]? = some v.id
      simp
    rwa [ha.fresh.1, h.next]

/-- A delta. -/
theorem Changes.write (hc : Changes ref s s' v v') (h : InStep s t)
    (hrole : event.type.role = .writes v.type)
    (hindex : event.outputIndex = some v.index) (htext : v'.text = v.text ++ event.delta)
    (hdone : v'.done = v.done) :
    (t.Allowed event ↔ v.Takes t.itemIDs event.itemID) ∧ InStep s' (t.next event) := by
  obtain ⟨n, item, hplaced⟩ := h.place ref v hc.old
  refine ⟨hplaced.writes_iff hindex h.running (.inl hrole), ?_⟩
  rw [OutputState.next, hrole, hindex]
  refine hc.inStep h fun item ht hd => ⟨rfl, ?_, ?_⟩
  · show item.text ++ event.delta = v'.text
    rw [ht, htext]
  · exact hd.trans hdone.symm

/-- The end of the deltas, and then of the item. -/
theorem Changes.close (hc : Changes ref s s' v v') (h : InStep s t) (hopen : v.done = false)
    (htext : v'.text = v.text) (hdone : v'.done = true) {completed closed : ResponsesStreamResponse}
    {id : String}
    (hcompleted : completed.type.role = .completes v.type ∧ completed.outputIndex = some v.index ∧
      completed.itemID = id)
    (hclosed : closed.type.role = .closes ∧ closed.outputIndex = some v.index ∧
      closed.item.map (fun out => (out.type, out.id)) = some (v.type, id)) :
    (Along Allowed OutputState.next t [completed, closed] ↔ AnnouncedAs t.itemIDs v.index id) ∧
      InStep s' (exec OutputState.next t [completed, closed]) := by
  obtain ⟨n, item, hplaced⟩ := h.place ref v hc.old
  obtain ⟨out, hout, hpair⟩ := map_eq_some_iff.mp hclosed.2.2
  obtain ⟨htype, hid⟩ := Prod.ext_iff.mp hpair
  have hsame : t.next completed = t := by rw [OutputState.next, hcompleted.1]
  have htakes : v.Takes t.itemIDs id ↔ AnnouncedAs t.itemIDs v.index id := and_iff_right hopen
  constructor
  · rw [along_cons, along_cons, hsame,
      hplaced.writes_iff hcompleted.2.1 h.running (.inr hcompleted.1),
      hplaced.closes_iff hclosed.2.1 h.running hclosed.1 hout htype, hcompleted.2.2,
      show out.id = id from hid, htakes]
    exact ⟨fun hall => hall.1, fun hone => ⟨hone, hone, along_nil _⟩⟩
  · rw [exec_cons, exec_cons, exec_nil, hsame, OutputState.next, hclosed.1, hclosed.2.1]
    exact hc.inStep h fun item ht _ => ⟨rfl, ht.trans htext.symm, hdone.symm⟩

/-! ### Deltas -/

/-- The events of a step of the converter, as the reader takes them. -/
abbrev ReaderTakes (f : ResponsesStep) (s : ChatToResponsesStreamState) (t : OutputState) (C : Prop)
    (Q : ChatToResponsesStreamState → OutputState → Prop) : Prop :=
  Emitter.Spec Allowed OutputState.next f s t C Q

section Deltas

/-- `write` sends a delta for item `ref`. -/
def WritesTo (ref : ChatToResponsesOutputRef) (write : ResponsesStep) : Prop :=
  ∀ s v, s.view ref = some v → TextsBegin s →
    ∃ s' v' event, write s = (s', [event]) ∧ Changes ref s s' v v' ∧
    event.type.role = .writes v.type ∧ event.outputIndex = some v.index ∧ event.itemID = v.id ∧
    v'.text = v.text ++ event.delta ∧ v'.done = v.done

/-- `start` announces item `ref`, unless it is started. -/
structure Starts (ref : ChatToResponsesOutputRef) (start : ResponsesStep) : Prop where
  known : ∀ s v, s.view ref = some v → start s = (s, [])
  new : ∀ s, s.view ref = none → TextsBegin s →
    ∃ s' v event, start s = (s', [event]) ∧ Announces ref s s' v event

variable {tool : ChatToResponsesStreamTool} {write : ResponsesStep}

theorem write_reads (hwrite : WritesTo ref write) (h : InStep s t)
    (hv : s.view ref = some v) : ReaderTakes write s t (v.Takes t.itemIDs v.id) InStep := by
  obtain ⟨s', v', event, hstep, hchanges, hrole, hindex, hid, htext, hdone⟩ := hwrite s v hv h.texts
  obtain ⟨hallowed, hnext⟩ := hchanges.write h hrole hindex htext hdone
  constructor
  · rw [hstep, along_cons, hallowed, hid]
    exact and_iff_left (along_nil _)
  · intro _
    rw [hstep]
    exact hnext

/-- A delta for an item that may have to be started first. -/
theorem start_write_reads {start : ResponsesStep} (hstart : Starts ref start)
    (hwrite : WritesTo ref write) (h : InStep s t) :
    ReaderTakes (start.seq write) s t (∀ v ∈ s.view ref, v.Takes t.itemIDs v.id) InStep := by
  cases hview : s.view ref with
  | some v =>
    exact (Emitter.Spec.after (hstart.known s v hview) (along_nil _)
      (write_reads hwrite h hview)).given (by simp)
  | none =>
    obtain ⟨s', v, event, hstep, hannounces⟩ := hstart.new s hview h.texts
    obtain ⟨hallowed, hnext, htakes⟩ := hannounces.reads h
    have hv : s'.view ref = some v := by rw [hannounces.view, if_pos rfl]
    exact (Emitter.Spec.after hstep ⟨hallowed, along_nil _⟩ (write_reads hwrite hnext hv)).given
      (iff_of_true htakes (by simp))

theorem view_message (hv : s.view .message = some v) :
    s.textStarted = true ∧ v = ⟨s.textOutputIndex, .message, s.messageID, s.text, s.textDone⟩ := by
  cases hstarted : s.textStarted with
  | true => exact ⟨rfl, by simpa [view, hstarted, eq_comm] using hv⟩
  | false => simp [view, hstarted] at hv

theorem view_reasoning (hv : s.view .reasoning = some v) :
    s.reasoningStarted = true ∧
      v = ⟨s.reasoningIndex, .reasoning, s.reasoningID, s.reasoning, s.reasoningDone⟩ := by
  cases hstarted : s.reasoningStarted with
  | true => exact ⟨rfl, by simpa [view, hstarted, eq_comm] using hv⟩
  | false => simp [view, hstarted] at hv

theorem Changes.message (hv : s.view .message = some v) (htexts : TextsBegin s) (text : String)
    (textDone : Bool) :
    Changes .message s { s with text, textDone } v { v with text, done := textDone } := by
  obtain ⟨hstarted, rfl⟩ := view_message hv
  refine ⟨hv, fun r => ?_, ⟨rfl, rfl⟩, rfl, rfl, rfl, ⟨fun hnot => ?_, htexts.reasoning⟩⟩
  · cases r with
    | message => exact if_pos hstarted
    | reasoning => rfl
    | tool k => rfl
  · exact absurd hnot (by simp [hstarted])

theorem Changes.reasoning (hv : s.view .reasoning = some v) (htexts : TextsBegin s)
    (reasoning : String)
    (reasoningDone : Bool) : Changes .reasoning s { s with reasoning, reasoningDone } v
      { v with text := reasoning, done := reasoningDone } := by
  obtain ⟨hstarted, rfl⟩ := view_reasoning hv
  refine ⟨hv, fun r => ?_, ⟨rfl, rfl⟩, rfl, rfl, rfl, ⟨htexts.text, fun hnot => ?_⟩⟩
  · cases r with
    | reasoning => exact if_pos hstarted
    | message => rfl
    | tool k => rfl
  · exact absurd hnot (by simp [hstarted])

theorem startText_starts : Starts .message startText where
  known := by
    intro s v hv
    exact if_pos (view_message hv).1
  new := by
    intro s hnew htexts
    have hstarted : s.textStarted = false := by
      by_contra hnot
      simp [view, hnot] at hnew
    -- nothing was written before the start
    have hblank := htexts.text hstarted
    refine ⟨_, ⟨s.nextOutputIndex, .message, s.messageID, "", false⟩, _,
      if_neg (by simp [hstarted]), ?_⟩
    refine ⟨hnew, fun r => ?_, ⟨rfl, rfl, rfl⟩, rfl, rfl, rfl, ⟨nofun, htexts.reasoning⟩, rfl, rfl,
      rfl, .inl rfl⟩
    cases r with
    | message =>
      rw [if_pos rfl, ← hblank.1, ← hblank.2]
      rfl
    | reasoning => rfl
    | tool k => rfl

theorem startReasoning_starts : Starts .reasoning startReasoning where
  known := by
    intro s v hv
    exact if_pos (view_reasoning hv).1
  new := by
    intro s hnew htexts
    have hstarted : s.reasoningStarted = false := by
      by_contra hnot
      simp [view, hnot] at hnew
    have hblank := htexts.reasoning hstarted
    refine ⟨_, ⟨s.nextOutputIndex, .reasoning, s.reasoningID, "", false⟩, _,
      if_neg (by simp [hstarted]), ?_⟩
    refine ⟨hnew, fun r => ?_, ⟨rfl, rfl, rfl⟩, rfl, rfl, rfl, ⟨htexts.text, nofun⟩, rfl, rfl, rfl,
      .inl rfl⟩
    cases r with
    | reasoning =>
      rw [if_pos rfl, ← hblank.1, ← hblank.2]
      rfl
    | message => rfl
    | tool k => rfl

theorem text_reads (h : InStep s t) (delta : String) :
    ReaderTakes (appendTextDelta delta) s t (Fits (s, t.itemIDs) (.text delta)) InStep := by
  refine start_write_reads startText_starts (fun s v hv htexts => ?_) h
  obtain ⟨-, rfl⟩ := view_message hv
  exact ⟨_, _, _, rfl, .message hv htexts (s.text ++ delta) s.textDone, rfl, rfl, rfl, rfl, rfl⟩

theorem reasoning_reads (h : InStep s t) (delta : String) :
    ReaderTakes (appendReasoningDelta delta) s t (Fits (s, t.itemIDs) (.reasoning delta))
      InStep := by
  refine start_write_reads startReasoning_starts (fun s v hv htexts => ?_) h
  obtain ⟨-, rfl⟩ := view_reasoning hv
  exact ⟨_, _, _, rfl, .reasoning hv htexts (s.reasoning ++ delta) s.reasoningDone, rfl, rfl, rfl,
    rfl, rfl⟩

/-- A tool call as an output item. -/
def ChatToResponsesStreamTool.view (tool : ChatToResponsesStreamTool) : OutputView :=
  ⟨tool.outputIndex, .functionCall, tool.id, tool.arguments, tool.done⟩

theorem view_tool {k : Int} (hv : s.view (.tool k) = some v) :
    ∃ tool, s.toolsByIndex.lookup k = some tool ∧
      v = tool.view := by
  obtain ⟨tool, htool, rfl⟩ := map_eq_some_iff.mp hv
  exact ⟨tool, htool, rfl⟩

/-- One tool call is written. -/
theorem view_insert_tool (k : Int) (tool : ChatToResponsesStreamTool)
    (htools : s'.toolsByIndex = s.toolsByIndex.insert k tool)
    (hmessage : s'.view .message = s.view .message)
    (hreasoning : s'.view .reasoning = s.view .reasoning) (r : ChatToResponsesOutputRef) :
    s'.view r = if r = .tool k then
      some tool.view else s.view r := by
  cases r with
  | message => simpa using hmessage
  | reasoning => simpa using hreasoning
  | tool k' =>
    simp only [view, htools, Dict.lookup_insert_of, ChatToResponsesOutputRef.tool.injEq]
    split <;> rfl

/-- Nothing is sent. -/
theorem Changes.silent (hc : Changes ref s s' v v')
    (h : InStep s t) (htext : v'.text = v.text) (hdone : v'.done = v.done) : InStep s' t := by
  have hsame : t.modifyAt (some v.index) id = t := by
    obtain ⟨n, item, hplaced⟩ := h.place ref v hc.old
    rw [hplaced.index, modifyAt_natCast, modify_id]
  rw [← hsame]
  exact hc.inStep h fun item ht hd => ⟨rfl, ht.trans htext.symm, hd.trans hdone.symm⟩

/-- The arguments of a delta for a tool call that is announced. -/
theorem arguments_reads {arguments : String} {f : ResponsesStep} (h : InStep s t)
    (hc : Changes ref s s' v tool.view)
    (htext : tool.arguments = v.text ++ arguments) (hdone : tool.done = v.done)
    (hstep : f s = (s', argumentsEvents tool arguments)) :
    ReaderTakes f s t (arguments ≠ "" → v.Takes t.itemIDs tool.id) InStep := by
  have htype : ResponsesOutputType.functionCall = v.type := hc.kept.2
  -- empty arguments are not sent, and the reader sees no event
  by_cases hempty : arguments = ""
  · rw [argumentsEvents, if_neg (not_not_intro hempty)] at hstep
    rw [hempty, String.append_empty] at htext
    constructor
    · rw [hstep]
      exact ⟨fun _ hne => absurd hempty hne, fun _ => along_nil _⟩
    · intro _
      rw [hstep]
      exact hc.silent h htext hdone
  · obtain ⟨event, hevents, hrole, hindex, hid, hdelta⟩ :
        ∃ event, argumentsEvents tool arguments = [event] ∧
        event.type.role = .writes v.type ∧ event.outputIndex = some v.index ∧
          event.itemID = tool.id ∧
        event.delta = arguments :=
      ⟨_, if_pos hempty, congrArg EventRole.writes htype, congrArg some hc.kept.1, rfl, rfl⟩
    rw [hevents] at hstep
    obtain ⟨hallowed, hnext⟩ := hc.write h hrole hindex (hdelta ▸ htext) hdone
    constructor
    · rw [hstep, along_cons, hallowed, hid]
      exact ⟨fun hall _ => hall.1, fun htakes => ⟨htakes hempty, along_nil _⟩⟩
    · intro _
      rw [hstep]
      exact hnext

theorem idAfter_eq (toolCall : ToolCallResponse) :
    (tool.add toolCall).id = idAfter toolCall tool.id := by
  simp only [ChatToResponsesStreamTool.add, idAfter]

/-- The state after a delta for a tool call that is announced. -/
theorem tool_changes (k : Int) {added : ChatToResponsesStreamTool} (htexts : TextsBegin s)
    (hview : s.view (.tool k) = some tool.view)
    (hindex : added.outputIndex = tool.outputIndex) :
    Changes (.tool k) s { s with toolsByIndex := s.toolsByIndex.insert k added }
      tool.view
      added.view :=
  ⟨hview, view_insert_tool k added rfl rfl rfl, ⟨hindex, rfl⟩, rfl, rfl, rfl,
    ⟨htexts.text, htexts.reasoning⟩⟩

theorem tool_reads (h : InStep s t) (toolCall : ToolCallResponse) :
    ReaderTakes (appendToolCallDelta toolCall) s t (Fits (s, t.itemIDs) (.tool toolCall))
      InStep := by
  cases hk : s.toolsByIndex.lookup (toolCall.index.getD 0) with
  | some tool =>
    have hview : s.view (.tool (toolCall.index.getD 0)) = some tool.view := by
      rw [view, hk]
      rfl
    have hstep : appendToolCallDelta toolCall s =
        ({ s with toolsByIndex :=
          s.toolsByIndex.insert (toolCall.index.getD 0) (tool.add toolCall) },
          argumentsEvents (tool.add toolCall) toolCall.function.arguments) := by
      simp [appendToolCallDelta, hk]
    have hchanges := tool_changes _ h.texts hview (tool.add_outputIndex toolCall)
    refine (arguments_reads h hchanges (tool.add_arguments toolCall) (tool.add_done toolCall)
      hstep).given ?_
    simp only [Fits, hview, mem_def, Option.some.injEq, forall_eq', idAfter_eq]
    rfl
  | none =>
    have hview : s.view (.tool (toolCall.index.getD 0)) = none := by
      rw [view, hk, map_none]
    generalize hopened : openedTool s (toolCall.index.getD 0) s.nextOutputIndex toolCall = tool
    have hindex : tool.outputIndex = s.nextOutputIndex := by rw [← hopened, openedTool]
    have harguments : tool.arguments = "" := by rw [← hopened, openedTool]
    have hdone : tool.done = false := by rw [← hopened, openedTool]
    have hid : (tool.add toolCall).id = tool.id := by
      rw [idAfter_eq, idAfter, ← hopened, openedTool]
      by_cases hblank : trimSpace toolCall.id = "" <;> simp [hblank]
    -- the tool call is announced, and then takes the delta that announced it
    let announced : ChatToResponsesStreamState :=
      { s with
        nextOutputIndex := s.nextOutputIndex + 1
        outputOrder := s.outputOrder ++ [.tool (toolCall.index.getD 0)]
        toolsByIndex := s.toolsByIndex.insert (toolCall.index.getD 0) tool }
    have hstep : appendToolCallDelta toolCall s = seq (fun _ => (announced, [toolAdded tool]))
          (fun s =>
            ({ s with toolsByIndex :=
              s.toolsByIndex.insert (toolCall.index.getD 0) (tool.add toolCall) },
            argumentsEvents (tool.add toolCall) toolCall.function.arguments)) s := by
      simp only [appendToolCallDelta, hk, nextIndex, hopened, seq, announced, AList.insert_insert]
    have hannounces : Announces (.tool (toolCall.index.getD 0)) s announced
        tool.view (toolAdded tool) :=
      ⟨hview, view_insert_tool _ _ rfl rfl rfl, ⟨hindex, harguments, hdone⟩, rfl, rfl, rfl,
        ⟨h.texts.text, h.texts.reasoning⟩, rfl, rfl, rfl, .inr rfl⟩
    obtain ⟨hallowed, hnext, htakes⟩ := hannounces.reads h
    have hannounced : announced.view (.tool (toolCall.index.getD 0)) = some tool.view := by
      rw [hannounces.view, if_pos rfl]
    have hchanges := tool_changes _ hnext.texts hannounced (tool.add_outputIndex toolCall)
    refine .congr hstep (.given (.after rfl ⟨hallowed, along_nil _⟩
      (arguments_reads hnext hchanges (tool.add_arguments toolCall) (tool.add_done toolCall) rfl))
        ?_)
    rw [hid]
    exact iff_of_true (fun _ => htakes) (by simp [Fits, hview])

end Deltas

/-! ### Closing -/

def OutputView.close (v : OutputView) : OutputView := { v with done := true }

/-- From `s` to `s'` the items `refs` were closed. -/
structure ClosedBy (refs : List ChatToResponsesOutputRef)
    (s s' : ChatToResponsesStreamState) : Prop where
  order : s'.outputOrder = s.outputOrder
  view : ∀ r, s'.view r = if r ∈ refs then (s.view r).map OutputView.close else s.view r

/-- What is asked of an item before it is closed. -/
def ClosesAs (s : ChatToResponsesStreamState) (ids : List String)
    (ref : ChatToResponsesOutputRef) : Prop :=
  ∀ v ∈ s.view ref, v.done = false → AnnouncedAs ids v.index v.id

/-- `close` closes item `ref`, unless there is none that is open. -/
structure ClosesItem (ref : ChatToResponsesOutputRef) (close : ResponsesStep) : Prop where
  skip : ∀ s, (∀ v ∈ s.view ref, v.done = true) → close s = (s, [])
  shut : ∀ s v, s.view ref = some v → v.done = false → TextsBegin s →
    ∃ s' completed closed, close s = (s', [completed, closed]) ∧ Changes ref s s' v v.close ∧
      (completed.type.role = .completes v.type ∧ completed.outputIndex = some v.index ∧
        completed.itemID = v.id) ∧
      (closed.type.role = .closes ∧ closed.outputIndex = some v.index ∧
        closed.item.map (fun out => (out.type, out.id)) = some (v.type, v.id))

theorem addedID_of_role (h : event.type.role ≠ .adds) : addedID event = [] :=
  if_neg fun htype => h ((role_eq_adds _).mpr htype)

theorem close_reads {close : ResponsesStep} (hclose : ClosesItem ref close) (h : InStep s t) :
    ReaderTakes close s t (ClosesAs s t.itemIDs ref)
      fun s' t' => InStep s' t' ∧ t'.itemIDs = t.itemIDs ∧ ClosedBy [ref] s s' := by
  -- an item that is closed already is skipped without an event
  by_cases hopen : ∃ v, s.view ref = some v ∧ v.done = false
  · obtain ⟨v, hv, hdone⟩ := hopen
    obtain ⟨s', completed, closed, hstep, hchanges, hcompleted, hclosed⟩ :=
      hclose.shut s v hv hdone h.texts
    obtain ⟨halong, hafter⟩ := hchanges.close h hdone rfl rfl hcompleted hclosed
    constructor
    · rw [hstep, halong, ClosesAs, hv]
      simp [hdone]
    · intro _
      rw [hstep]
      refine ⟨hafter, ?_, hchanges.order, fun r => ?_⟩
      · have hcompleted' : completed.type.role ≠ .adds := by rw [hcompleted.1]; exact nofun
        have hclosed' : closed.type.role ≠ .adds := by rw [hclosed.1]; exact nofun
        rw [itemIDs_exec]
        simp [addedID_of_role hcompleted', addedID_of_role hclosed']
      · rw [hchanges.view]
        by_cases hr : r = ref
        · simp [hr, hv]
        · simp [hr]
  · have hdone : ∀ v ∈ s.view ref, v.done = true := by
      intro v hv
      by_contra hnot
      exact hopen ⟨v, hv, by simpa using hnot⟩
    have hstep := hclose.skip s hdone
    constructor
    · rw [hstep]
      refine iff_of_true (along_nil _) fun v hv hnot => ?_
      rw [hdone v hv] at hnot
      cases hnot
    · intro _
      rw [hstep]
      refine ⟨h, rfl, rfl, fun r => ?_⟩
      by_cases hr : r = ref
      · subst hr
        rw [if_pos (mem_singleton_self r)]
        cases hv : s.view r with
        | none => rfl
        | some v =>
          rw [map_some, OutputView.close, ← hdone v hv]
      · rw [if_neg (by simpa using hr)]

theorem closeItem_closes : ClosesItem ref (closeItem ref) := by
  cases ref with
  | message =>
    constructor
    · intro s hdone
      refine if_neg fun ⟨hstarted, hopen⟩ => ?_
      exact absurd (hopen.symm.trans (hdone _ (if_pos hstarted))) (by simp)
    · intro s v hv hopen htexts
      obtain ⟨hstarted, rfl⟩ := view_message hv
      exact ⟨_, _, _, if_pos ⟨hstarted, hopen⟩, .message hv htexts s.text true, ⟨rfl, rfl, rfl⟩,
        ⟨rfl, rfl, rfl⟩⟩
  | reasoning =>
    constructor
    · intro s hdone
      refine if_neg fun ⟨hstarted, hopen⟩ => ?_
      exact absurd (hopen.symm.trans (hdone _ (if_pos hstarted))) (by simp)
    · intro s v hv hopen htexts
      obtain ⟨hstarted, rfl⟩ := view_reasoning hv
      exact ⟨_, _, _, if_pos ⟨hstarted, hopen⟩, .reasoning hv htexts s.reasoning true,
        ⟨rfl, rfl, rfl⟩, ⟨rfl, rfl, rfl⟩⟩
  | tool k =>
    constructor
    · -- the tool may be unknown, or done already
      intro s hdone
      cases hk : s.toolsByIndex.lookup k with
      | none => simp only [closeItem, doneTool, hk]
      | some tool =>
        have hall : tool.done = true := hdone tool.view (by rw [view, hk]; rfl)
        simp [closeItem, doneTool, hk, hall]
    · intro s v hv hopen htexts
      obtain ⟨tool, hk, rfl⟩ := view_tool hv
      have hopen' : tool.done = false := hopen
      refine ⟨{ s with toolsByIndex := s.toolsByIndex.insert k { tool with done := true } },
        { type := .functionArgsDone, outputIndex := some tool.outputIndex, itemID := tool.id },
        { type := .outputItemDone, outputIndex := some tool.outputIndex,
          item := some (toolOutput tool s.status) },
        ?_,
        ⟨hv, view_insert_tool k { tool with done := true } rfl rfl rfl, ⟨rfl, rfl⟩, rfl, rfl, rfl,
          ⟨htexts.text, htexts.reasoning⟩⟩,
        ⟨rfl, rfl, rfl⟩, ⟨rfl, rfl, rfl⟩⟩
      simp [closeItem, doneTool, hk, hopen']

variable {s₁ : ChatToResponsesStreamState}

theorem ClosedBy.cons {s₂ : ChatToResponsesStreamState} {refs : List ChatToResponsesOutputRef}
    (h : ClosedBy [ref] s s₁) (h' : ClosedBy refs s₁ s₂) : ClosedBy (ref :: refs) s s₂ where
  order := h'.order.trans h.order
  view := by
    have htwice : OutputView.close ∘ OutputView.close = OutputView.close := rfl
    intro r
    rw [h'.view, h.view]
    by_cases hr : r = ref
    · by_cases hin : r ∈ refs
      · rw [if_pos hin, if_pos (mem_singleton.mpr hr), if_pos (mem_cons_of_mem ref hin),
          Option.map_map, htwice]
      · rw [if_neg hin, if_pos (mem_singleton.mpr hr), if_pos (mem_cons.mpr (.inl hr))]
    · simp [hr]

/-- A closed item has nothing to meet any more, and the others are as before. -/
theorem ClosedBy.closesAs_iff (h : ClosedBy [ref] s s₁) (ids : List String)
    (r : ChatToResponsesOutputRef) : ClosesAs s₁ ids r ↔ (r ≠ ref → ClosesAs s ids r) := by
  rw [ClosesAs, h.view]
  by_cases hr : r = ref
  · refine iff_of_true ?_ fun hne => absurd hr hne
    rw [if_pos (mem_singleton.mpr hr)]
    intro v hv hopen
    obtain ⟨w, -, rfl⟩ := map_eq_some_iff.mp hv
    cases hopen
  · rw [if_neg (by simpa using hr)]
    exact ⟨fun hall _ => hall, fun hall => hall hr⟩

/-- Several items are closed. -/
theorem close_all_reads (refs : List ChatToResponsesOutputRef) (h : InStep s t) :
    ReaderTakes (drive closeItem refs) s t (∀ ref ∈ refs, ClosesAs s t.itemIDs ref)
      fun s' t' => InStep s' t' ∧ t'.itemIDs = t.itemIDs ∧ ClosedBy refs s s' := by
  induction refs generalizing s t with
  | nil => exact (Emitter.Spec.skip ⟨h, rfl, rfl, by simp⟩).given (by simp)
  | cons ref refs ih =>
    rw [drive_cons]
    -- the items after the first are as they were before it was closed
    have hrest : ∀ s₁ t₁, InStep s₁ t₁ ∧ t₁.itemIDs = t.itemIDs ∧ ClosedBy [ref] s s₁ →
        ReaderTakes (drive closeItem refs) s₁ t₁ (∀ r ∈ refs, r ≠ ref → ClosesAs s t.itemIDs r)
          fun s' t' => InStep s' t' ∧ t'.itemIDs = t.itemIDs ∧ ClosedBy (ref :: refs) s s' := by
      rintro s₁ t₁ ⟨h₁, hids, hclosed⟩
      refine (ih h₁).weaken (forall₂_congr fun r _ => ?_) fun s₂ t₂ ⟨h₂, hids₂, hclosed₂⟩ => ?_
      · rw [hids]
        exact hclosed.closesAs_iff t.itemIDs r
      · exact ⟨h₂, hids₂.trans hids, hclosed.cons hclosed₂⟩
    refine ((close_reads closeItem_closes h).seq hrest).given ?_
    constructor
    · rintro ⟨hfirst, hrest⟩ r hr
      by_cases hsame : r = ref
      · exact hsame ▸ hfirst
      · exact hrest r ((mem_cons.mp hr).resolve_left hsame) hsame
    · intro hall
      obtain ⟨hfirst, hrest⟩ := forall_mem_cons.mp hall
      exact ⟨hfirst, fun r hr _ => hrest r hr⟩

theorem mem_closingOrder (hv : s.view ref = some v) : ref ∈ closingOrder s := by
  cases ref with
  | message => exact mem_cons_self
  | reasoning => exact mem_cons_of_mem _ mem_cons_self
  | tool k =>
    obtain ⟨tool, hk, -⟩ := view_tool hv
    refine mem_cons_of_mem _ (mem_cons_of_mem _ (mem_map_of_mem ?_))
    exact (mem_insertionSort _).mpr (Dict.mem_keys_iff.mpr ⟨tool, hk⟩)

theorem InStep.mem_outputOrder (h : InStep s t) (hv : s.view ref = some v) :
    ref ∈ s.outputOrder := by
  obtain ⟨n, item, hplaced⟩ := h.place ref v hv
  exact mem_of_getElem? hplaced.order

/-- Whatever order items are closed in, what is asked of them is the same. -/
theorem closing_iff (h : InStep s t) (ids : List String) :
    (∀ ref ∈ closingOrder s, ClosesAs s ids ref) ↔ ∀ ref ∈ s.outputOrder, ClosesAs s ids ref := by
  constructor
  · intro hall ref _ v hv
    exact hall ref (mem_closingOrder hv) v hv
  · intro hall ref _ v hv
    exact hall ref (h.mem_outputOrder hv) v hv

/-- After all items are closed, no item is open. -/
theorem ClosedBy.all (h : ClosedBy (closingOrder s) s s') (r : ChatToResponsesOutputRef) :
    s'.view r = (s.view r).map OutputView.close := by
  rw [h.view]
  by_cases hr : r ∈ closingOrder s
  · exact if_pos hr
  · have hnone : s.view r = none :=
      eq_none_iff_forall_ne_some.mpr fun v hv => hr (mem_closingOrder hv)
    rw [if_neg hr, hnone, map_none]

theorem done_reads (h : InStep s t) :
    ReaderTakes doneDeltaEvents s t (∀ ref ∈ s.outputOrder, ClosesAs s t.itemIDs ref)
      fun s' t' => InStep s' t' ∧ t'.itemIDs = t.itemIDs ∧ ClosedBy (closingOrder s) s s' :=
  Emitter.Spec.congr (doneDeltaEvents_eq s)
    ((close_all_reads (closingOrder s) h).given (closing_iff h t.itemIDs))

/-- Ids may change, and nothing that is in no item. -/
theorem InStep.renamed (h : InStep s t)
    (hview : ∀ r, (s'.view r).map (fun v => { v with id := "" }) =
      (s.view r).map fun v => { v with id := "" })
    (hsent : s'.sentCreated = true) (hnext : s'.nextOutputIndex = s.nextOutputIndex)
    (horder : s'.outputOrder = s.outputOrder) (htexts : TextsBegin s') : InStep s' t where
  sent := hsent
  created := h.created
  running := h.running
  next := hnext.trans h.next
  length := horder ▸ h.length
  nodup := horder ▸ h.nodup
  known := by
    intro r hr
    obtain ⟨v, hv⟩ := h.known r (horder ▸ hr)
    have hsame := hview r
    rw [hv, map_some] at hsame
    obtain ⟨w, hw, -⟩ := map_eq_some_iff.mp hsame
    exact ⟨w, hw⟩
  place := by
    intro r v hv
    have hsame := hview r
    rw [hv, map_some] at hsame
    -- up to its id the view is the old one
    obtain ⟨w, hw, heq⟩ := map_eq_some_iff.mp hsame.symm
    obtain ⟨n, item, hplaced⟩ := h.place r w hw
    obtain ⟨hindex, htype, -, htext, hdone⟩ := OutputView.mk.inj heq
    exact ⟨n, item, hindex ▸ hplaced.index, horder ▸ hplaced.order, hplaced.read,
      htype ▸ hplaced.type, htext ▸ hplaced.text, hdone ▸ hplaced.done⟩
  texts := htexts

theorem begins_reads (h : InStep s t) (chunk : ChatCompletionsStreamResponse) :
    ReaderTakes (step (.begins chunk)) s t True InStep := by
  have hstep : step (.begins chunk) s = (applyChunkMetadata chunk s, []) := by
    have hsent : (applyChunkMetadata chunk s).sentCreated = true := h.sent
    simp [step, seq, Emitter.modify, ensureCreated, hsent]
  have hview : ∀ r, ((applyChunkMetadata chunk s).view r).map (fun v => { v with id := "" }) =
      (s.view r).map fun v => { v with id := "" } := by
    intro r
    cases r with
    | message => cases hstarted : s.textStarted <;> simp [view, applyChunkMetadata, hstarted]
    | reasoning =>
      cases hstarted : s.reasoningStarted <;> simp [view, applyChunkMetadata, hstarted]
    | tool k => rfl
  refine Emitter.Spec.congr (g := .modify (applyChunkMetadata chunk)) hstep (.modify ?_)
  exact h.renamed hview h.sent rfl rfl ⟨h.texts.text, h.texts.reasoning⟩

theorem view_outcome (status : ResponsesStatus) (incompleteDetails : Option IncompleteDetails) :
    ({ s with status, incompleteDetails }).view = s.view := by
  funext r
  cases r <;> rfl

theorem finishReason_reads (h : InStep s t) (finishReason : String) :
    ReaderTakes (step (.finish finishReason)) s t (Fits (s, t.itemIDs) (.finish finishReason))
      InStep := by
  have hview : (applyFinishReason finishReason s).view = s.view := by
    rw [applyFinishReason_eq, view_outcome]
  have happlied : InStep (applyFinishReason finishReason s) t := by
    refine h.renamed (fun r => by rw [hview]) ?_ ?_ ?_ ?_ <;> rw [applyFinishReason_eq]
    · exact h.sent
    · exact ⟨h.texts.text, h.texts.reasoning⟩
  have horder : (applyFinishReason finishReason s).outputOrder = s.outputOrder := by
    rw [applyFinishReason_eq]
  refine .weaken (.after rfl (along_nil _) (done_reads happlied)) ?_ fun _ _ hq => hq.1
  simp only [ClosesAs, hview, horder]
  rfl

/-! ### The end of the stream -/

section Ending

variable {c : Announcing}

/-- What the response at the end lists for an item. -/
theorem listed_of_view (hv : s.view ref = some v) :
    (outputOf s ref).map ResponsesOutput.listed =
      some { type := v.type, id := v.id, text := v.text, done := true } := by
  cases ref with
  | message =>
    obtain ⟨-, rfl⟩ := view_message hv
    simp [outputOf, messageOutput, ResponsesOutput.listed, ResponsesOutput.says,
      isResponsesToolOutputType, String.join]
  | reasoning =>
    obtain ⟨-, rfl⟩ := view_reasoning hv
    simp [outputOf, reasoningOutput, ResponsesOutput.listed, ResponsesOutput.says,
      isResponsesToolOutputType, String.join]
  | tool k =>
    obtain ⟨tool, hk, rfl⟩ := view_tool hv
    simp [outputOf, hk, toolOutput, ResponsesOutput.listed, ResponsesOutput.says,
      isResponsesToolOutputType, ResponsesOutput.argumentsString, chatArgumentsRawMessage,
      jsonRawMessageToString, ChatToResponsesStreamTool.view]

/-- An item as the response at the end lists it. -/
def shown (s : ChatToResponsesStreamState) (ref : ChatToResponsesOutputRef) : OutputItem :=
  match s.view ref with
  | some v => { type := v.type, id := v.id, text := v.text, done := true }
  | none => { type := .message, id := "" }

theorem shown_of_view (hv : s.view ref = some v) :
    shown s ref = { type := v.type, id := v.id, text := v.text, done := true } := by
  rw [shown, hv]

theorem InStep.lists (h : InStep s t) :
    (s.outputOrder.filterMap (outputOf s)).map ResponsesOutput.listed =
      s.outputOrder.map (shown s) := by
  rw [map_filterMap, ← filterMap_eq_map]
  refine filterMap_congr fun ref hmem => ?_
  obtain ⟨v, hv⟩ := h.known ref hmem
  rw [listed_of_view hv, Function.comp_apply, shown_of_view hv]

section

variable (hdone : ∀ ref v, s.view ref = some v → v.done = true)

include hdone

/-- The response at the end lists what was read, if all items have kept their ids. -/
theorem InStep.lists_iff (h : InStep s t) :
    s.outputOrder.map (shown s) = t.items ↔ Announcing.Kept (s, t.itemIDs) := by
  constructor
  · intro hsame ref _ v hv
    obtain ⟨n, item, hplaced⟩ := h.place ref v hv
    refine hplaced.announced_iff.mpr ?_
    -- the list shows the id of the item, and the reader has the announced one
    have hread := hplaced.read
    rw [← hsame, getElem?_map, hplaced.order, map_some, shown_of_view hv] at hread
    exact (congrArg OutputItem.id (some.inj hread)).symm
  · intro hkept
    refine ext_getElem? fun n => ?_
    rw [getElem?_map]
    cases hn : s.outputOrder[n]? with
    | none =>
      have hout : t.items.length ≤ n := h.length ▸ List.getElem?_eq_none_iff.mp hn
      exact (List.getElem?_eq_none_iff.mpr hout).symm
    | some ref =>
      have hmem := mem_of_getElem? hn
      obtain ⟨v, hv⟩ := h.known ref hmem
      obtain ⟨m, item, hplaced⟩ := h.place ref v hv
      obtain ⟨hlt, -⟩ := List.getElem?_eq_some_iff.mp hn
      obtain rfl : n = m := (getElem?_inj hlt h.nodup).mp (hn.trans hplaced.order.symm)
      have hid : item.id = v.id := hplaced.announced_iff.mp (hkept ref hmem v hv)
      rw [map_some, hplaced.read, shown_of_view hv, ← hplaced.type, ← hplaced.text, ← hid,
        ← hdone ref v hv, ← hplaced.done]

theorem terminal_reads (h : InStep s t) :
    ReaderTakes terminal s t (Announcing.Kept (s, t.itemIDs)) fun _ t' => t'.ended = true := by
  have hrole : ResponsesEventType.role
      (if s.status = .incomplete then .incomplete else .completed) = .ends := by
    split <;> rfl
  -- the final flag plays no part in the output
  have houtput : outputOf { s with finalized := true } = outputOf s := by
    funext ref
    cases ref <;> rfl
  have hends : ∀ event : ResponsesStreamResponse, event.type.role = .ends →
      event.response = some (finalResponse { s with finalized := true }) →
      (t.Allowed event ↔ Announcing.Kept (s, t.itemIDs)) := by
    intro event hevent hresponse
    rw [← h.lists_iff hdone, ← h.lists, Allowed, hevent]
    show _ ∧ t.Ends event ↔ _
    rw [Ends, hresponse, map_some, Option.some.injEq, finalResponse, houtput]
    exact ⟨fun hall => hall.2.2, fun hlist => ⟨h.running, h.created, hlist⟩⟩
  constructor
  · show Along _ _ t [_] ↔ _
    rw [along_cons, hends _ hrole rfl]
    exact and_iff_left (along_nil _)
  · intro _
    have hended : ∀ event : ResponsesStreamResponse, event.type.role = .ends →
        (t.next event).ended = true := by
      intro event hevent
      rw [OutputState.next, hevent]
    exact hended _ hrole

end

theorem finalize_reads (h : InStep s t) (hopen : s.finalized = false) :
    ReaderTakes finalizeChatCompletionsStreamToResponses s t (Announcing.Kept (s, t.itemIDs))
      fun _ t' => t'.ended = true := by
  refine Emitter.Spec.congr (finalize_eq hopen)
    (((done_reads h).seq (D := Announcing.Kept (s, t.itemIDs)) ?_).given ?_)
  · rintro s₁ t₁ ⟨h₁, hids, hclosed⟩
    have hdone : ∀ ref v, s₁.view ref = some v → v.done = true := by
      intro ref v hv
      rw [hclosed.all] at hv
      obtain ⟨w, -, rfl⟩ := map_eq_some_iff.mp hv
      rfl
    refine (terminal_reads hdone h₁).given ?_
    simp only [Announcing.Kept, hids, hclosed.order, hclosed.all, Option.forall_mem_map]
    rfl
  · exact ⟨fun hall => hall.2, fun hkept => ⟨fun ref hmem v hv _ => hkept ref hmem v hv, hkept⟩⟩

/-! ### Whole streams -/

variable {action : ChatAction}

theorem step_finalized : (action.step s).1.finalized = s.finalized := by
  have hcreated : ∀ s, (ensureCreated s).1.finalized = s.finalized := by
    intro s
    unfold ensureCreated
    split <;> rfl
  cases action with
  | begins chunk => exact hcreated (applyChunkMetadata chunk s)
  | reasoning delta =>
    simp only [step, appendReasoningDelta, seq, Emitter.modify, emitFrom, startReasoning]
    split <;> rfl
  | text delta =>
    simp only [step, appendTextDelta, seq, Emitter.modify, emitFrom, startText]
    split <;> rfl
  | tool toolCall =>
    simp only [step, appendToolCallDelta]
    split <;> rfl
  | finish finishReason =>
    have hdone : ∀ s, (doneDeltaEvents s).1.finalized = s.finalized :=
      fun s => congrArg Prod.fst (doneDeltaEvents_keeps s)
    rw [step, seq_fst, hdone, modify_fst, applyFinishReason_eq]

/-- The ids of the items that an action announces. -/
theorem announces_eq : (action.step s).2.flatMap addedID = action.announces s := by
  -- closing announces nothing
  have hdone : ∀ s, (doneDeltaEvents s).2.flatMap addedID = [] := by
    intro s
    refine flatMap_eq_nil_iff.mpr fun event hevent => if_neg fun htype => ?_
    have hcloses := doneDeltaEvents_emits s event hevent
    simp [htype, closingTypes] at hcloses
  cases action with
  | begins chunk =>
    have hcreated : ∀ s, (ensureCreated s).2.flatMap addedID = [] := by
      intro s
      unfold ensureCreated
      split <;> rfl
    exact hcreated (applyChunkMetadata chunk s)
  | reasoning delta =>
    simp only [step, appendReasoningDelta, seq, Emitter.modify, emitFrom, startReasoning, announces]
    split <;> rfl
  | text delta =>
    simp only [step, appendTextDelta, seq, Emitter.modify, emitFrom, startText, announces]
    split <;> rfl
  | tool toolCall =>
    have harguments : ∀ tool arguments, (argumentsEvents tool arguments).flatMap addedID = [] := by
      intro tool arguments
      unfold argumentsEvents
      split <;> rfl
    simp only [step, appendToolCallDelta, flatMap_append, harguments, append_nil, announces]
    -- a known tool was announced before
    cases hk : s.toolsByIndex.lookup (toolCall.index.getD 0) with
    | some tool => rfl
    | none =>
      simp only [isSome_none, Bool.false_eq_true, if_false, flatMap_singleton, addedID, toolAdded,
        if_true, toList_some, map_cons, map_nil, openedTool, idAfter]
      by_cases hblank : trimSpace toolCall.id = "" <;> simp [hblank]
  | finish finishReason =>
    rw [step, seq_snd, modify_snd, nil_append, hdone]
    rfl

/-- The converter, a reader of its events and the ids of the announcements. -/
structure Following (s : ChatToResponsesStreamState) (t : OutputState) (c : Announcing) : Prop where
  state : c.1 = s
  ids : c.2 = t.itemIDs
  inStep : InStep s t
  running : s.finalized = false

theorem Following.step (h : Following s t c) (action : ChatAction) :
    ReaderTakes action.step s t (action.Fits c) fun s' t' => Following s' t' (c.next action) := by
  obtain ⟨rfl, hids, hin, hrunning⟩ := h
  have hc : c = (c.1, t.itemIDs) := Prod.ext rfl hids
  have hreads : ReaderTakes action.step c.1 t (action.Fits c) InStep := by
    rw [hc]
    cases action with
    | begins chunk => exact begins_reads hin chunk
    | reasoning delta => exact reasoning_reads hin delta
    | text delta => exact text_reads hin delta
    | tool toolCall => exact tool_reads hin toolCall
    | finish finishReason => exact finishReason_reads hin finishReason
  refine ⟨hreads.accepts, fun hfits => ⟨rfl, ?_, hreads.post hfits, step_finalized.trans hrunning⟩⟩
  rw [itemIDs_exec, announces_eq, ← hids]
  rfl

theorem Following.run (h : Following s t c) (actions : List ChatAction) :
    ReaderTakes ((drive ChatAction.step actions).seq finalizeChatCompletionsStreamToResponses) s t
      (Along Fits Announcing.next c actions ∧ (exec Announcing.next c actions).Kept)
      fun _ t' => t'.ended = true := by
  refine (drive_spec (fun _ _ _ action h => h.step action) h actions).seq fun s' t' h' => ?_
  obtain ⟨hstate, hids, hin, hrunning⟩ := h'
  refine (finalize_reads hin hrunning).given (iff_of_eq (congrArg Announcing.Kept ?_))
  exact Prod.ext hstate.symm hids.symm

/-- The first chunk opens the response. -/
theorem following_first (id model : String) (now : Int) (chunk : ChatCompletionsStreamResponse) :
    Following (step (.begins chunk) (newChatToResponsesStreamState id model now)).1
      { created := true }
      (Announcing.next (newChatToResponsesStreamState id model now, []) (.begins chunk)) where
  state := rfl
  ids := rfl
  inStep :=
    { sent := rfl
      created := rfl
      running := rfl
      next := rfl
      length := rfl
      nodup := nodup_nil
      known := fun _ hmem => by cases hmem
      place := by
        intro ref v hv
        cases ref <;> cases hv
      texts := ⟨fun _ => ⟨rfl, rfl⟩, fun _ => ⟨rfl, rfl⟩⟩ }
  running := rfl

end Ending

theorem well_formed_response_iff (id model : String) (now : Int)
    (chunks : List ChatCompletionsStreamResponse) :
    WellFormedResponse (responsesEventsOf (newChatToResponsesStreamState id model now) chunks) ↔
      chunks ≠ [] ∧
        Along Fits Announcing.next (newChatToResponsesStreamState id model now, [])
          (actionsOf chunks) ∧
        (exec Announcing.next (newChatToResponsesStreamState id model now, [])
          (actionsOf chunks)).Kept := by
  cases chunks with
  | nil =>
    -- the terminal event alone, and no `response.created`
    refine iff_of_false (fun hwell => ?_) fun hall => hall.1 rfl
    have hends : Allowed {} { type := .completed, response := some (finalResponse
        { newChatToResponsesStreamState id model now with finalized := true }) } := hwell.1.1
    cases hends.2.1
  | cons chunk chunks =>
    have hactions : actionsOf (chunk :: chunks) =
        .begins chunk :: (chunk.choices.flatMap ChatStreamChoice.actions ++ actionsOf chunks) := rfl
    have hrun := (following_first id model now chunk).run
      (chunk.choices.flatMap ChatStreamChoice.actions ++ actionsOf chunks)
    have hevents : ∃ created, created.type = .created ∧
        responsesEventsOf (newChatToResponsesStreamState id model now) (chunk :: chunks) =
          created :: ((drive step
            (chunk.choices.flatMap ChatStreamChoice.actions ++ actionsOf chunks)).seq
              finalizeChatCompletionsStreamToResponses
              (step (.begins chunk) (newChatToResponsesStreamState id model now)).1).2 := by
      refine ⟨{ type := .created, response := some (createdResponse (applyChunkMetadata chunk
        (newChatToResponsesStreamState id model now))) }, rfl, ?_⟩
      rw [responsesEventsOf_actions, hactions, outputs_cons]
      rfl
    obtain ⟨created, htype, hevents⟩ := hevents
    have hfirst : Allowed {} created := ⟨rfl, by rw [htype]; rfl⟩
    have hopened : OutputState.next {} created = { created := true } := by
      rw [OutputState.next, htype]; rfl
    rw [hevents, WellFormedResponse, along_cons, exec_cons, hopened, hrun.accepts, hactions,
      along_cons, exec_cons]
    constructor
    · rintro ⟨⟨-, halong, hkept⟩, -⟩
      exact ⟨cons_ne_nil _ _, ⟨trivial, halong⟩, hkept⟩
    · rintro ⟨-, ⟨-, halong⟩, hkept⟩
      exact ⟨⟨hfirst, halong, hkept⟩, hrun.post ⟨halong, hkept⟩⟩

/-- The first delta of a tool call has no id, the second one has. -/
theorem late_call_id :
    ¬ WellFormedResponse (responsesEventsOf (newChatToResponsesStreamState "resp" "model" 1)
    [{ choices :=
      [{ delta := { toolCalls := [{ index := some 0, function := { name := "f" } }] } }] },
     { choices := [{ delta := { toolCalls :=
        [{ index := some 0, id := "call", function := { arguments := "args" } }] } }] }]) := by
  decide
