/-
Well-formed streams of Responses events.

A stream opens with one `response.created`.  Its output items are numbered from zero in the order
in which they are added; the events of an item carry its id, its deltas come before it is done, and
it is done once.  The response at the end lists all items, in their order, each with what its
deltas amount to, and nothing comes after it.

* `OutputState` — what a reader of a stream keeps;
* `OutputState.Allowed` — the events that may come next;
* `WellFormedResponse` — a whole stream;
* `itemIDs_exec` — the ids of the items, from the events that added them.
-/
import AcuGateway.Lib.Run
import AcuGateway.ResponsesMessages

/-- An output item, as far as its events have come. -/
structure OutputItem where
  type : ResponsesOutputType
  id : String
  text : String := ""
  done : Bool := false
deriving DecidableEq

variable (out : ResponsesOutput)

/-- What an item of a response says: the arguments of a tool call, the text of another item. -/
def ResponsesOutput.says : String :=
  if isResponsesToolOutputType out.type then out.argumentsString
  else String.join (out.content.map ResponsesOutputContent.text)

/-- An item that a response lists. -/
def ResponsesOutput.listed : OutputItem :=
  { type := out.type, id := out.id, text := out.says, done := true }

/-- What an event is for a reader. -/
inductive EventRole
  | begins
  | adds
  /-- a delta for an item of that type -/
  | writes (type : ResponsesOutputType)
  /-- the end of the deltas -/
  | completes (type : ResponsesOutputType)
  | closes
  | ends
  | unknown
deriving DecidableEq

def ResponsesEventType.role : ResponsesEventType → EventRole
  | .created => .begins
  | .outputItemAdded => .adds
  | .outputTextDelta => .writes .message
  | .reasoningSummaryDelta => .writes .reasoning
  | .functionArgsDelta => .writes .functionCall
  | .outputTextDone => .completes .message
  | .reasoningSummaryDone => .completes .reasoning
  | .functionArgsDone => .completes .functionCall
  | .outputItemDone => .closes
  | .completed | .incomplete => .ends
  | _ => .unknown

/-- What a reader of a stream keeps of the events so far. -/
structure OutputState where
  created : Bool := false
  items : List OutputItem := []
  ended : Bool := false

variable (t : OutputState) (event : ResponsesStreamResponse) (index : Option Int)

namespace OutputState

def itemAt : Option OutputItem :=
  match index with
  | some (.ofNat i) => t.items[i]?
  | _ => none

def modifyAt (f : OutputItem → OutputItem) : OutputState :=
  match index with
  | some (.ofNat i) => { t with items := t.items.modify i f }
  | _ => t

/-- Item number `index` has that type and id, and is not done. -/
def IsOpen (type : ResponsesOutputType) (id : String) : Prop :=
  (t.itemAt index).map (fun item => (item.type, item.id, item.done)) = some (type, id, false)
deriving Decidable

/-- The item that an event is about, open under the id that the event carries. -/
def Closes : Prop :=
  match event.item with
  | some item => t.IsOpen event.outputIndex item.type item.id
  | none => False

instance : Decidable (t.Closes event) := by unfold Closes; split <;> infer_instance

/-- The next item is added, under one id. -/
def Adds : Prop :=
  t.created = true ∧ event.outputIndex = some (t.items.length : Int) ∧ event.item.isSome ∧
    (event.itemID = "" ∨ event.item.map ResponsesOutput.id = some event.itemID)
deriving Decidable

/-- The response lists the items, all of them done. -/
def Ends : Prop :=
  t.created = true ∧
    event.response.map (fun response => response.output.map ResponsesOutput.listed) = some t.items
deriving Decidable

/-- An event with that role may come now. -/
def Takes : EventRole → Prop
  | .begins => t.created = false
  | .adds => t.Adds event
  | .writes type | .completes type => t.IsOpen event.outputIndex type event.itemID
  | .closes => t.Closes event
  | .ends => t.Ends event
  | .unknown => False

instance : DecidablePred (t.Takes event) := fun _ => by unfold Takes; split <;> infer_instance

/-- The event may come now. -/
def Allowed : Prop := t.ended = false ∧ t.Takes event event.type.role
deriving Decidable

def next : OutputState :=
  match event.type.role with
  | .begins => { t with created := true }
  | .adds =>
    { t with items := t.items ++ event.item.toList.map fun item =>
      { type := item.type, id := item.id } }
  | .writes _ =>
    t.modifyAt event.outputIndex fun item => { item with text := item.text ++ event.delta }
  | .closes => t.modifyAt event.outputIndex fun item => { item with done := true }
  | .ends => { t with ended := true }
  | .completes _ | .unknown => t

theorem itemAt_natCast (n : Nat) : t.itemAt (some (n : Int)) = t.items[n]? := rfl

theorem modifyAt_natCast (n : Nat) (f : OutputItem → OutputItem) :
    t.modifyAt (some (n : Int)) f = { t with items := t.items.modify n f } := rfl

end OutputState

open OutputState

variable (events : List ResponsesStreamResponse)

/-- Every event comes where it may come, up to the end. -/
def WellFormedResponse : Prop :=
  Run.Along Allowed OutputState.next {} events ∧ (Run.exec OutputState.next {} events).ended = true
deriving Decidable

/-- The id with which an event adds an item. -/
def addedID : List String :=
  if event.type = .outputItemAdded then event.item.toList.map ResponsesOutput.id else []

def OutputState.itemIDs : List String := t.items.map OutputItem.id

theorem itemIDs_modifyAt {t : OutputState} {f : OutputItem → OutputItem}
    (hf : ∀ item, (f item).id = item.id) :
    (t.modifyAt index f).itemIDs = t.itemIDs := by
  unfold modifyAt
  split
  · refine List.ext_getElem? fun n => ?_
    simp only [itemIDs, List.getElem?_map, List.getElem?_modify]
    cases t.items[n]? with
    | none => rfl
    | some item =>
      simp only [Option.map_some, Option.map_eq_map, Option.some.injEq]
      split
      · exact hf item
      · rfl
  · rfl

theorem role_eq_adds (eventType : ResponsesEventType) :
    eventType.role = .adds ↔ eventType = .outputItemAdded := by
  cases eventType <;> simp [ResponsesEventType.role]

theorem itemIDs_next : (t.next event).itemIDs = t.itemIDs ++ addedID event := by
  have hadded : addedID event = if event.type.role = .adds then
      event.item.toList.map ResponsesOutput.id else [] := by
    simp only [addedID, role_eq_adds]
  rw [hadded, OutputState.next]
  cases event.type.role with
  | adds => simp [itemIDs]
  | writes type => simp [itemIDs_modifyAt]
  | closes => simp [itemIDs_modifyAt]
  | begins | completes | ends | unknown => simp [itemIDs]

/-- The ids of the items are those with which they were added. -/
theorem itemIDs_exec :
    (Run.exec OutputState.next t events).itemIDs = t.itemIDs ++ events.flatMap addedID := by
  induction events generalizing t with
  | nil => simp
  | cons event events ih =>
    rw [Run.exec_cons, ih, itemIDs_next, List.flatMap_cons, List.append_assoc]
