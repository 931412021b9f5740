/-
Well-formed streams of Claude events.

A stream opens with one `message_start`.  Its content blocks are numbered from zero in
the order in which they are started; a block takes deltas of its own type until it is
stopped.  A `message_stop` ends a message whose blocks are all stopped, right after a
`message_delta`.

* `BlockState` — what a reader of a stream keeps;
* `WellFormedEvents` — every event comes where it may come;
* `openType_append`, `along_stops` — the blocks of a reader that has closed the first of
  them, and what it takes to close the others.
-/
import AcuGateway.Lib.Run
import AcuGateway.RelayMessages

open List

structure ContentBlock where
  type : ClaudeMediaType
  isOpen : Bool

/-- What a reader of a stream keeps of the events so far. -/
structure BlockState where
  begun : Bool := false
  blocks : List ContentBlock := []
  /-- the last event was a `message_delta` -/
  afterDelta : Bool := false
  ended : Bool := false

/-- The type of the deltas of a block. -/
def ClaudeMediaType.deltaType : ClaudeMediaType → Option ClaudeMediaType
  | .text => some .textDelta
  | .thinking => some .thinkingDelta
  | .toolUse => some .inputJsonDelta
  | _ => none

variable (t : BlockState)

namespace BlockState

/-- The type of block number `index`, if that block is open. -/
def openType (index : Option Int) : Option ClaudeMediaType :=
  match index with
  | some (.ofNat i) => (t.blocks[i]?.filter ContentBlock.isOpen).map ContentBlock.type
  | _ => none

/-- The block that a stop closes. -/
def closeAt (index : Option Int) : List ContentBlock :=
  match index with
  | some (.ofNat i) => t.blocks.modify i fun block => { block with isOpen := false }
  | _ => t.blocks

variable (event : ClaudeResponse)

def next : BlockState :=
  let read := { t with afterDelta := event.type = .messageDelta }
  match event.type with
  | .messageStart => { read with begun := true }
  | .contentBlockStart =>
    let type := (event.contentBlock.map ClaudeMediaMessage.type).getD .other
    { read with blocks := t.blocks ++ [⟨type, true⟩] }
  | .contentBlockStop => { read with blocks := t.closeAt event.index }
  | .messageStop => { read with ended := true }
  | _ => read

/-- The event may come now. -/
def Allowed : Prop :=
  match event.type with
  | .messageStart => t.begun = false
  | .contentBlockStart => t.begun = true ∧ event.index = some (t.blocks.length : Int)
  | .contentBlockDelta =>
    t.begun = true ∧ (t.openType event.index).isSome ∧
      (t.openType event.index).bind ClaudeMediaType.deltaType =
        event.delta.map ClaudeMediaMessage.type
  | .contentBlockStop => t.begun = true ∧ (t.openType event.index).isSome
  | .messageStop =>
    t.begun = true ∧ t.ended = false ∧ t.afterDelta = true ∧ ∀ block ∈ t.blocks,
      block.isOpen = false
  | _ => t.begun = true

instance : DecidablePred t.Allowed := fun _ => by unfold Allowed; split <;> infer_instance

end BlockState

/-- Every event comes where it may come. -/
def WellFormedEvents (events : List ClaudeResponse) : Prop :=
  Run.Along BlockState.Allowed BlockState.next {} events

/-- The message has begun, and its end has not. -/
structure BlockState.Running (t : BlockState) : Prop where
  begun : t.begun = true
  ended : t.ended = false
  afterDelta : t.afterDelta = false

/-! ### Closed and open blocks -/

variable (type : ClaudeMediaType)

def shut : ContentBlock := ⟨type, false⟩

def opened : ContentBlock := ⟨type, true⟩

namespace BlockState

variable {t : BlockState} {type : ClaudeMediaType} {closed types : List ClaudeMediaType}

/-- Behind the closed blocks stand the open ones. -/
theorem openType_append (hblocks : t.blocks = closed.map shut ++ types.map opened) (offset : Int) :
    t.openType (some (closed.length + offset)) = if 0 ≤ offset then types[offset.toNat]?
      else none := by
  split_ifs with hoffset
  · obtain ⟨n, rfl⟩ := Int.eq_ofNat_of_zero_le hoffset
    have hindex : ((closed.length : Int) + (n : Int)) = Int.ofNat (closed.length + n) := rfl
    rw [hindex, openType, hblocks]
    simp only [getElem?_append_right, length_map, Nat.le_add_right,
      Nat.add_sub_cancel_left, getElem?_map, Int.toNat_natCast]
    cases types[n]? <;> rfl
  · -- a negative offset leads to a closed block, or to none
    cases hindex : (closed.length : Int) + offset with
    | negSucc i => rfl
    | ofNat i =>
      have hlt : i < (closed.map shut).length := by
        rw [length_map]
        have : (i : Int) = closed.length + offset := hindex.symm
        omega
      rw [openType, hblocks]
      simp only [getElem?_append_left hlt, getElem?_map]
      cases closed[i]? <;> rfl

theorem modify_append_cons {α : Type} (f : α → α) (l l' : List α) (a : α) :
    (l ++ a :: l').modify l.length f = l ++ f a :: l' := by
  induction l with
  | nil => rfl
  | cons b l ih => simp [modify_succ_cons, ih]

/-- Stops for `n` blocks from number `first` on. -/
def stopsFrom (first : Int) (n : Nat) : List ClaudeResponse :=
  (List.range n).map fun offset : Nat =>
    { type := .contentBlockStop, index := some (first + offset) }

theorem stopsFrom_succ (first : Int) (n : Nat) : stopsFrom first (n + 1) =
      { type := .contentBlockStop, index := some first } :: stopsFrom (first + 1) n := by
  unfold stopsFrom
  rw [range_succ_eq_map, map_cons, map_map]
  congr 1
  · simp
  · apply map_congr_left
    intro offset _
    have hshift : first + ((offset + 1 : Nat) : Int) = first + 1 + offset := by omega
    simp only [Function.comp_apply, Nat.succ_eq_add_one, hshift]

/-- A stop closes the first open block. -/
theorem next_stop (hblocks : t.blocks = closed.map shut ++ (type :: types).map opened) :
    (t.next { type := .contentBlockStop, index := some (closed.length : Int) }).blocks =
      (closed ++ [type]).map shut ++ types.map opened := by
  have hlength : closed.length = (closed.map shut).length := by simp
  show t.closeAt (some (Int.ofNat closed.length)) = _
  rw [closeAt, hblocks, map_cons, hlength, modify_append_cons]
  simp [shut, opened]

theorem allowed_stop (hblocks : t.blocks = closed.map shut ++ types.map opened) :
    t.Allowed { type := .contentBlockStop, index := some (closed.length : Int) } ↔
      t.begun = true ∧ types ≠ [] := by
  have hopen := openType_append hblocks 0
  rw [Int.add_zero] at hopen
  unfold Allowed
  simp only [hopen]
  cases types <;> simp

theorem length_concat_cast : (((closed ++ [type]).length : Nat) : Int) = closed.length + 1 := by
  simp

section

variable (hrun : t.Running) (hblocks : t.blocks = closed.map shut ++ types.map opened)

include hrun hblocks

/-- Stops are accepted as long as there are open blocks. -/
theorem along_stops (n : Nat) :
    Run.Along Allowed next t (stopsFrom closed.length n) ↔ n ≤ types.length := by
  induction n generalizing t closed types with
  | zero => simp [stopsFrom]
  | succ n ih =>
    rw [stopsFrom_succ, Run.along_cons, allowed_stop hblocks]
    cases types with
    | nil => simp
    | cons type types =>
      have hrest :=
        ih (t := t.next { type := .contentBlockStop, index := some (closed.length : Int) })
        ⟨hrun.begun, hrun.ended, rfl⟩ (next_stop hblocks)
      rw [length_concat_cast] at hrest
      rw [hrest]
      simp [hrun.begun]

theorem exec_stops : (Run.exec next t (stopsFrom closed.length types.length)).Running ∧
    (Run.exec next t (stopsFrom closed.length types.length)).blocks =
      (closed ++ types).map shut := by
  induction types generalizing t closed with
  | nil =>
    rw [append_nil]
    exact ⟨hrun, hblocks.trans (append_nil _)⟩
  | cons type types ih =>
    have hrest :=
      ih (t := t.next { type := .contentBlockStop, index := some (closed.length : Int) })
      ⟨hrun.begun, hrun.ended, rfl⟩ (next_stop hblocks)
    rw [length_concat_cast, append_assoc] at hrest
    rw [length_cons, stopsFrom_succ, Run.exec_cons]
    exact hrest

/-- A new block is the one after all others. -/
theorem allowed_start (offset : Int) (block : ClaudeMediaMessage) :
    t.Allowed { type := .contentBlockStart, index := some (closed.length + offset)
                contentBlock := some block } ↔ offset = types.length := by
  unfold Allowed
  simp only [hrun.begun, hblocks, length_append, length_map, Option.some.injEq, true_and]
  omega

end

theorem next_start (hblocks : t.blocks = closed.map shut ++ types.map opened) (index : Option Int)
    (block : ClaudeMediaMessage) :
    (t.next { type := .contentBlockStart, index, contentBlock := some block }).blocks =
      closed.map shut ++ (types ++ [block.type]).map opened := by
  show t.blocks ++ [⟨block.type, true⟩] = _
  rw [hblocks]
  simp [opened]

/-- A delta goes to an open block of its type. -/
theorem allowed_delta (hrun : t.Running) (hblocks : t.blocks = closed.map shut ++ types.map opened)
    (offset : Int) (delta : ClaudeMediaMessage) :
    t.Allowed { type := .contentBlockDelta, index := some (closed.length + offset)
                delta := some delta } ↔
      ∃ type, 0 ≤ offset ∧ types[offset.toNat]? = some type ∧ type.deltaType = some delta.type := by
  unfold Allowed
  simp only [openType_append hblocks, hrun.begun, true_and, Option.map_some]
  split_ifs with hoffset
  · cases types[offset.toNat]? <;> simp [hoffset]
  · simp [hoffset]

end BlockState
