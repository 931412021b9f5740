/-
Which chat streams are converted to well-formed Claude streams.

The chunks drive a small machine of their own: which kind of content is being written,
and for a run of tool chunks how many calls were named in it and the greatest index
that came.  A chunk is in order if the calls of a run are named when they first come,
one after the other from index zero, if no index was left out when a run ends, and if
the first chunk does not end the message without a usage.

* `ChunkPhase`, `ChunkPhase.Right` — the machine and the chunks that are in order;
* `well_formed_iff_in_order` — the events are well-formed exactly if the chunks are in order;
* `second_call_not_started` — two calls in the first chunk.
-/
import AcuGateway.ChatToClaude
import AcuGateway.ClaudeEventStream

open List BlockState Option Emitter Run

/-! ### Chunks that are in order -/

/-- How far a stream has come. -/
inductive ChunkPhase
  /-- nothing was sent -/
  | fresh
  /-- no block is open -/
  | idle
  | writing (kind : TextKind)
  /-- `started` calls of the run were named, `greatest` is the greatest index that came -/
  | tools (started : Nat) (greatest : Int)
  | ended
deriving DecidableEq

/-- Every index of the run up to the greatest one belongs to a call that was named. -/
def ChunkPhase.Closable : ChunkPhase → Prop
  | .tools started greatest => (started : Int) = greatest + 1
  | _ => True

/-- A call is named when it first comes, with the next index of the run. -/
def CallsInOrder : Nat → Nat → List ToolCallResponse → Prop
  | _, _, [] => True
  | started, place, call :: calls =>
    if call.function.name ≠ "" then
      toolOffset place call = started ∧ CallsInOrder (started + 1) (place + 1) calls
    else
      (call.function.arguments ≠ "" → 0 ≤ toolOffset place call ∧ toolOffset place call < started) ∧
        CallsInOrder started (place + 1) calls

/-- The calls of the run that were named, after some more calls. -/
def startedAfter (started : Nat) (calls : List ToolCallResponse) : Nat :=
  started + calls.countP (·.function.name ≠ "")

/-- The run that tool calls belong to: the one that is open, or a new one. -/
def ChunkPhase.run : ChunkPhase → Nat × Int
  | .tools started greatest => (started, greatest)
  | _ => (0, 0)

variable (c : ChunkPhase) (delta : ChatStreamDelta)

/-- The content of a later chunk is in order. -/
def ChunkPhase.ContentRight : Prop :=
  match delta.toolCalls, delta.written? with
  | [], none => True
  | [], some (kind, _) => c = .writing kind ∨ c.Closable
  | calls, _ => CallsInOrder c.run.1 0 calls

def ChunkPhase.content : ChunkPhase :=
  match delta.toolCalls, delta.written? with
  | [], none => c
  | [], some (kind, _) => .writing kind
  | calls, _ => .tools (startedAfter c.run.1 calls) (maxOffset c.run.2 0 calls)

/-- What the first chunk has written. -/
def firstPhase : ChunkPhase :=
  match delta.written?, delta.toolCalls with
  | some (kind, _), _ => .writing kind
  | none, [] => .idle
  | none, _ => .tools 1 0

variable (call : ConvertCall)

/-- The usage that a call of the converter can report. -/
def ConvertCall.available : Option Usage := call.chunk.usage <|> call.usage

/-- A chunk after the first is in order. -/
def ChunkPhase.LaterRight : Prop :=
  match call.chunk.choices with
  | [] => call.available.isSome → c.Closable
  | choice :: _ =>
    match choice.finished?, call.chunk.usage with
    | some _, none => True
    | finish, _ => c.ContentRight choice.delta ∧ (finish.isSome → (c.content choice.delta).Closable)

def ChunkPhase.laterNext : ChunkPhase :=
  match call.chunk.choices with
  | [] => if call.available.isSome then .ended else c
  | choice :: _ =>
    match choice.finished?, call.chunk.usage with
    | some _, none => c
    | finish, _ => if finish.isSome then .ended else c.content choice.delta

/-- The chunk is in order. -/
def ChunkPhase.Right : Prop :=
  match c with
  | .ended => True
  | .fresh => ∀ choice ∈ call.chunk.choices.head?, choice.finished?.isSome → call.available.isSome
  | c => c.LaterRight call

def ChunkPhase.next : ChunkPhase :=
  match c with
  | .ended => .ended
  | .fresh =>
    match call.chunk.choices with
    | [] => .idle
    | choice :: _ => if choice.finished?.isSome then .ended else firstPhase choice.delta
  | c => c.laterNext call

/-! ### The converter and the reader of its events -/

/-- The events of a part of the conversion, as the reader takes them. -/
abbrev Conversion.Reads (f : Conversion) (info : ClaudeConvertInfo) (t : BlockState) (C : Prop)
    (Q : ClaudeConvertInfo → BlockState → Prop) : Prop :=
  Emitter.Spec Allowed next f info t C Q

/-- The types of the blocks that are open. -/
def ChunkPhase.openTypes : ChunkPhase → List ClaudeMediaType
  | .writing kind => [kind.blockType]
  | .tools started _ => List.replicate started .toolUse
  | _ => []

/-- The state of the conversion, with `closed` blocks closed. -/
def ChunkPhase.Fits (info : ClaudeConvertInfo) (closed : Nat) : Prop :=
  match c with
  | .idle => info.lastMessagesType = .none ∧ info.index = closed
  | .writing kind => info.lastMessagesType = kind.lastType ∧ info.index = closed
  | .tools started greatest =>
    info.lastMessagesType = .tools ∧ info.toolCallBaseIndex = closed ∧
      info.toolCallMaxIndexOffset = greatest ∧ 0 ≤ greatest ∧ (started : Int) ≤ greatest + 1
  | _ => False

/-- The converter and the reader agree on the blocks. -/
structure Shows (c : ChunkPhase) (info : ClaudeConvertInfo) (t : BlockState) : Prop where
  notDone : info.done = false
  running : t.Running
  blocks : ∃ closed : List ClaudeMediaType,
    t.blocks = closed.map shut ++ c.openTypes.map opened ∧ c.Fits info closed.length

variable {c : ChunkPhase} {info : ClaudeConvertInfo} {t : BlockState}

theorem generateStopBlock_eq (index : Int) : [generateStopBlock index] = stopsFrom index 1 := by
  simp [generateStopBlock, stopsFrom]

theorem stopOpenBlocks_reads (h : Shows c info t) :
    stopOpenBlocks.Reads info t c.Closable fun info' t' => info' = info ∧ t'.Running ∧
      ∃ closed : List ClaudeMediaType, t'.blocks = closed.map shut ∧
        (advance info).index = (closed.length : Int) := by
  obtain ⟨-, hrun, closed, hblocks, hfits⟩ := h
  have hstops := along_stops hrun hblocks
  have hexec := exec_stops hrun hblocks
  cases c with
  | fresh => exact hfits.elim
  | ended => exact hfits.elim
  | idle =>
    obtain ⟨hlast, hindex⟩ := hfits
    have hevents : (stopOpenBlocks info).2 = [] := by simp [stopOpenBlocks, stopEvents, hlast]
    refine ⟨by simp [hevents, ChunkPhase.Closable], fun _ => ⟨rfl, ?_⟩⟩
    rw [hevents]
    refine ⟨hrun, closed, hblocks.trans (append_nil _), ?_⟩
    simp [advance, hlast, hindex]
  | writing kind =>
    obtain ⟨hlast, hindex⟩ := hfits
    have hevents : (stopOpenBlocks info).2 = stopsFrom closed.length 1 := by
      cases kind <;>
      simp [stopOpenBlocks, stopEvents, hlast, TextKind.lastType, hindex, generateStopBlock_eq]
    refine ⟨by simp [hevents, hstops, ChunkPhase.Closable, ChunkPhase.openTypes],
      fun _ => ⟨rfl, ?_⟩⟩
    rw [hevents]
    refine ⟨hexec.1, closed ++ [kind.blockType], hexec.2, ?_⟩
    cases kind <;> simp [advance, hlast, TextKind.lastType, hindex]
  | tools started greatest =>
    obtain ⟨hlast, hbase, hmax, hgreatest, hstarted⟩ := hfits
    have hevents : (stopOpenBlocks info).2 = stopsFrom closed.length (greatest + 1).toNat := by
      simp [stopOpenBlocks, stopEvents, hlast, hbase, hmax, generateStopBlock, stopsFrom]
    refine ⟨?_, fun hclosable => ⟨rfl, ?_⟩⟩
    · rw [hevents, hstops]
      simp only [ChunkPhase.openTypes, length_replicate, ChunkPhase.Closable]
      omega
    · -- all blocks of tools are open: as many as were started
      have hcount : (greatest + 1).toNat = started := by
        unfold ChunkPhase.Closable at hclosable
        omega
      simp only [ChunkPhase.openTypes, length_replicate] at hexec
      rw [hevents, hcount]
      refine ⟨hexec.1, _, hexec.2, ?_⟩
      unfold ChunkPhase.Closable at hclosable
      simp only [advance, hlast, hbase, hmax, length_append, length_replicate]
      omega

theorem stopOpenBlocksAndAdvance_reads (h : Shows c info t) :
    stopOpenBlocksAndAdvance.Reads info t c.Closable (Shows .idle) := by
  have hadvance : ∀ info' t', (info' = info ∧ t'.Running ∧ ∃ closed : List ClaudeMediaType,
      t'.blocks = closed.map shut ∧ (advance info).index = (closed.length : Int)) →
      Conversion.Reads (.modify advance) info' t' True (Shows .idle) := by
    rintro _ t' ⟨rfl, hrun, closed, hblocks, hindex⟩
    refine Emitter.Spec.modify
      ⟨?_, hrun, closed, by simpa [ChunkPhase.openTypes] using hblocks, ?_, hindex⟩
    · have := h.notDone
      unfold advance
      split <;> exact this
    · unfold advance
      split <;> simp_all
  exact ((stopOpenBlocks_reads h).seq hadvance).given (by simp)

/-! ### Text and thinking -/

theorem Shows.lastType_iff (h : Shows c info t) (kind : TextKind) :
    info.lastMessagesType = kind.lastType ↔ c = .writing kind := by
  obtain ⟨-, -, closed, -, hfits⟩ := h
  cases c with
  | fresh => exact hfits.elim
  | ended => exact hfits.elim
  | idle => cases kind <;> simp [hfits.1, TextKind.lastType]
  | tools started greatest => cases kind <;> simp [hfits.1, TextKind.lastType]
  | writing kind' => cases kind <;> cases kind' <;> simp [hfits.1, TextKind.lastType]

variable {kind : TextKind} {s : ConvertState}

theorem switchTo_reads (h : Shows c info t) (hc : c ≠ .writing kind) :
    (switchTo kind.lastType).Reads info t c.Closable (Shows .idle) := by
  have hlast : info.lastMessagesType ≠ kind.lastType :=
    fun hlast => hc ((h.lastType_iff kind).mp hlast)
  exact Emitter.Spec.congr (if_neg hlast) (stopOpenBlocksAndAdvance_reads h)

theorem TextKind.deltaType_blockType (s : String) :
    kind.blockType.deltaType = some (kind.delta s).type := by
  cases kind <;> rfl

theorem TextKind.opened_type : kind.opened.type = kind.blockType := by
  cases kind <;> rfl

/-- A delta for the block that is being written. -/
theorem textDelta_reads (h : Shows (.writing kind) info t) (s : String) :
    Conversion.Reads (fun info => (info, [deltaBlock info.index (kind.delta s)])) info t True
      (Shows (.writing kind)) := by
  obtain ⟨hdone, hrun, closed, hblocks, hlast, hindex⟩ := h
  refine ⟨?_, fun _ => ⟨hdone, ⟨hrun.begun, hrun.ended, rfl⟩, closed, hblocks, hlast, hindex⟩⟩
  have hallowed := allowed_delta hrun hblocks 0 (kind.delta s)
  rw [Int.add_zero] at hallowed
  simp only [along_cons, along_nil, and_true, deltaBlock, hindex, hallowed, iff_true]
  exact ⟨kind.blockType, Int.le_refl 0, rfl, kind.deltaType_blockType s⟩

/-- A block is opened after all others. -/
theorem openText_reads (h : Shows .idle info t) (kind : TextKind) :
    Conversion.Reads (fun info => ({ info with lastMessagesType := kind.lastType },
      [startBlock info.index kind.opened])) info t True (Shows (.writing kind)) := by
  obtain ⟨hdone, hrun, closed, hblocks, hlast, hindex⟩ := h
  have hallowed := allowed_start hrun hblocks 0 kind.opened
  have hnext := next_start hblocks (some (closed.length : Int)) kind.opened
  rw [Int.add_zero] at hallowed
  rw [kind.opened_type] at hnext
  refine ⟨?_, fun _ => ⟨hdone, ⟨hrun.begun, hrun.ended, rfl⟩, closed, ?_, rfl, hindex⟩⟩
  · simp [startBlock, hindex, hallowed, ChunkPhase.openTypes]
  · simp only [startBlock, hindex, exec_cons, exec_nil]
    exact hnext

theorem firstText_reads (h : Shows c info t) (hc : c ≠ .writing kind) (s : String) :
    (firstText kind s).Reads info t c.Closable (Shows (.writing kind)) := by
  have hopened := (switchTo_reads h hc).seq fun info' t' h' =>
    (openText_reads h' kind).seq fun info'' t'' h'' => textDelta_reads h'' s
  exact hopened.given (by simp)

theorem laterText_reads (h : Shows c info t) (s : String) :
    (laterText kind s).Reads info t (c = .writing kind ∨ c.Closable) (Shows (.writing kind)) := by
  by_cases hc : c = .writing kind
  · subst hc
    have hlast : info.lastMessagesType = kind.lastType := (h.lastType_iff kind).mpr rfl
    have hsame : { info with lastMessagesType := kind.lastType } = info := by rw [← hlast]
    have hgoes : laterText kind s info = (info, [deltaBlock info.index (kind.delta s)]) := by
      simp [laterText, switchTo, seq, hlast, hsame]
    exact (Emitter.Spec.congr hgoes (textDelta_reads h s)).given (by simp)
  · have hlast : info.lastMessagesType ≠ kind.lastType :=
      fun hlast => hc ((h.lastType_iff kind).mp hlast)
    have hopens : laterText kind s info = firstText kind s info := by
      simp [laterText, firstText, switchTo, seq, hlast]
    exact (Emitter.Spec.congr hopens (firstText_reads h hc s)).given (by simp [hc])

/-! ### Tool calls -/

variable {started : Nat}

section Calls

variable {closed : List ClaudeMediaType} {call : ToolCallResponse}

/-- The fragment of a call goes to a block of the run. -/
theorem jsonEvents_along (hrun : t.Running)
    (hblocks : t.blocks = closed.map shut ++ (List.replicate started .toolUse).map opened)
    (offset : Int) (call : ToolCallResponse) :
    Along Allowed next t (jsonEvents (closed.length + offset) call) ↔
      (call.function.arguments ≠ "" → 0 ≤ offset ∧ offset < started) := by
  unfold jsonEvents
  split_ifs with hargs
  · simp only [along_cons, along_nil, and_true, deltaBlock, allowed_delta hrun hblocks,
      getElem?_replicate]
    constructor
    · rintro ⟨type, hoffset, htype, -⟩ -
      split at htype
      · omega
      · cases htype
    · intro hoffset
      obtain ⟨hpos, hlt⟩ := hoffset hargs
      exact ⟨.toolUse, hpos, if_pos (by omega), rfl⟩
  · simp [hargs]

theorem jsonEvents_exec (hrun : t.Running) (index : Int) (call : ToolCallResponse) :
    (exec next t (jsonEvents index call)).Running ∧
    (exec next t (jsonEvents index call)).blocks = t.blocks := by
  unfold jsonEvents
  split_ifs
  · exact ⟨⟨hrun.begun, hrun.ended, rfl⟩, rfl⟩
  · exact ⟨hrun, rfl⟩

/-- A named call opens a block, which takes its fragment at once. -/
theorem startTool_along (hrun : t.Running)
    (hblocks : t.blocks = closed.map shut ++ (List.replicate started .toolUse).map opened)
    (offset : Int) (call : ToolCallResponse) :
    (Along Allowed next t (startBlock (closed.length + offset) (toolBlock call) ::
        jsonEvents (closed.length + offset) call) ↔ offset = started) ∧
    (exec next t (startBlock (closed.length + offset) (toolBlock call) ::
        jsonEvents (closed.length + offset) call)).Running ∧
    (exec next t (startBlock (closed.length + offset) (toolBlock call) ::
        jsonEvents (closed.length + offset) call)).blocks =
      closed.map shut ++ (List.replicate (started + 1) .toolUse).map opened := by
  have hallowed := allowed_start hrun hblocks offset (toolBlock call)
  have hnext := next_start hblocks (some (closed.length + offset)) (toolBlock call)
  -- the new block comes after those that are started
  rw [length_replicate] at hallowed
  rw [toolBlock, ← replicate_succ'] at hnext
  have hrun' : (t.next (startBlock (closed.length + offset) (toolBlock call))).Running :=
    ⟨hrun.begun, hrun.ended, rfl⟩
  have hjson := jsonEvents_along hrun' hnext offset call
  obtain ⟨hafter, hsame⟩ := jsonEvents_exec hrun' (closed.length + offset) call
  refine ⟨?_, hafter, hsame.trans hnext⟩
  rw [along_cons, hjson]
  unfold startBlock
  rw [hallowed]
  constructor
  · exact And.left
  · rintro rfl
    exact ⟨rfl, fun _ => by omega⟩

variable {call : ToolCallResponse} {calls : List ToolCallResponse}

theorem startedAfter_named (hname : call.function.name ≠ "") :
    startedAfter started (call :: calls) = startedAfter (started + 1) calls := by
  simp only [startedAfter, countP_cons, hname, ne_eq, not_false_eq_true, decide_true, if_true]
  omega

theorem startedAfter_unnamed (hname : ¬ call.function.name ≠ "") :
    startedAfter started (call :: calls) = startedAfter started calls := by
  simp [startedAfter, not_not.mp hname]

/-- The calls of a chunk. -/
theorem laterCalls_along (hrun : t.Running)
    (hblocks : t.blocks = closed.map shut ++ (List.replicate started .toolUse).map opened)
    (place : Nat) :
    (Along Allowed next t (laterCalls closed.length place calls) ↔
      CallsInOrder started place calls) ∧
    (CallsInOrder started place calls →
      (exec next t (laterCalls closed.length place calls)).Running ∧
      (exec next t (laterCalls closed.length place calls)).blocks =
        closed.map shut ++ (List.replicate (startedAfter started calls) .toolUse).map opened) := by
  induction calls generalizing t started place with
  | nil => exact ⟨by simp [laterCalls, CallsInOrder], fun _ => ⟨hrun, hblocks⟩⟩
  | cons call calls ih =>
    rw [laterCalls, along_append, exec_append]
    -- a call without a name continues a block
    by_cases hname : call.function.name ≠ ""
    · obtain ⟨halong, hrun', hblocks'⟩ := startTool_along hrun hblocks (toolOffset place call) call
      obtain ⟨hrest, hafter⟩ := ih hrun' hblocks' (place + 1)
      simp only [CallsInOrder, toolEvents, if_pos hname, singleton_append, halong, hrest,
        startedAfter_named hname]
      exact ⟨trivial, fun h => hafter h.2⟩
    · obtain ⟨hrun', hblocks'⟩ := jsonEvents_exec hrun (closed.length + toolOffset place call) call
      obtain ⟨hrest, hafter⟩ := ih hrun' (hblocks'.trans hblocks) (place + 1)
      simp only [CallsInOrder, toolEvents, if_neg hname, nil_append, hrest,
        jsonEvents_along hrun hblocks, startedAfter_unnamed hname]
      exact ⟨trivial, fun h => hafter h.2⟩

end Calls

variable {calls : List ToolCallResponse}

/-- The greatest index covers the calls that were named. -/
theorem maxOffset_ge {greatest : Int} {place : Nat}
    (hpos : 0 ≤ greatest) (hstarted : (started : Int) ≤ greatest + 1)
    (h : CallsInOrder started place calls) :
    0 ≤ maxOffset greatest place calls ∧
      (startedAfter started calls : Int) ≤ maxOffset greatest place calls + 1 := by
  induction calls generalizing started greatest place with
  | nil => exact ⟨hpos, hstarted⟩
  | cons call calls ih =>
    unfold CallsInOrder at h
    unfold maxOffset
    -- the offset of a started block is its number
    by_cases hname : call.function.name ≠ ""
    · rw [if_pos hname] at h
      rw [startedAfter_named hname]
      refine ih ?_ ?_ h.2
      · split_ifs <;> omega
      · have := h.1
        split_ifs <;> omega
    · rw [if_neg hname] at h
      rw [startedAfter_unnamed hname]
      refine ih ?_ ?_ h.2
      · split_ifs <;> omega
      · split_ifs <;> omega

/-- The first call of the first chunk opens the first block. -/
theorem firstTool_reads (hdone : info.done = false) (hrun : t.Running) (hblocks : t.blocks = [])
    (call : ToolCallResponse) :
    (firstTool call).Reads info t True (Shows (.tools 1 0)) := by
  have hnone : t.blocks = ([] : List ClaudeMediaType).map shut ++
      (List.replicate 0 .toolUse).map opened := hblocks
  obtain ⟨halong, hrun', hblocks'⟩ := startTool_along hrun hnone 0 call
  refine ⟨?_, fun _ => ⟨hdone, hrun', [], hblocks', rfl, rfl, rfl, ?_⟩⟩
  · exact halong.trans (by simp)
  · omega

/-- The converter and the reader are ready for the calls of a chunk. -/
structure ReadyForTools (run : Nat × Int) (info : ClaudeConvertInfo) (t : BlockState) : Prop where
  notDone : info.done = false
  running : t.Running
  greatest : info.toolCallMaxIndexOffset = run.2
  bounds : 0 ≤ run.2 ∧ (run.1 : Int) ≤ run.2 + 1
  blocks : ∃ closed : List ClaudeMediaType, info.toolCallBaseIndex = (closed.length : Int) ∧
    t.blocks = closed.map shut ++ (List.replicate run.1 .toolUse).map opened

/-- A run of tool chunks begins with what was open before it closed, or goes on. -/
theorem switchToTools_reads (h : Shows c info t) :
    switchToTools.Reads info t True (ReadyForTools c.run) := by
  -- from text or from nothing: what is open is stopped, and the tools begin at the next index
  have hbegins : info.lastMessagesType ≠ .tools → c.Closable → c.run = (0, 0) →
      switchToTools.Reads info t True (ReadyForTools c.run) := by
    intro hlast hclosable hrun
    refine Emitter.Spec.congr (if_neg hlast) ?_
    refine ((stopOpenBlocksAndAdvance_reads h).seq ?_).weaken (C := c.Closable ∧ True)
      (by simp [hclosable]) fun _ _ hQ => hQ
    rintro info' t' ⟨hdone, hrunning, closed, hblocks, -, hindex⟩
    rw [hrun]
    exact Emitter.Spec.modify ⟨hdone, hrunning, rfl, by simp, closed, hindex, hblocks⟩
  obtain ⟨hdone, hrun, closed, hblocks, hfits⟩ := h
  cases c with
  | fresh => exact hfits.elim
  | ended => exact hfits.elim
  | idle => exact hbegins (by simp [hfits.1]) trivial rfl
  | writing kind => exact hbegins (by cases kind <;> simp [hfits.1, TextKind.lastType]) trivial rfl
  | tools started greatest =>
    obtain ⟨hlast, hbase, hmax, hpos, hstarted⟩ := hfits
    have hgoes : switchToTools info = (emit [] : Conversion) info := if_pos hlast
    exact Emitter.Spec.congr hgoes
      (Emitter.Spec.skip ⟨hdone, hrun, hmax, ⟨hpos, hstarted⟩, closed, hbase, hblocks⟩)

theorem laterTools_reads (h : Shows c info t) :
    (laterTools calls).Reads info t (CallsInOrder c.run.1 0 calls)
      (Shows (.tools (startedAfter c.run.1 calls) (maxOffset c.run.2 0 calls))) := by
  refine ((switchToTools_reads h).seq ?_).given (C := True ∧ CallsInOrder c.run.1 0 calls) (by simp)
  rintro info' t' ⟨hdone, hrun, hmax, ⟨hpos, hstarted⟩, closed, hbase, hblocks⟩
  obtain ⟨halong, hafter⟩ := laterCalls_along hrun hblocks 0
  refine ⟨by simpa only [hbase] using halong, fun hcalls => ?_⟩
  obtain ⟨hrun', hblocks'⟩ := hafter hcalls
  have hbounds := maxOffset_ge hpos hstarted hcalls
  simp only [hbase, hmax]
  exact ⟨hdone, hrun', closed, hblocks', rfl, rfl, rfl, hbounds⟩

/-! ### The end of a message -/

/-- The events of the end, after the open blocks are closed. -/
theorem endEvents_along (hrun : t.Running) (hclosed : ∀ block ∈ t.blocks, block.isOpen = false)
    (oaiUsage : Option Usage) (stopReason : String) :
    Along Allowed next t
      ((oaiUsage.map (messageDeltaEvent · stopReason)).toList ++ [{ type := .messageStop }]) ↔
    oaiUsage.isSome := by
  cases oaiUsage with
  | none =>
    simp only [map_none, toList_none, nil_append, along_cons, along_nil, Allowed, hrun.afterDelta]
    simp
  | some u =>
    have hdelta : t.Allowed (messageDeltaEvent u stopReason) := hrun.begun
    have hstop : (t.next (messageDeltaEvent u stopReason)).Allowed { type := .messageStop } :=
      ⟨hrun.begun, hrun.ended, rfl, hclosed⟩
    simp [hdelta, hstop]

theorem closeMessage_reads (h : Shows c info t) (oaiUsage : Option Usage) (stopReason : String) :
    (closeMessage oaiUsage stopReason).Reads info t (c.Closable ∧ oaiUsage.isSome)
      fun info' _ => info'.done = true := by
  refine (stopOpenBlocks_reads h).seq ?_
  rintro _ t' ⟨rfl, hrun, closed, hblocks, -⟩
  have hclosed : ∀ block ∈ t'.blocks, block.isOpen = false := by
    rw [hblocks]
    simp [shut]
  have hend := endEvents_along hrun hclosed oaiUsage stopReason
  exact ⟨by simpa using hend, fun _ => rfl⟩

/-- The converter does not change the usage that the caller has put into its state. -/
def Conversion.KeepsUsage (f : Conversion) : Prop := ∀ info, (f info).1.usage = info.usage

theorem advance_usage : (advance info).usage = info.usage := by
  unfold advance
  split <;> rfl

theorem switchTo_keepsUsage (last : LastMessageType) : (switchTo last).KeepsUsage := by
  intro info
  unfold switchTo
  split
  · rfl
  · exact advance_usage

theorem firstText_keepsUsage (s : String) : (firstText kind s).KeepsUsage :=
  fun info => switchTo_keepsUsage kind.lastType info

theorem laterText_keepsUsage (s : String) : (laterText kind s).KeepsUsage :=
  fun info => switchTo_keepsUsage kind.lastType info

theorem laterTools_keepsUsage : (laterTools calls).KeepsUsage := by
  intro info
  show (switchToTools info).1.usage = _
  unfold switchToTools
  split
  · rfl
  · exact advance_usage

/-! ### Chunks -/

variable {response : ChatCompletionsStreamResponse} {choice : ChatStreamChoice}

theorem finishMessage_reads (h : Shows c info t) (finishReason : String) :
    (finishMessage response finishReason).Reads info t
      (c.Closable ∧ (availableUsage response info).isSome) fun info' _ => info'.done = true := by
  have hshows : Shows c { info with finishReason } t := ⟨h.notDone, h.running, h.blocks⟩
  have hclose := closeMessage_reads hshows (availableUsage response info)
    (openAIFinishReasonToClaudeStopReason finishReason)
  exact ⟨hclose.accepts, hclose.post⟩

/-- Where a chunk leaves the converter and the reader. -/
def Leaves (choice : ChatStreamChoice) (c : ChunkPhase) (info : ClaudeConvertInfo)
    (t : BlockState) : Prop :=
  if choice.finished?.isSome then info.done = true else Shows c info t

/-- The end of a chunk: the message ends if the choice is finished. -/
theorem finish_reads (response : ChatCompletionsStreamResponse) (choice : ChatStreamChoice)
    (h : Shows c info t) :
    (finishChoice response choice).Reads info t
      (choice.finished?.isSome → c.Closable ∧ (availableUsage response info).isSome)
      (Leaves choice c) := by
  unfold Leaves finishChoice
  cases choice.finished? with
  | none => exact (Emitter.Spec.skip h).weaken (by simp) fun _ _ hQ => by simpa using hQ
  | some finishReason =>
    exact (finishMessage_reads h finishReason).weaken (by simp) fun _ _ hQ => by simpa using hQ

theorem firstPhase_closable : (firstPhase delta).Closable := by
  unfold firstPhase
  split
  · trivial
  · trivial
  · rfl

/-- What the calls of the first chunk leave open. -/
def firstToolsPhase : List ToolCallResponse → ChunkPhase
  | [] => .idle
  | _ => .tools 1 0

theorem firstTools_reads (h : Shows .idle info t) (hblocks : t.blocks = [])
    (calls : List ToolCallResponse) :
    (firstCalls calls).Reads info t True
      fun info' t' => info'.usage = info.usage ∧ Shows (firstToolsPhase calls) info' t' := by
  cases calls with
  | nil => exact Emitter.Spec.skip ⟨rfl, h⟩
  | cons call calls =>
    exact (firstTool_reads h.notDone h.running hblocks call).with_state rfl

theorem firstWritten_reads {delta : ChatStreamDelta}
    (h : Shows (firstToolsPhase delta.toolCalls) info t) :
    (firstWritten delta).Reads info t True
      fun info' t' => info'.usage = info.usage ∧ Shows (firstPhase delta) info' t' := by
  unfold firstWritten
  cases hwritten : delta.written? with
  | none =>
    have hphase : firstPhase delta = firstToolsPhase delta.toolCalls := by
      unfold firstPhase firstToolsPhase
      rw [hwritten]
      cases delta.toolCalls <;> rfl
    rw [hphase]
    exact Emitter.Spec.skip ⟨rfl, h⟩
  | some written =>
    obtain ⟨kind, s⟩ := written
    have hphase : firstPhase delta = .writing kind := by
      unfold firstPhase
      rw [hwritten]
    -- a first chunk with calls and text stops the calls first
    have hnot : firstToolsPhase delta.toolCalls ≠ .writing kind := by
      cases delta.toolCalls <;> nofun
    have hclosable : (firstToolsPhase delta.toolCalls).Closable := by
      cases delta.toolCalls
      · trivial
      · rfl
    rw [hphase]
    exact ((firstText_reads h hnot s).with_state (firstText_keepsUsage s info)).weaken
      (by simp [hclosable]) fun _ _ hQ => hQ

/-- The first chunk, after the `message_start`. -/
theorem firstChoice_reads (h : Shows .idle info t) (hblocks : t.blocks = []) :
    (firstChoice response choice).Reads info t
      (choice.finished?.isSome → (availableUsage response info).isSome)
      (Leaves choice (firstPhase choice.delta)) := by
  have hall := (firstTools_reads h hblocks choice.delta.toolCalls).seq fun info₁ t₁ h₁ =>
    (firstWritten_reads h₁.2).seq fun info₂ t₂ h₂ =>
      (finish_reads response choice h₂.2).weaken
        (D := choice.finished?.isSome → (availableUsage response info).isSome) ?_ fun _ _ hQ => hQ
  · exact hall.given (by simp)
  · rw [availableUsage, h₂.1, h₁.1]
    simp [availableUsage, firstPhase_closable]

/-- The content of a later chunk. -/
theorem laterContent_reads (h : Shows c info t) (delta : ChatStreamDelta) :
    (laterContent delta).Reads info t (c.ContentRight delta)
      fun info' t' => info'.usage = info.usage ∧ Shows (c.content delta) info' t' := by
  unfold laterContent ChunkPhase.ContentRight ChunkPhase.content
  cases delta.toolCalls with
  | nil =>
    cases delta.written? with
    | none => exact Emitter.Spec.skip ⟨rfl, h⟩
    | some written =>
      obtain ⟨kind, s⟩ := written
      exact (laterText_reads h s).with_state (laterText_keepsUsage s info)
  | cons call calls =>
    exact (laterTools_reads h).with_state (laterTools_keepsUsage info)

theorem laterChoice_reads (h : Shows c info t)
    (hend : choice.finished?.isSome → response.usage.isSome) :
    (laterChoice response choice).Reads info t
      (c.ContentRight choice.delta ∧ (choice.finished?.isSome → (c.content choice.delta).Closable))
      (Leaves choice (c.content choice.delta)) := by
  refine (laterContent_reads h choice.delta).seq fun info₁ t₁ h₁ =>
    (finish_reads response choice h₁.2).given ?_
  have havailable : choice.finished?.isSome → (availableUsage response info₁).isSome := by
    intro hfinished
    obtain ⟨u, hu⟩ := isSome_iff_exists.mp (hend hfinished)
    simp [availableUsage, hu]
  exact forall_congr' fun hfinished => by simp [havailable hfinished]

/-! ### Streams -/

/-- The converter, the reader and the chunks so far agree. -/
def Follows (s : ConvertState) (t : BlockState) (c : ChunkPhase) : Prop :=
  match c with
  | .fresh => s = {} ∧ t = {}
  | .ended => s.info.done = true
  | c => 0 < s.sendResponseCount ∧ Shows c s.info t

theorem Shows.follows (hcount : 0 < s.sendResponseCount) (h : Shows c s.info t) :
    Follows s t c := by
  obtain ⟨-, -, closed, -, hfits⟩ := id h
  cases c with
  | fresh => exact hfits.elim
  | ended => exact hfits.elim
  | idle => exact ⟨hcount, h⟩
  | writing kind => exact ⟨hcount, h⟩
  | tools started greatest => exact ⟨hcount, h⟩

theorem Leaves.follows (hcount : 0 < s.sendResponseCount) (h : Leaves choice c s.info t) :
    Follows s t (if choice.finished?.isSome then .ended else c) := by
  unfold Leaves at h
  split_ifs with hfinished
  · rw [if_pos hfinished] at h
    exact h
  · rw [if_neg hfinished] at h
    exact h.follows hcount

variable {call : ConvertCall}

/-- A call of the converter does what the converter does. -/
theorem convertCall_reads {estimate : Int} {C : Prop} {Q : ClaudeConvertInfo → BlockState → Prop}
    (h : Conversion.Reads (streamResponseOpenAI2Claude estimate (s.sendResponseCount + 1)
      call.chunk) { s.info with usage := call.usage } t C Q) :
    (convertCall estimate call).Spec Allowed next s t C
      fun s' t' => 0 < s'.sendResponseCount ∧ Q s'.info t' :=
  ⟨h.accepts, fun hC => ⟨Nat.succ_pos _, h.post hC⟩⟩

variable (estimate : Int)

/-- The `message_start` of the first chunk. -/
theorem messageStart_reads (usage : Option Usage) :
    Conversion.Reads (emit [messageStartEvent estimate response]) { usage } {} True
      fun info' t' => info' = { usage } ∧ Shows .idle info' t' ∧ t'.blocks = [] := by
  refine ⟨?_, fun _ => ⟨rfl, ⟨rfl, ⟨rfl, rfl, rfl⟩, [], rfl, rfl, rfl⟩, rfl⟩⟩
  have hallowed : Allowed {} (messageStartEvent estimate response) := rfl
  simp [hallowed]

theorem convertCall_fresh : (convertCall estimate call).Spec Allowed next {} {}
      (ChunkPhase.Right .fresh call) fun s' t' => Follows s' t' (ChunkPhase.next .fresh call) := by
  unfold ChunkPhase.Right ChunkPhase.next
  -- the first chunk begins the message, with or without a choice
  cases hchoices : call.chunk.choices with
  | nil =>
    have hread : Conversion.Reads (streamResponseOpenAI2Claude estimate 1 call.chunk)
        { usage := call.usage } {} True (Shows .idle) := by
      refine Emitter.Spec.congr (g := (emit [messageStartEvent estimate call.chunk]).seq skip) ?_ ?_
      · simp [streamResponseOpenAI2Claude, hchoices]
      · exact ((messageStart_reads estimate call.usage).seq fun info' t' h' =>
          Emitter.Spec.skip h'.2.1).given (by simp)
    exact (convertCall_reads hread).weaken (by simp) fun s' t' h' => h'.2.follows h'.1
  | cons choice choices =>
    have hread : Conversion.Reads (streamResponseOpenAI2Claude estimate 1 call.chunk)
        { usage := call.usage } {} (choice.finished?.isSome → call.available.isSome)
        (Leaves choice (firstPhase choice.delta)) := by
      refine Emitter.Spec.congr (g := (emit
        [messageStartEvent estimate call.chunk]).seq (firstChoice call.chunk choice)) ?_ ?_
      · simp [streamResponseOpenAI2Claude, hchoices]
      · refine ((messageStart_reads estimate call.usage).seq ?_).weaken
          (C := True ∧ (choice.finished?.isSome → call.available.isSome)) (by simp) fun _ _ hQ => hQ
        rintro _ t' ⟨rfl, hidle, hblocks⟩
        exact firstChoice_reads hidle hblocks
    exact (convertCall_reads hread).weaken (by simp) fun s' t' h' => h'.2.follows h'.1

/-- A chunk without a choice. -/
theorem usageOnly_reads (h : Shows c info t) (response : ChatCompletionsStreamResponse) :
    (usageOnly response).Reads info t ((availableUsage response info).isSome → c.Closable)
      fun info' t' => if (availableUsage response info).isSome then info'.done = true
        else Shows c info' t' := by
  cases havailable : availableUsage response info with
  | none =>
    have hskip : usageOnly response info = (emit [] : Conversion) info := by
      simp only [usageOnly, havailable]
      rfl
    exact (Emitter.Spec.congr hskip (Emitter.Spec.skip h)).weaken (by simp) fun _ _ hQ => by
      simpa using hQ
  | some u =>
    have hclose : usageOnly response info = closeMessage (some u)
        (if openAIFinishReasonToClaudeStopReason info.finishReason = "" then "end_turn"
          else openAIFinishReasonToClaudeStopReason info.finishReason) info := by
      simp only [usageOnly, havailable]
    exact (Emitter.Spec.congr hclose (closeMessage_reads h (some u) _)).weaken (by simp)
      fun _ _ hQ => by simpa using hQ

theorem convertCall_later (hcount : 0 < s.sendResponseCount) (h : Shows c s.info t) :
    (convertCall estimate call).Spec Allowed next s t
      (c.LaterRight call) fun s' t' => Follows s' t' (c.laterNext call) := by
  have hshows : Shows c { s.info with usage := call.usage } t := ⟨h.notDone, h.running, h.blocks⟩
  have hdone : s.info.done = false := h.notDone
  have hnotFirst : s.sendResponseCount ≠ 0 := by omega
  unfold ChunkPhase.LaterRight ChunkPhase.laterNext
  cases hchoices : call.chunk.choices with
  | nil =>
    have hread : Conversion.Reads (streamResponseOpenAI2Claude estimate
        (s.sendResponseCount + 1) call.chunk) { s.info with usage := call.usage } t _ _ :=
      Emitter.Spec.congr (by simp [streamResponseOpenAI2Claude, hchoices, hdone, hnotFirst])
        (usageOnly_reads hshows call.chunk)
    refine (convertCall_reads hread).weaken Iff.rfl ?_
    rintro s' t' ⟨hcount', hQ⟩
    have havailable : availableUsage call.chunk { s.info with usage := call.usage } =
        call.available := rfl
    rw [havailable] at hQ
    split_ifs at hQ ⊢
    · exact hQ
    · exact hQ.follows hcount'
  | cons choice choices =>
    -- a finished choice without a usage only leaves its reason
    have hwaits : ∀ finishReason, choice.finished? = some finishReason → call.chunk.usage = none →
        Conversion.Reads (streamResponseOpenAI2Claude estimate
          (s.sendResponseCount + 1) call.chunk) { s.info with usage := call.usage } t True
            (Shows c) := by
      intro finishReason hfinished husage
      exact Emitter.Spec.congr (g := .modify fun info => { info with finishReason })
        (by simp [streamResponseOpenAI2Claude, hchoices, hdone, hnotFirst, hfinished, husage,
          Emitter.modify])
        (Emitter.Spec.modify ⟨h.notDone, h.running, h.blocks⟩)
    have hgoes : (choice.finished?.isSome → call.chunk.usage.isSome) →
        Conversion.Reads (streamResponseOpenAI2Claude estimate
          (s.sendResponseCount + 1) call.chunk) { s.info with usage := call.usage } t
          (c.ContentRight choice.delta ∧
            (choice.finished?.isSome → (c.content choice.delta).Closable))
          (Leaves choice (c.content choice.delta)) := by
      intro hend
      refine Emitter.Spec.congr (g := laterChoice call.chunk choice) ?_
        (laterChoice_reads hshows hend)
      cases hfinished : choice.finished? with
      | none => simp [streamResponseOpenAI2Claude, hchoices, hdone, hnotFirst, hfinished]
      | some finishReason =>
        cases husage : call.chunk.usage with
        | none => simp [hfinished, husage] at hend
        | some u =>
          simp [streamResponseOpenAI2Claude, hchoices, hdone, hnotFirst, hfinished, husage]
    dsimp only
    cases hfinished : choice.finished? with
    | none =>
      have hread := convertCall_reads (hgoes (by simp [hfinished]))
      rw [hfinished] at hread
      refine hread.weaken Iff.rfl fun s' t' h' => ?_
      have hfollows := h'.2.follows h'.1
      rw [hfinished] at hfollows
      exact hfollows
    | some finishReason =>
      cases husage : call.chunk.usage with
      | none =>
        exact (convertCall_reads (hwaits finishReason hfinished husage)).weaken Iff.rfl
          fun s' t' h' => h'.2.follows h'.1
      | some u =>
        have hread := convertCall_reads (hgoes (by simp [husage]))
        rw [hfinished] at hread
        refine hread.weaken Iff.rfl fun s' t' h' => ?_
        have hfollows := h'.2.follows h'.1
        rw [hfinished] at hfollows
        exact hfollows

theorem convertCall_ended (h : s.info.done = true) :
    (convertCall estimate call).Spec Allowed next s t True
      fun s' t' => Follows s' t' .ended := by
  have hskip : streamResponseOpenAI2Claude estimate (s.sendResponseCount + 1) call.chunk
      { s.info with usage := call.usage } = ({ s.info with usage := call.usage }, []) := by
    simp [streamResponseOpenAI2Claude, h]
  refine ⟨by simp [convertCall, hskip], fun _ => ?_⟩
  simpa [convertCall, hskip, Follows] using h

theorem convertCall_follows (s : ConvertState) (t : BlockState) (c : ChunkPhase)
    (call : ConvertCall) (h : Follows s t c) :
    (convertCall estimate call).Spec Allowed next s t (c.Right call) fun s' t' =>
      Follows s' t' (c.next call) := by
  cases c with
  | fresh =>
    obtain ⟨rfl, rfl⟩ := h
    exact convertCall_fresh estimate
  | ended => exact convertCall_ended estimate h
  | idle => exact convertCall_later estimate h.1 h.2
  | writing kind => exact convertCall_later estimate h.1 h.2
  | tools started greatest => exact convertCall_later estimate h.1 h.2

/-- The events of a stream are well-formed exactly if its chunks are in order. -/
theorem well_formed_iff_in_order (estimatePromptTokens : Int) (calls : List ConvertCall) :
    WellFormedEvents (claudeEvents estimatePromptTokens calls) ↔
      Along ChunkPhase.Right ChunkPhase.next .fresh calls :=
  Transducer.accepts_outputs_iff (convertCall_follows estimatePromptTokens)
    (show Follows {} {} .fresh from ⟨rfl, rfl⟩) calls

/-- Two calls in the first chunk, then a fragment for each. -/
def twoCalls : List ConvertCall :=
  [{ chunk := { choices := [{ delta := { role := "assistant", toolCalls :=
      [{ index := some 0, id := "call_a", function := { name := "f" } },
       { index := some 1, id := "call_b", function := { name := "g" } }] } }] } },
   { chunk := { choices := [{ delta := { toolCalls :=
      [{ index := some 0, function := { arguments := "\x7b\x7d" } }] } }] } },
   { chunk := { choices := [{ delta := { toolCalls :=
      [{ index := some 1, function := { arguments := "\x7b\x7d" } }] } }] } }]

/-- Only the first call is started: the fragment of the second one goes to no block. -/
theorem second_call_not_started :
    (claudeEvents 0 twoCalls).map (fun event => (event.type, event.index)) =
      [(.messageStart, none), (.contentBlockStart, some 0), (.contentBlockDelta, some 0),
       (.contentBlockDelta, some 1)] ∧
    ¬ WellFormedEvents (claudeEvents 0 twoCalls) := by
  refine ⟨by decide +kernel, ?_⟩
  unfold WellFormedEvents
  decide +kernel
