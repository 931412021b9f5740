/-
Which chat streams keep their content as Claude streams.

Text, thinking and the argument fragments of tool calls are compared before and after
the conversion.  Content is lost where a chunk carries more than the converter reads of
it: text next to thinking or to tool calls, fragments of a second call in the first
chunk, anything in a chunk that is finished and has no usage, and anything after the end.

* `emitted` — what the deltas of an event list amount to;
* `KeepsContent` — the chunks that are converted whole;
* `content_kept` — a stream of such chunks keeps its content;
* `last_text_lost` — text in the chunk that finishes the answer.
-/
import AcuGateway.ChatToClaude
import AcuGateway.Lib.Routing

open List Option Emitter String

/-! ### Content before and after -/

variable (event : ClaudeResponse)

/-- The text of a `text_delta`. -/
def eventText : String :=
  if event.type = .contentBlockDelta ∧ event.delta.map ClaudeMediaMessage.type =
      some .textDelta then
    (event.delta.bind ClaudeMediaMessage.text).getD ""
  else ""

def eventThinking : String :=
  if event.type = .contentBlockDelta ∧
      event.delta.map ClaudeMediaMessage.type = some .thinkingDelta then
    (event.delta.bind ClaudeMediaMessage.thinking).getD ""
  else ""

variable (index : Int)

/-- The fragment of an `input_json_delta` for block number `index`. -/
def eventJson (event : ClaudeResponse) : String :=
  if event.type = .contentBlockDelta ∧
      event.delta.map ClaudeMediaMessage.type = some .inputJsonDelta ∧ event.index = some index then
    (event.delta.bind ClaudeMediaMessage.partialJson).getD ""
  else ""

variable (f : ClaudeResponse → String)

/-- What a reading of the events amounts to. -/
def emitted (events : List ClaudeResponse) : String := join (events.map f)

/-- The index and the arguments of each tool call, from place `place` on. -/
def callFragments : Nat → List ToolCallResponse → List (Int × String)
  | _, [] => []
  | place, call :: calls =>
    (toolOffset place call, call.function.arguments) :: callFragments (place + 1) calls

variable (call : ConvertCall)

namespace ConvertCall

/-- What the chunk adds to its choice. -/
def delta : ChatStreamDelta := (call.chunk.choices.head?.map ChatStreamChoice.delta).getD {}

def text : String := call.delta.getContentString

def reasoning : String := call.delta.getReasoningContent

def fragments : List (Int × String) := callFragments 0 call.delta.toolCalls

end ConvertCall

open ConvertCall

/-- The fragments of one index, put together. -/
def argumentsOf (fragments : List (Int × String)) : String :=
  join (fragments.map fun fragment => if fragment.1 = index then fragment.2 else "")

/-- Text, thinking and arguments are the same before and after.  A tool call with arguments
has a block of its own, which is given by `block`. -/
structure ContentKept (calls : List ConvertCall) (events : List ClaudeResponse) : Prop where
  text : emitted eventText events = join (calls.map text)
  reasoning : emitted eventThinking events = join (calls.map reasoning)
  tools : ∃ block : Int → Option Int,
    Routed block (fun index => argumentsOf index (calls.flatMap fragments))
    (fun index => emitted (eventJson index) events)

/-! ### Chunks that are converted whole -/

/-- The chunk carries nothing. -/
def ConvertCall.Empty : Prop :=
  call.text = "" ∧ call.reasoning = "" ∧ ∀ fragment ∈ call.fragments, fragment.2 = ""
deriving Decidable

/-- The indices with arguments in the run of tool chunks that is open, and in earlier runs. -/
structure ToolRuns where
  run : List Int := []
  earlier : List Int := []

/-- A run goes on while no text comes in between. -/
def ToolRuns.enter (runs : ToolRuns) (info : ClaudeConvertInfo) : ToolRuns :=
  if info.lastMessagesType = .tools then runs
  else { run := [], earlier := runs.earlier ++ runs.run }

/-- The indices of the fragments that are not empty. -/
def writtenIndices (fragments : List (Int × String)) : List Int :=
  (fragments.filter (·.2 ≠ "")).map Prod.fst

/-- A later chunk whose end waits for the usage. -/
def ConvertCall.waits : Bool :=
  (call.chunk.choices.head?.bind ChatStreamChoice.finished?).isSome && call.chunk.usage.isNone

/-- The converter reads all that the chunk carries, and each argument fragment belongs to a
call of the run that is open. -/
def KeepsContent (s : ConvertState × ToolRuns) (call : ConvertCall) : Prop :=
  if s.1.info.done then call.Empty
  else if s.1.sendResponseCount = 0 then
    (call.text = "" ∨ call.reasoning = "") ∧
      (∀ fragment ∈ call.fragments.head?, fragment.2 ≠ "" → fragment.1 = 0) ∧
      ∀ fragment ∈ call.fragments.tail, fragment.2 = ""
  else if call.waits then call.Empty
  else if call.delta.toolCalls.isEmpty then call.text = "" ∨ call.reasoning = ""
  else call.text = "" ∧ call.reasoning = "" ∧
    ∀ index ∈ writtenIndices call.fragments, 0 ≤ index ∧ index ∉ (s.2.enter s.1.info).earlier

instance (s : ConvertState × ToolRuns) (call : ConvertCall) : Decidable (KeepsContent s call) := by
  unfold KeepsContent
  infer_instance

/-- The runs after a chunk. -/
def ToolRuns.next (s : ConvertState) (runs : ToolRuns) (call : ConvertCall) : ToolRuns :=
  if s.info.done ∨ call.delta.toolCalls.isEmpty then runs
  else if s.sendResponseCount = 0 then
    { runs with run := runs.run ++ writtenIndices call.fragments }
  else if call.waits then runs
  else
    { runs.enter s.info with
      run := (runs.enter s.info).run ++ writtenIndices call.fragments }

/-- A stream of chunks, with the runs next to the state of the conversion. -/
def trackedCall (estimate : Int) : ConvertCall → Emitter (ConvertState × ToolRuns) ClaudeResponse :=
  Transducer.withControl (convertCall estimate) ToolRuns.next

/-! ### What the converter emits -/

/-- A reading that finds something in deltas only. -/
def Silent : Prop := ∀ event, event.type ≠ .contentBlockDelta → f event = ""

theorem eventText_silent : Silent eventText := fun _ h => if_neg fun h' => h h'.1

theorem eventThinking_silent : Silent eventThinking := fun _ h => if_neg fun h' => h h'.1

theorem eventJson_silent : Silent (eventJson index) := fun _ h => if_neg fun h' => h h'.1

@[simp] theorem emitted_nil : emitted f [] = "" := rfl

@[simp] theorem emitted_cons (event : ClaudeResponse)
    (events : List ClaudeResponse) : emitted f (event :: events) = f event ++ emitted f events := by
  simp [emitted, join_cons]

@[simp] theorem emitted_append (events events' : List ClaudeResponse) :
    emitted f (events ++ events') = emitted f events ++ emitted f events' := by
  simp [emitted, join_append]

variable {events : List ClaudeResponse}

section Emits

variable {f : ClaudeResponse → String} (hf : Silent f) (info : ClaudeConvertInfo)

include hf

theorem emitted_of_no_delta (h : ∀ event ∈ events, event.type ≠ .contentBlockDelta) :
    emitted f events = "" := by
  rw [emitted, Text.join_eq_empty_iff]
  intro s hs
  obtain ⟨event, hmem, rfl⟩ := mem_map.mp hs
  exact hf event (h event hmem)

theorem emitted_stopEvents : emitted f (stopEvents info) = "" := by
  refine emitted_of_no_delta hf fun event hevent => ?_
  unfold stopEvents at hevent
  cases hlast : info.lastMessagesType <;> simp [hlast, generateStopBlock] at hevent
  · rw [hevent]
    nofun
  · obtain ⟨offset, -, rfl⟩ := hevent
    nofun
  · rw [hevent]
    nofun

theorem emitted_closeMessage (oaiUsage : Option Usage) (stopReason : String) :
    emitted f (closeMessage oaiUsage stopReason info).2 = "" := by
  have hstop : f { type := .messageStop } = "" := hf _ nofun
  have hdelta : ∀ u, f (messageDeltaEvent u stopReason) = "" := fun u => hf _ nofun
  show emitted f (stopEvents info ++ (((oaiUsage.map (messageDeltaEvent · stopReason)).toList ++
    [{ type := .messageStop }]) ++ [])) = ""
  cases oaiUsage <;> simp [emitted_stopEvents hf, hstop, hdelta]

variable (response : ChatCompletionsStreamResponse) (choice : ChatStreamChoice)

theorem emitted_finish : emitted f (finishChoice response choice info).2 = "" := by
  unfold finishChoice
  cases choice.finished? with
  | none => rfl
  | some finishReason => exact emitted_closeMessage hf _ _ _

theorem emitted_switchTo (last : LastMessageType) : emitted f (switchTo last info).2 = "" := by
  unfold switchTo
  split
  · rfl
  · show emitted f (stopEvents info ++ []) = ""
    simp [emitted_stopEvents hf]

theorem emitted_switchToTools : emitted f (switchToTools info).2 = "" := by
  unfold switchToTools
  split
  · rfl
  · show emitted f ((stopEvents info ++ []) ++ []) = ""
    simp [emitted_stopEvents hf]

theorem emitted_firstText (kind : TextKind) (s : String) :
    emitted f (firstText kind s info).2 =
      f (deltaBlock (switchTo kind.lastType info).1.index (kind.delta s)) := by
  have hstart : ∀ index, f (startBlock index kind.opened) = "" := fun _ => hf _ nofun
  show emitted f ((switchTo kind.lastType info).2 ++ [_, _]) = _
  simp [emitted_switchTo hf, hstart]

theorem emitted_laterText (kind : TextKind) (s : String) :
    emitted f (laterText kind s info).2 =
      f (deltaBlock (switchTo kind.lastType info).1.index (kind.delta s)) := by
  have hstart : ∀ index, f (startBlock index kind.opened) = "" := fun _ => hf _ nofun
  show emitted f (((switchTo kind.lastType info).2 ++
    (if info.lastMessagesType = kind.lastType then [] else [startBlock _ kind.opened])) ++
    [deltaBlock (switchTo kind.lastType info).1.index (kind.delta s)]) = _
  split <;> simp [emitted_switchTo hf, hstart]

/-- What an argument fragment amounts to at block number `index`. -/
def fragmentAt (f : ClaudeResponse → String) (index : Int) (arguments : String) : String :=
  if arguments ≠ "" then f (deltaBlock index (jsonDelta arguments)) else ""

omit hf in
theorem emitted_jsonEvents (call : ToolCallResponse) :
    emitted f (jsonEvents index call) = fragmentAt f index call.function.arguments := by
  unfold jsonEvents fragmentAt
  split <;> simp

theorem emitted_firstTool (call : ToolCallResponse) :
    emitted f (firstTool call info).2 = fragmentAt f 0 call.function.arguments := by
  have hstart : f (startBlock 0 (toolBlock call)) = "" := hf _ nofun
  show emitted f (startBlock 0 (toolBlock call) :: jsonEvents 0 call) = _
  simp [hstart, emitted_jsonEvents]

theorem emitted_laterCalls (base : Int) (place : Nat) (calls : List ToolCallResponse) :
    emitted f (laterCalls base place calls) = join ((callFragments place calls).map
      fun fragment => fragmentAt f (base + fragment.1) fragment.2) := by
  induction calls generalizing place with
  | nil => rfl
  | cons call calls ih =>
    have hstart : ∀ index, f (startBlock index (toolBlock call)) = "" := fun _ => hf _ nofun
    have hcall : emitted f (toolEvents base (toolOffset place call) call) =
        fragmentAt f (base + toolOffset place call) call.function.arguments := by
      unfold toolEvents
      split <;> simp [hstart, emitted_jsonEvents]
    simp [laterCalls, callFragments, join_cons, hcall, ih]

theorem emitted_laterTools (calls : List ToolCallResponse) :
    emitted f (laterTools calls info).2 = join ((callFragments 0 calls).map
      fun fragment => fragmentAt f ((switchToTools info).1.toolCallBaseIndex + fragment.1)
        fragment.2) := by
  show emitted f ((switchToTools info).2 ++ laterCalls _ 0 calls) = _
  rw [emitted_append, emitted_switchToTools hf, emitted_laterCalls hf, empty_append]

/-- What the text or the thinking of a chunk amounts to at block number `index`. -/
def writtenAt (f : ClaudeResponse → String) (index : Int) (delta : ChatStreamDelta) : String :=
  match delta.written? with
  | none => ""
  | some (kind, s) => f (deltaBlock index (kind.delta s))

theorem emitted_firstChoice : ∃ index, emitted f (firstChoice response choice info).2 =
      ((callFragments 0 choice.delta.toolCalls).head?.map fun fragment =>
        fragmentAt f 0 fragment.2).getD "" ++ writtenAt f index choice.delta := by
  have htools : emitted f (firstCalls choice.delta.toolCalls info).2 =
      ((callFragments 0 choice.delta.toolCalls).head?.map fun fragment =>
        fragmentAt f 0 fragment.2).getD "" := by
    -- only the first call of the first chunk is converted
    cases choice.delta.toolCalls with
    | nil => rfl
    | cons call calls => exact emitted_firstTool hf info call
  have hwritten : ∀ info', ∃ index, emitted f (firstWritten choice.delta info').2 =
      writtenAt f index choice.delta := by
    intro info'
    unfold firstWritten writtenAt
    cases choice.delta.written? with
    | none => exact ⟨0, rfl⟩
    | some written => exact ⟨_, emitted_firstText hf info' written.1 written.2⟩
  obtain ⟨index, hindex⟩ := hwritten (firstCalls choice.delta.toolCalls info).1
  refine ⟨index, ?_⟩
  rw [firstChoice, seq_snd, seq_snd, emitted_append, emitted_append, htools, hindex,
    emitted_finish hf, append_empty]

theorem emitted_laterChoice : ∃ index, emitted f (laterChoice response choice info).2 =
      if choice.delta.toolCalls.isEmpty then writtenAt f index choice.delta
      else join ((callFragments 0 choice.delta.toolCalls).map fun fragment =>
        fragmentAt f ((switchToTools info).1.toolCallBaseIndex + fragment.1) fragment.2) := by
  rw [laterChoice, seq_snd, emitted_append, emitted_finish hf, append_empty, laterContent]
  cases choice.delta.toolCalls with
  | nil =>
    unfold writtenAt
    cases choice.delta.written? with
    | none => exact ⟨0, rfl⟩
    | some written => exact ⟨_, emitted_laterText hf info written.1 written.2⟩
  | cons call calls => exact ⟨0, emitted_laterTools hf info (call :: calls)⟩

omit hf in
theorem writtenAt_empty : writtenAt f index {} = "" := rfl

omit hf in
theorem switchToTools_base (usage : Option Usage) :
    (switchToTools { info with usage }).1.toolCallBaseIndex =
      (switchToTools info).1.toolCallBaseIndex := by
  unfold switchToTools
  cases hlast : info.lastMessagesType <;>
    simp [stopOpenBlocksAndAdvance, stopOpenBlocks, advance, hlast]

theorem emitted_usageOnly : emitted f (usageOnly response info).2 = "" := by
  unfold usageOnly
  split
  · rfl
  · exact emitted_closeMessage hf _ _ _

/-- What a call of the converter emits. -/
theorem emitted_convertCall (estimate : Int) (s : ConvertState) (call : ConvertCall) :
    ∃ index, emitted f (convertCall estimate call s).2 = if s.info.done then ""
      else if s.sendResponseCount = 0 then
        (call.fragments.head?.map fun fragment => fragmentAt f 0 fragment.2).getD "" ++
          writtenAt f index call.delta
      else if call.waits then ""
      else if call.delta.toolCalls.isEmpty then writtenAt f index call.delta
      else join (call.fragments.map fun fragment =>
        fragmentAt f ((switchToTools s.info).1.toolCallBaseIndex + fragment.1) fragment.2) := by
  have hstart : f (messageStartEvent estimate call.chunk) = "" := hf _ nofun
  simp only [convertCall, streamResponseOpenAI2Claude, Nat.add_eq_right]
  -- the branches of the converter, in its order
  by_cases hdone : s.info.done = true
  · exact ⟨0, by simp [hdone]⟩
  simp only [if_neg hdone]
  by_cases hfirst : s.sendResponseCount = 0
  · simp only [if_pos hfirst]
    unfold fragments delta
    cases call.chunk.choices with
    | nil => exact ⟨0, by simp [hstart, skip, callFragments, writtenAt_empty]⟩
    | cons choice choices =>
      obtain ⟨index, hindex⟩ :=
        emitted_firstChoice hf { s.info with usage := call.usage } call.chunk choice
      refine ⟨index, ?_⟩
      simp only [seq_snd, emit_snd, emit_fst, emitted_append, emitted_cons, emitted_nil,
        hstart, hindex]
      simp
  · simp only [if_neg hfirst]
    unfold waits fragments delta
    cases call.chunk.choices with
    | nil => exact ⟨0, by simp [emitted_usageOnly hf, writtenAt_empty]⟩
    | cons choice choices =>
      obtain ⟨index, hindex⟩ :=
        emitted_laterChoice hf { s.info with usage := call.usage } call.chunk choice
      rw [switchToTools_base] at hindex
      refine ⟨index, ?_⟩
      -- a chunk that finishes waits until its usage comes
      cases hfinished : choice.finished? with
      | none => simpa [hfinished] using hindex
      | some finishReason =>
        cases husage : call.chunk.usage with
        | none => simp [hfinished]
        | some u => simpa [hfinished] using hindex

end Emits

/-! ### Text and thinking -/

variable {arguments : String}

theorem fragmentAt_text : fragmentAt eventText index arguments = "" := by
  unfold fragmentAt
  split <;> rfl

theorem fragmentAt_thinking : fragmentAt eventThinking index arguments = "" := by
  unfold fragmentAt
  split <;> rfl

theorem fragmentAt_json (index' : Int) :
    fragmentAt (eventJson index) index' arguments = if index' = index then arguments else "" := by
  unfold fragmentAt
  by_cases hargs : arguments = ""
  · simp [hargs]
  · simp [hargs, eventJson, deltaBlock, jsonDelta]

variable {delta : ChatStreamDelta}

/-- Text is read where there is no thinking. -/
theorem writtenAt_text (h : delta.getContentString = "" ∨ delta.getReasoningContent = "") :
    writtenAt eventText index delta = delta.getContentString := by
  unfold writtenAt ChatStreamDelta.written?
  by_cases hr : delta.getReasoningContent = ""
  · by_cases hc : delta.getContentString = ""
    · simp [hr, hc]
    · simp [hr, hc, eventText, deltaBlock, TextKind.delta]
  · simp [hr, h.resolve_right hr, eventText, deltaBlock, TextKind.delta]

/-- Thinking is always read. -/
theorem writtenAt_thinking : writtenAt eventThinking index delta = delta.getReasoningContent := by
  unfold writtenAt ChatStreamDelta.written?
  by_cases hr : delta.getReasoningContent = ""
  · by_cases hc : delta.getContentString = ""
    · simp [hr, hc]
    · simp [hr, hc, eventThinking, deltaBlock, TextKind.delta]
  · simp [hr, eventThinking, deltaBlock, TextKind.delta]

theorem writtenAt_json (index' : Int) : writtenAt (eventJson index) index' delta = "" := by
  unfold writtenAt
  split
  · rfl
  · rename_i kind s _
    cases kind <;> simp [eventJson, deltaBlock, TextKind.delta]

theorem join_map_empty {α : Type} (l : List α) : join (l.map fun _ => "") = "" := by
  rw [Text.join_eq_empty_iff]
  simp

variable {call : ConvertCall} {s : ConvertState × ToolRuns}

/-- A reading that finds nothing in fragments finds what the chunk writes. -/
theorem emitted_written {f : ClaudeResponse → String} (hf : Silent f)
    (hfragment : ∀ index arguments, fragmentAt f index arguments = "") {x : String}
    (hwritten : call.text = "" ∨ call.reasoning = "" → ∀ index, writtenAt f index call.delta = x)
    (hempty : call.text = "" → call.reasoning = "" → "" = x) (estimate : Int)
    (h : KeepsContent s call) :
    emitted f (convertCall estimate call s.1).2 = x := by
  obtain ⟨index, hindex⟩ := emitted_convertCall hf estimate s.1 call
  rw [hindex]
  unfold KeepsContent at h
  split_ifs at h ⊢
  · exact hempty h.1 h.2.1
  · have hhead : (call.fragments.head?.map fun _ => "").getD "" = "" := by
      cases call.fragments.head? <;> rfl
    simp only [hfragment, hhead, empty_append]
    exact hwritten h.1 index
  · exact hempty h.1 h.2.1
  · exact hwritten h index
  · simp only [hfragment, join_map_empty]
    exact hempty h.1 h.2.1

theorem emitted_text (estimate : Int) (h : KeepsContent s call) :
    emitted eventText (convertCall estimate call s.1).2 = call.text :=
  emitted_written eventText_silent fragmentAt_text (fun h index => writtenAt_text index h)
    (fun h _ => h.symm) estimate h

theorem emitted_reasoning (estimate : Int) (h : KeepsContent s call) :
    emitted eventThinking (convertCall estimate call s.1).2 = call.reasoning :=
  emitted_written eventThinking_silent fragmentAt_thinking (fun _ index => writtenAt_thinking index)
    (fun _ h => h.symm) estimate h

/-! ### Tool calls -/

/-- What arrives at a block when fragments are sent to the blocks from `base` on. -/
def arrivingAt (base index : Int) (fragments : List (Int × String)) : String :=
  join (fragments.map fun fragment => if base + fragment.1 = index then fragment.2 else "")

/-- The blocks of a run are numbered from its base on, those of earlier runs are below it. -/
structure OwnedRun (own : Int → Option Int) (runs : ToolRuns) (base : Int) : Prop where
  known : ∀ i, own i ≠ none → i ∈ runs.run ∨ i ∈ runs.earlier
  inRun : ∀ i ∈ runs.run, own i = some (base + i)
  below : ∀ i b, own i = some b → i ∉ runs.run → b < base

variable {own : Int → Option Int} {runs : ToolRuns} {sent arrived : Int → String}

section Run

variable {base : Int}

/-- A fragment of a run goes to the block of its index, which no other index has. -/
theorem OwnedRun.free (h : OwnedRun own runs base) {i : Int} (hpos : 0 ≤ i)
    (hnew : i ∉ runs.earlier) :
    own i = some (base + i) ∨ (own i = none ∧ ∀ j, own j ≠ some (base + i)) := by
  by_cases hi : i ∈ runs.run
  · exact .inl (h.inRun i hi)
  · have hnone : own i = none := by
      by_contra hne
      exact (h.known i hne).elim hi hnew
    refine .inr ⟨hnone, fun j hj => ?_⟩
    by_cases hrun : j ∈ runs.run
    · rw [h.inRun j hrun, Option.some.injEq] at hj
      have hji : j = i := by omega
      exact hi (hji ▸ hrun)
    · have := h.below j _ hj hrun
      omega

theorem OwnedRun.update (h : OwnedRun own runs base) (i : Int) :
    OwnedRun (Function.update own i (some (base + i))) { runs with run := runs.run ++ [i] }
      base := by
  refine ⟨?_, ?_, ?_⟩
  · -- the index of this fragment is in the run now
    intro j hj
    by_cases hji : j = i
    · simp [hji]
    · rw [Function.update_of_ne hji] at hj
      rcases h.known j hj with hrun | hearlier
      · exact .inl (mem_append_left _ hrun)
      · exact .inr hearlier
  · intro j hj
    by_cases hji : j = i
    · rw [hji, Function.update_self]
    · rw [Function.update_of_ne hji]
      have hrun : j ∈ runs.run := by simpa [hji] using hj
      exact h.inRun j hrun
  · intro j b hj hrun
    have hji : j ≠ i := by
      rintro rfl
      simp at hrun
    rw [Function.update_of_ne hji] at hj
    exact h.below j b hj fun hmem => hrun (mem_append_left _ hmem)

/-- The fragments of a chunk, one after the other. -/
theorem routed_fragments (hrouted : Routed own sent arrived) (h : OwnedRun own runs base)
    (fragments : List (Int × String))
    (hindices : ∀ i ∈ writtenIndices fragments, 0 ≤ i ∧ i ∉ runs.earlier) :
    ∃ own', Routed own' (fun i => sent i ++ argumentsOf i fragments)
        (fun b => arrived b ++ arrivingAt base b fragments) ∧
      OwnedRun own' { runs with run := runs.run ++ writtenIndices fragments } base ∧
      ∀ i b, own' i = some b → own i = some b ∨ (i ∈ writtenIndices fragments ∧ b = base + i) := by
  induction fragments generalizing own sent arrived runs with
  | nil => exact ⟨own, by simpa [argumentsOf, arrivingAt] using hrouted,
      by simpa [writtenIndices] using h, fun _ _ => .inl⟩
  | cons fragment fragments ih =>
    obtain ⟨i, s⟩ := fragment
    have hargs : ∀ j, argumentsOf j ((i, s) :: fragments) =
        (if j = i then s else "") ++ argumentsOf j fragments := by
      intro j
      simp [argumentsOf, String.join_cons, eq_comm]
    have harriving : ∀ b, arrivingAt base b ((i, s) :: fragments) =
        (if b = base + i then s else "") ++ arrivingAt base b fragments := by
      intro b
      simp [arrivingAt, String.join_cons, eq_comm]
    simp only [hargs, harriving, ← String.append_assoc]
    -- an empty fragment is no fragment
    by_cases hs : s = ""
    · subst hs
      have hwritten : writtenIndices ((i, "") :: fragments) = writtenIndices fragments := by
        simp [writtenIndices]
      rw [hwritten] at hindices ⊢
      exact ih (hrouted.send_empty i (base + i)) h hindices
    · have hwritten : writtenIndices ((i, s) :: fragments) = i :: writtenIndices fragments := by
        simp [writtenIndices, hs]
      rw [hwritten] at hindices ⊢
      obtain ⟨⟨hpos, hnew⟩, hrest⟩ := forall_mem_cons.mp hindices
      obtain ⟨own', hrouted', howned, hfrom⟩ :=
        ih (hrouted.send (h.free hpos hnew) s) (h.update i) hrest
      refine ⟨own', hrouted', by simpa using howned, fun j b hj => ?_⟩
      rcases hfrom j b hj with hold | ⟨hmem, hb⟩
      · by_cases hji : j = i
        · rw [hji, Function.update_self, Option.some.injEq] at hold
          exact .inr ⟨by simp [hji], by rw [hji]; exact hold.symm⟩
        · rw [Function.update_of_ne hji] at hold
          exact .inl hold
      · exact .inr ⟨mem_cons_of_mem i hmem, hb⟩

end Run

/-! ### How blocks are numbered -/

/-- The two states number blocks alike. -/
structure SameNumbers (info info' : ClaudeConvertInfo) : Prop where
  last : info'.lastMessagesType = info.lastMessagesType
  index : info'.index = info.index
  base : info'.toolCallBaseIndex = info.toolCallBaseIndex
  greatest : info'.toolCallMaxIndexOffset = info.toolCallMaxIndexOffset

/-- A chunk without tool calls leaves the numbers, or writes to a text block. -/
def Wrote (info info' : ClaudeConvertInfo) : Prop :=
  SameNumbers info info' ∨ ∃ kind : TextKind, info'.lastMessagesType = kind.lastType ∧
    info'.index = (switchTo kind.lastType info).1.index

/-- The blocks of tool calls, in a state of the conversion. -/
structure OwnedBlocks (own : Int → Option Int) (runs : ToolRuns)
    (info : ClaudeConvertInfo) : Prop where
  known : ∀ i, own i ≠ none → i ∈ runs.run ∨ i ∈ runs.earlier
  below : ∀ i b, own i = some b → b < (advance info).index
  inRun : info.lastMessagesType = .tools → OwnedRun own runs info.toolCallBaseIndex

section Numbers

variable {info info' : ClaudeConvertInfo}

theorem SameNumbers.advance_index (h : SameNumbers info info') :
    (advance info').index = (advance info).index := by
  unfold advance
  rw [h.last]
  cases info.lastMessagesType <;> simp [h.index, h.base, h.greatest]

variable (response : ChatCompletionsStreamResponse) (choice : ChatStreamChoice)

theorem finishChoice_numbers (info : ClaudeConvertInfo) :
    SameNumbers info (finishChoice response choice info).1 := by
  unfold finishChoice
  cases choice.finished? with
  | none => exact ⟨rfl, rfl, rfl, rfl⟩
  | some finishReason => exact ⟨rfl, rfl, rfl, rfl⟩

theorem usageOnly_numbers : SameNumbers info (usageOnly response info).1 := by
  unfold usageOnly
  split
  · exact ⟨rfl, rfl, rfl, rfl⟩
  · exact ⟨rfl, rfl, rfl, rfl⟩

variable {info'' : ClaudeConvertInfo}

theorem SameNumbers.trans (h : SameNumbers info info') (h' : SameNumbers info' info'') :
    SameNumbers info info'' :=
  ⟨h'.last.trans h.last, h'.index.trans h.index, h'.base.trans h.base, h'.greatest.trans h.greatest⟩

theorem switchTo_index (last : LastMessageType) : (switchTo last info).1.index =
      if info.lastMessagesType = last then info.index else (advance info).index := by
  unfold switchTo
  split <;> rfl

/-- Text goes to a block behind those of all tool calls. -/
theorem Wrote.advance_index (h : Wrote info info') :
    (advance info).index ≤ (advance info').index := by
  rcases h with h | ⟨kind, hlast, hindex⟩
  · exact Int.le_of_eq h.advance_index.symm
  · rw [switchTo_index] at hindex
    have hafter : (advance info').index = info'.index + 1 := by
      unfold advance
      rw [hlast]
      cases kind <;> rfl
    rw [hafter, hindex]
    split_ifs with hsame
    · unfold advance
      rw [hsame]
      cases kind <;> simp [TextKind.lastType]
    · omega

theorem OwnedBlocks.wrote (h : OwnedBlocks own runs info) (hw : Wrote info info') :
    OwnedBlocks own runs info' := by
  refine ⟨h.known, fun i b hi => ?_, fun htools => ?_⟩
  · have := h.below i b hi
    have := hw.advance_index
    omega
  · rcases hw with hw | ⟨kind, hlast, -⟩
    · rw [hw.base]
      exact h.inRun (hw.last.symm.trans htools)
    · rw [hlast] at htools
      cases kind <;> cases htools

/-- The run that the calls of a chunk belong to. -/
theorem OwnedBlocks.enter (h : OwnedBlocks own runs info) :
    OwnedRun own (runs.enter info) (switchToTools info).1.toolCallBaseIndex := by
  unfold ToolRuns.enter switchToTools
  by_cases hlast : info.lastMessagesType = .tools
  · simp only [if_pos hlast]
    exact h.inRun hlast
  · simp only [if_neg hlast]
    refine ⟨fun i hi => .inr ?_, fun i hi => (by cases hi), fun i b hi _ => h.below i b hi⟩
    exact mem_append.mpr (h.known i hi).symm

theorem le_maxOffset (greatest : Int) (place : Nat) (calls : List ToolCallResponse) :
    greatest ≤ maxOffset greatest place calls := by
  induction calls generalizing greatest place with
  | nil => exact Int.le_refl _
  | cons call calls ih =>
    refine Int.le_trans ?_ (ih _ (place + 1))
    split_ifs <;> omega

theorem fragment_le_maxOffset (greatest : Int) (place : Nat) (calls : List ToolCallResponse) :
    ∀ fragment ∈ callFragments place calls, fragment.1 ≤ maxOffset greatest place calls := by
  induction calls generalizing greatest place with
  | nil => nofun
  | cons call calls ih =>
    intro fragment hmem
    rcases mem_cons.mp hmem with rfl | hmem
    · refine Int.le_trans ?_ (le_maxOffset _ (place + 1) calls)
      split_ifs <;> omega
    · exact ih _ (place + 1) fragment hmem

/-- The next number is behind the run, also before its calls. -/
theorem advance_le_laterTools (calls : List ToolCallResponse) :
    (advance info).index ≤ (advance (laterTools calls info).1).index := by
  have hafter : (advance (laterTools calls info).1).index =
      (switchToTools info).1.toolCallBaseIndex +
        maxOffset (switchToTools info).1.toolCallMaxIndexOffset 0 calls + 1 := rfl
  have hmax := le_maxOffset (switchToTools info).1.toolCallMaxIndexOffset 0 calls
  rw [hafter]
  unfold switchToTools at hmax ⊢
  -- within a run of tools the base stays, and the offset only grows
  by_cases hlast : info.lastMessagesType = .tools
  · simp only [if_pos hlast] at hmax ⊢
    have hbefore : (advance info).index =
        info.toolCallBaseIndex + info.toolCallMaxIndexOffset + 1 := by
      unfold advance
      rw [hlast]
    omega
  · simp only [if_neg hlast] at hmax ⊢
    have hbase : (stopOpenBlocksAndAdvance.seq (.modify fun info' =>
        { info' with toolCallBaseIndex := info'.index, toolCallMaxIndexOffset := 0 })
        info).1.toolCallBaseIndex = (advance info).index := rfl
    have hzero : (stopOpenBlocksAndAdvance.seq (.modify fun info' =>
        { info' with toolCallBaseIndex := info'.index, toolCallMaxIndexOffset := 0 })
        info).1.toolCallMaxIndexOffset = 0 := rfl
    rw [hbase]
    rw [hzero] at hmax ⊢
    omega

/-- The blocks after the calls of a later chunk. -/
theorem OwnedBlocks.laterTools {own' : Int → Option Int} {runs' : ToolRuns}
    {calls : List ToolCallResponse} (h : OwnedBlocks own runs info)
    (howned : OwnedRun own' runs' (switchToTools info).1.toolCallBaseIndex)
    (hfrom : ∀ i b, own' i = some b → own i = some b ∨ (i ∈ writtenIndices (callFragments 0 calls) ∧
      b = (switchToTools info).1.toolCallBaseIndex + i)) :
    OwnedBlocks own' runs' (laterTools calls info).1 := by
  refine ⟨howned.known, fun i b hi => ?_, fun _ => howned⟩
  rcases hfrom i b hi with hold | ⟨hmem, rfl⟩
  · exact Int.lt_of_lt_of_le (h.below i b hold) (advance_le_laterTools calls)
  · obtain ⟨fragment, hfragment, rfl⟩ := mem_map.mp hmem
    have hle := fragment_le_maxOffset (switchToTools info).1.toolCallMaxIndexOffset 0 calls fragment
      (mem_of_mem_filter hfragment)
    show _ < (switchToTools info).1.toolCallBaseIndex +
      maxOffset (switchToTools info).1.toolCallMaxIndexOffset 0 calls + 1
    omega

theorem Wrote.trans_same (h : Wrote info info') (h' : SameNumbers info' info'') :
    Wrote info info'' := by
  rcases h with h | ⟨kind, hlast, hindex⟩
  · exact .inl (h.trans h')
  · exact .inr ⟨kind, h'.last.trans hlast, h'.index.trans hindex⟩

theorem SameNumbers.wrote (h : SameNumbers info info') (h' : Wrote info' info'') :
    Wrote info info'' := by
  rcases h' with h' | ⟨kind, hlast, hindex⟩
  · exact .inl (h.trans h')
  · rw [switchTo_index, h.last, h.index, h.advance_index, ← switchTo_index] at hindex
    exact .inr ⟨kind, hlast, hindex⟩

theorem laterChoice_wrote (hcalls : choice.delta.toolCalls = []) :
    Wrote info (laterChoice response choice info).1 := by
  have hcontent : Wrote info (laterContent choice.delta info).1 := by
    unfold laterContent
    rw [hcalls]
    cases choice.delta.written? with
    | none => exact .inl ⟨rfl, rfl, rfl, rfl⟩
    | some written => exact .inr ⟨written.1, rfl, rfl⟩
  exact hcontent.trans_same (finishChoice_numbers response choice _)

theorem firstWritten_wrote :
    Wrote info ((firstWritten choice.delta).seq (finishChoice response choice) info).1 := by
  have hcontent : Wrote info (firstWritten choice.delta info).1 := by
    unfold firstWritten
    cases choice.delta.written? with
    | none => exact .inl ⟨rfl, rfl, rfl, rfl⟩
    | some written => exact .inr ⟨written.1, rfl, rfl⟩
  exact hcontent.trans_same (finishChoice_numbers response choice _)

end Numbers

/-! ### Streams -/

/-- The tool calls of the chunks so far have their blocks. -/
def ToolsKept (s : ConvertState × ToolRuns) (calls : List ConvertCall)
    (events : List ClaudeResponse) : Prop :=
  (s.1.sendResponseCount = 0 → s = ({}, {}) ∧ calls = [] ∧ events = []) ∧
  ∃ own, Routed own (fun i => argumentsOf i (calls.flatMap fragments))
    (fun b => emitted (eventJson b) events) ∧ OwnedBlocks own s.2 s.1.info

variable {fragments : List (Int × String)}

section Step

variable {estimate : Int} {call : ConvertCall}

/-- A chunk whose fragments are all empty and that emits none. -/
theorem argumentsOf_empty (h : ∀ fragment ∈ fragments, fragment.2 = "") (i : Int) :
    argumentsOf i fragments = "" := by
  rw [argumentsOf, Text.join_eq_empty_iff]
  intro t ht
  obtain ⟨fragment, hmem, rfl⟩ := mem_map.mp ht
  simp [h fragment hmem]

/-- What a chunk adds to the arguments, and to the fragments at the blocks. -/
def StepKept (estimate : Int) (s : ConvertState × ToolRuns) (call : ConvertCall)
    (sent arrived : Int → String) : Prop :=
  ∃ own', Routed own' (fun i => sent i ++ argumentsOf i call.fragments)
    (fun b => arrived b ++ emitted (eventJson b) (convertCall estimate call s.1).2) ∧
    OwnedBlocks own' (ToolRuns.next s.1 s.2 call) (convertCall estimate call s.1).1.info

/-- A chunk without fragments, which only writes text if anything. -/
theorem stepKept_of_wrote (hrouted : Routed own sent arrived)
    (howned : OwnedBlocks own s.2 s.1.info) (hargs : ∀ i, argumentsOf i call.fragments = "")
    (hemits : ∀ b, emitted (eventJson b) (convertCall estimate call s.1).2 = "")
    (hruns : ToolRuns.next s.1 s.2 call = s.2)
    (hwrote : Wrote s.1.info (convertCall estimate call s.1).1.info) :
    StepKept estimate s call sent arrived := by
  refine ⟨own, ?_, ?_⟩
  · simpa only [hargs, hemits, append_empty] using hrouted
  · rw [hruns]
    exact howned.wrote hwrote

/-- The numbers after a call that is not the first one and has no tool calls. -/
theorem convertCall_wrote (hfirst : s.1.sendResponseCount ≠ 0)
    (hcalls : s.1.info.done = true ∨ call.waits = true ∨ call.delta.toolCalls = []) :
    Wrote s.1.info (convertCall estimate call s.1).1.info := by
  have hsame : SameNumbers s.1.info { s.1.info with usage := call.usage } := ⟨rfl, rfl, rfl, rfl⟩
  simp only [convertCall, streamResponseOpenAI2Claude, Nat.add_eq_right]
  by_cases hdone : s.1.info.done = true
  · simp only [if_pos hdone]
    exact .inl hsame
  simp only [if_neg hdone, if_neg hfirst]
  unfold waits delta at hcalls
  cases hchoices : call.chunk.choices with
  | nil => exact .inl (hsame.trans (usageOnly_numbers call.chunk))
  | cons choice choices =>
    simp only [hchoices, head?_cons, bind_some, map_some, getD_some] at hcalls
    dsimp only
    -- a choice without calls writes text at most
    have hgoes : choice.delta.toolCalls = [] →
        Wrote s.1.info (laterChoice call.chunk choice { s.1.info with usage := call.usage }).1 :=
      fun hnil => hsame.wrote (laterChoice_wrote call.chunk choice hnil)
    cases hfinished : choice.finished? with
    | none => exact hgoes (by simpa [hdone, hfinished] using hcalls)
    | some finishReason =>
      cases husage : call.chunk.usage with
      | none => exact .inl ⟨rfl, rfl, rfl, rfl⟩
      | some u => exact hgoes (by simpa [hdone, husage] using hcalls)

theorem emitted_json_later (hdone : ¬ s.1.info.done = true) (hfirst : s.1.sendResponseCount ≠ 0)
    (hwaits : ¬ call.waits = true) (b : Int) :
    emitted (eventJson b) (convertCall estimate call s.1).2 =
      if call.delta.toolCalls.isEmpty then ""
      else arrivingAt (switchToTools s.1.info).1.toolCallBaseIndex b call.fragments := by
  obtain ⟨index, hindex⟩ := emitted_convertCall (eventJson_silent b) estimate s.1 call
  rw [hindex]
  simp only [if_neg hdone, if_neg hfirst, if_neg hwaits, writtenAt_json, fragmentAt_json]
  rfl

section

variable (hrouted : Routed own sent arrived) (howned : OwnedBlocks own s.2 s.1.info)
  (h : KeepsContent s call) (hfirst : s.1.sendResponseCount ≠ 0)

include hrouted howned h hfirst

/-- A chunk that is not read, or that only writes text. -/
theorem step_without_calls
    (hcalls : s.1.info.done = true ∨ call.waits = true ∨ call.delta.toolCalls = []) :
    StepKept estimate s call sent arrived := by
  -- there are no fragments that the step could lose, and it emits none
  have hempty : ∀ i, argumentsOf i call.fragments = "" := by
    unfold KeepsContent at h
    split_ifs at h with hdone hwaits hnone
    · exact argumentsOf_empty h.2.2
    · exact argumentsOf_empty h.2.2
    · have hnil : call.delta.toolCalls = [] := List.isEmpty_iff.mp hnone
      exact argumentsOf_empty (by simp [fragments, hnil, callFragments])
    · simp [hdone, hwaits, List.isEmpty_iff] at hcalls hnone
      exact absurd hcalls hnone
  have hemits : ∀ b, emitted (eventJson b) (convertCall estimate call s.1).2 = "" := by
    intro b
    obtain ⟨index, hindex⟩ := emitted_convertCall (eventJson_silent b) estimate s.1 call
    rw [hindex]
    simp only [if_neg hfirst, writtenAt_json]
    split_ifs with hdone hwaits hnone
    · rfl
    · rfl
    · rfl
    · simp [hdone, hwaits, List.isEmpty_iff] at hcalls hnone
      exact absurd hcalls hnone
  have hruns : ToolRuns.next s.1 s.2 call = s.2 := by
    unfold ToolRuns.next
    rcases hcalls with hdone | hwaits | hnil
    · simp [hdone]
    · simp [hwaits, hfirst]
    · simp [hnil]
  exact stepKept_of_wrote hrouted howned hempty hemits hruns (convertCall_wrote hfirst hcalls)

/-- The calls of a later chunk. -/
theorem step_with_calls (hdone : ¬ s.1.info.done = true)
    (hwaits : ¬ call.waits = true) (hcalls : ¬ call.delta.toolCalls = []) :
    StepKept estimate s call sent arrived := by
  have hsome : ¬ call.delta.toolCalls.isEmpty = true := by simpa using hcalls
  simp only [KeepsContent, if_neg hdone, if_neg hfirst, if_neg hwaits, if_neg hsome] at h
  obtain ⟨own', hrouted', hrun, hfrom⟩ := routed_fragments hrouted howned.enter call.fragments h.2.2
  refine ⟨own', ?_, ?_⟩
  · simpa only [emitted_json_later hdone hfirst hwaits, if_neg hsome] using hrouted'
  · have hsame : SameNumbers s.1.info { s.1.info with usage := call.usage } := ⟨rfl, rfl, rfl, rfl⟩
    have hruns : ToolRuns.next s.1 s.2 call = { s.2.enter s.1.info with
        run := (s.2.enter s.1.info).run ++ writtenIndices call.fragments } := by
      unfold ToolRuns.next
      simp [hdone, hcalls, hfirst, hwaits]
    rw [hruns]
    rw [← switchToTools_base s.1.info call.usage] at hrun hfrom
    have hblocks := (howned.wrote (.inl hsame)).laterTools hrun hfrom
    -- the end of the message, if it comes, leaves the numbers
    refine hblocks.wrote (.inl ?_)
    unfold waits delta at *
    simp only [convertCall, streamResponseOpenAI2Claude, Nat.add_eq_right, if_neg hdone,
      if_neg hfirst]
    cases hchoices : call.chunk.choices with
    | nil => simp [hchoices] at hcalls
    | cons choice choices =>
      simp only [hchoices, head?_cons, bind_some, map_some, getD_some] at *
      have hcontent : laterContent choice.delta = laterTools choice.delta.toolCalls := by
        unfold laterContent
        cases hlist : choice.delta.toolCalls with
        | nil => exact absurd hlist hcalls
        | cons toolCall toolCalls => rfl
      have hnumbers := finishChoice_numbers call.chunk choice
        (laterTools choice.delta.toolCalls { s.1.info with usage := call.usage }).1
      rw [← hcontent] at hnumbers ⊢
      cases hfinished : choice.finished? with
      | none => exact hnumbers
      | some finishReason =>
        cases husage : call.chunk.usage with
        | none => simp [hfinished, husage] at hwaits
        | some u => exact hnumbers

end

end Step

section

variable (hhead : ∀ fragment ∈ fragments.head?, fragment.2 ≠ "" → fragment.1 = 0)
  (htail : ∀ fragment ∈ fragments.tail, fragment.2 = "")

include hhead htail

/-- In the first chunk the first fragment goes to the first block. -/
theorem arrivingAt_first (b : Int) :
    arrivingAt 0 b fragments =
      (fragments.head?.map fun fragment => fragmentAt (eventJson b) 0 fragment.2).getD "" := by
  cases fragments with
  | nil => rfl
  | cons fragment fragments =>
    have hrest : join (fragments.map fun fragment =>
        if 0 + fragment.1 = b then fragment.2 else "") = "" := by
      rw [Text.join_eq_empty_iff]
      intro t ht
      obtain ⟨x, hx, rfl⟩ := mem_map.mp ht
      simp [htail x hx]
    have hcons : arrivingAt 0 b (fragment :: fragments) = if 0 + fragment.1 = b then fragment.2
        else "" := by
      rw [arrivingAt, map_cons, join_cons, hrest, append_empty]
    rw [hcons]
    simp only [head?_cons, map_some, getD_some, fragmentAt_json]
    -- the fragment arrives at block 0, and its index is 0
    by_cases hempty : fragment.2 = ""
    · simp [hempty]
    · rw [hhead fragment rfl hempty, Int.zero_add]

theorem writtenIndices_first : ∀ i ∈ writtenIndices fragments, i = 0 := by
  intro i hi
  obtain ⟨fragment, hmem, rfl⟩ := mem_map.mp hi
  obtain ⟨hmem, hnonempty⟩ := mem_filter.mp hmem
  cases fragments with
  | nil => cases hmem
  | cons first rest =>
    rcases mem_cons.mp hmem with rfl | hrest
    · exact hhead fragment rfl (by simpa using hnonempty)
    · simp [htail fragment hrest] at hnonempty

end

/-- The first chunk. -/
theorem step_first (estimate : Int) (h : KeepsContent ({}, {}) call) :
    StepKept estimate ({}, {}) call (fun _ => "") fun _ => "" := by
  obtain ⟨-, hhead, htail⟩ : (call.text = "" ∨ call.reasoning = "") ∧
      (∀ fragment ∈ call.fragments.head?, fragment.2 ≠ "" → fragment.1 = 0) ∧
      ∀ fragment ∈ call.fragments.tail, fragment.2 = "" := h
  have hzero := writtenIndices_first hhead htail
  have hnone : OwnedRun (fun _ => none) {} 0 := ⟨nofun, nofun, nofun⟩
  obtain ⟨own', hrouted, hrun, hfrom⟩ := routed_fragments Routed.start hnone call.fragments
    fun i hi => ⟨Int.le_of_eq (hzero i hi).symm, nofun⟩
  refine ⟨own', ?_, ?_⟩
  · have hemits : ∀ b, emitted (eventJson b) (convertCall estimate call {}).2 =
        arrivingAt 0 b call.fragments := by
      intro b
      obtain ⟨index, hindex⟩ := emitted_convertCall (eventJson_silent b) estimate {} call
      rw [hindex, arrivingAt_first hhead htail]
      simp [writtenAt_json]
    simpa only [hemits] using hrouted
  · have hruns : ToolRuns.next {} {} call = { run := writtenIndices call.fragments } := by
      unfold ToolRuns.next fragments
      cases call.delta.toolCalls <;> rfl
    rw [hruns]
    -- what is owned after the first chunk is block 0
    have hown : ∀ i b, own' i = some b → i ∈ writtenIndices call.fragments ∧ b = 0 := by
      intro i b hi
      rcases hfrom i b hi with hold | ⟨hmem, rfl⟩
      · cases hold
      · exact ⟨hmem, by rw [hzero i hmem]; rfl⟩
    simp only [convertCall, streamResponseOpenAI2Claude]
    unfold fragments delta at *
    cases hchoices : call.chunk.choices with
    | nil =>
      simp only [hchoices] at hrun hown ⊢
      refine ⟨hrun.known, fun i b hi => ?_, nofun⟩
      cases (hown i b hi).1
    | cons choice choices =>
      simp only [hchoices, head?_cons, map_some, getD_some] at hrun hown ⊢
      have hcalls : OwnedBlocks own'
          { run := writtenIndices (callFragments 0 choice.delta.toolCalls) }
          (firstCalls choice.delta.toolCalls { usage := call.usage }).1 := by
        cases hlist : choice.delta.toolCalls with
        | nil =>
          rw [hlist] at hrun hown
          refine ⟨hrun.known, fun i b hi => ?_, nofun⟩
          cases (hown i b hi).1
        | cons toolCall toolCalls =>
          rw [hlist] at hrun hown
          refine ⟨hrun.known, fun i b hi => ?_, fun _ => hrun⟩
          rw [(hown i b hi).2]
          show (0 : Int) < 0 + 0 + 1
          omega
      exact hcalls.wrote (firstWritten_wrote call.chunk choice)

/-- Every chunk keeps what the chunks before it have kept. -/
theorem step_tools (estimate : Int) {calls : List ConvertCall}
    (hs : ToolsKept s calls events) (h : KeepsContent s call) :
    ToolsKept (trackedCall estimate call s).1 (calls ++ [call])
      (events ++ (trackedCall estimate call s).2) := by
  obtain ⟨hfresh, own, hrouted, howned⟩ := hs
  have hstep : StepKept estimate s call (fun i => argumentsOf i (calls.flatMap fragments))
      fun b => emitted (eventJson b) events := by
    -- the first chunk, chunks without calls, and later calls
    by_cases hfirst : s.1.sendResponseCount = 0
    · obtain ⟨rfl, rfl, rfl⟩ := hfresh hfirst
      exact step_first estimate h
    · by_cases hcalls : s.1.info.done = true ∨ call.waits = true ∨ call.delta.toolCalls = []
      · exact step_without_calls hrouted howned h hfirst hcalls
      · simp only [not_or] at hcalls
        exact step_with_calls hrouted howned h hfirst hcalls.1 hcalls.2.1 hcalls.2.2
  obtain ⟨own', hrouted', howned'⟩ := hstep
  refine ⟨fun hcount => absurd hcount (Nat.succ_ne_zero _), own', ?_, howned'⟩
  have hargs : ∀ i, argumentsOf i ((calls ++ [call]).flatMap fragments) =
      argumentsOf i (calls.flatMap fragments) ++ argumentsOf i call.fragments := by
    intro i
    simp [argumentsOf, join_append]
  simp only [hargs, emitted_append]
  exact hrouted'

/-- The content of the chunks so far is kept. -/
structure KeptSoFar (s : ConvertState × ToolRuns) (calls : List ConvertCall)
    (events : List ClaudeResponse) : Prop where
  text : emitted eventText events = join (calls.map text)
  reasoning : emitted eventThinking events = join (calls.map reasoning)
  tools : ToolsKept s calls events

theorem KeptSoFar.step (estimate : Int) (s : ConvertState × ToolRuns)
    (calls : List ConvertCall) (events : List ClaudeResponse) (call : ConvertCall)
    (hs : KeptSoFar s calls events) (h : KeepsContent s call) :
    KeptSoFar (trackedCall estimate call s).1 (calls ++ [call])
      (events ++ (trackedCall estimate call s).2) where
  text := by
    have hcall : emitted eventText (trackedCall estimate call s).2 = call.text :=
      emitted_text estimate h
    simp [hs.text, hcall, join_append, join_cons]
  reasoning := by
    have hcall : emitted eventThinking (trackedCall estimate call s).2 = call.reasoning :=
      emitted_reasoning estimate h
    simp [hs.reasoning, hcall, join_append, join_cons]
  tools := step_tools estimate hs.tools h

/-- A stream of chunks that are converted whole keeps its content. -/
theorem content_kept (estimatePromptTokens : Int) (calls : List ConvertCall)
    (h : Run.Along KeepsContent (fun s call => (trackedCall estimatePromptTokens call s).1) ({}, {})
      calls) :
    ContentKept calls (claudeEvents estimatePromptTokens calls) := by
  have hstart : KeptSoFar ({}, {}) [] [] :=
    ⟨rfl, rfl, fun _ => ⟨rfl, rfl, rfl⟩, _, Routed.start, nofun, nofun, nofun⟩
  have hrun := Transducer.outputs_invariant_along (KeptSoFar.step estimatePromptTokens) hstart h
  have hevents : Transducer.outputs (trackedCall estimatePromptTokens) ({}, {}) calls =
      claudeEvents estimatePromptTokens calls :=
        Transducer.outputs_withControl ToolRuns.next _ calls
  rw [nil_append, nil_append, hevents] at hrun
  obtain ⟨htext, hreasoning, -, own, hrouted, -⟩ := hrun
  exact ⟨htext, hreasoning, own, hrouted⟩

/-- Thinking, text, a tool call in two fragments, the end, and the usage. -/
def plainStream : List ConvertCall :=
  [{ chunk := { choices := [{ delta := { role := "assistant" } }] } },
   { chunk := { choices := [{ delta := { reasoningContent := some "Hm." } }] } },
   { chunk := { choices := [{ delta := { content := some "Let me look." } }] } },
   { chunk := { choices := [{ delta := { toolCalls :=
      [{ index := some 0, id := "call_a",
         function := { name := "f", arguments := "\x7b" } }] } }] } },
   { chunk := { choices := [{ delta := { toolCalls :=
      [{ index := some 0, function := { arguments := "\x7d" } }] } }] } },
   { chunk := { choices := [{ finishReason := some "tool_calls" }] } },
   { chunk := { usage := some { promptTokens := 3, completionTokens := 5 } } }]

theorem content_kept_plain : ContentKept plainStream (claudeEvents 0 plainStream) :=
  content_kept 0 plainStream (by decide +kernel)

/-- The last text comes with the finish reason, the usage in a chunk of its own. -/
def lastTextStream : List ConvertCall :=
  [{ chunk := { choices := [{ delta := { role := "assistant", content := some "Hi" } }] } },
   { chunk :=
     { choices := [{ delta := { content := some " there." }, finishReason := some "stop" }] } },
   { chunk := { usage := some { promptTokens := 3, completionTokens := 5 } } }]

theorem last_text_lost : emitted eventText (claudeEvents 0 lastTextStream) = "Hi" ∧
    join (lastTextStream.map text) = "Hi there." ∧
    ¬ ContentKept lastTextStream (claudeEvents 0 lastTextStream) := by
  have hemitted : emitted eventText (claudeEvents 0 lastTextStream) = "Hi" := by decide +kernel
  have hsent : join (lastTextStream.map text) = "Hi there." := by decide +kernel
  refine ⟨hemitted, hsent, fun h => ?_⟩
  have htext := h.text
  rw [hemitted, hsent] at htext
  exact absurd htext (by decide)
