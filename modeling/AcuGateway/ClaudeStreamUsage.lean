/-
The usage of a streamed Claude response.

While the stream runs, its events are folded into a usage, which embeds the counts
the upstream reported so far.  When it ends without a final report the missing
counts are estimated from the text.

* `formatClaudeResponseInfo`, `handleStreamFinalResponse` — the fold and the repair;
* `stream_billed_as_returned_iff` — which streams are billed for the counts that are
  returned: the estimate is billed only if the upstream never reported anything;
* `cut_stream_billed_short` — a stream that is cut after its first text.
-/
import AcuGateway.Lib.Run
import AcuGateway.RelayMessages

/-! ### The fold over the events -/

structure ClaudeResponseInfo where
  responseId : String := ""
  model : String := ""
  responseText : String := ""
  usage : Usage := {}
  done : Bool := false

variable (usage : UsageCounts)

/-- The collected counts as a usage of Claude. -/
def claudeUsageFromSemanticUsage : ClaudeUsage :=
  let split := normalizeCacheCreationSplit usage.promptTokensDetails.cachedCreationTokens
    usage.claudeCacheCreation5mTokens usage.claudeCacheCreation1hTokens
  { inputTokens := usage.promptTokens
    cacheCreationInputTokens := usage.promptTokensDetails.cachedCreationTokens
    cacheReadInputTokens := usage.promptTokensDetails.cachedTokens
    outputTokens := usage.completionTokens
    cacheCreation := if 0 < split.1 ∨ 0 < split.2 then some ⟨split.1, split.2⟩ else none }

def claudeBillingUsageFromSemanticUsage : Option BillingUsage :=
  newClaudeMessagesBillingUsage (claudeUsageFromSemanticUsage usage)

namespace ClaudeResponseInfo

/-- New counts, and the usage that is billed for them. -/
def setCounts (info : ClaudeResponseInfo) (counts : UsageCounts) : ClaudeResponseInfo :=
  { info with usage :=
      { toUsageCounts := counts, billingUsage := claudeBillingUsageFromSemanticUsage counts } }

end ClaudeResponseInfo

open ClaudeResponseInfo ClaudeUsage

variable (counts : UsageCounts)

/-- A `message_start` reports every count. -/
def messageStartCounts (u : ClaudeUsage) : UsageCounts :=
  { counts with
    promptTokens := u.inputTokens
    usageSemantic := "anthropic"
    promptTokensDetails :=
      { counts.promptTokensDetails with
        cachedTokens := u.cacheReadInputTokens
        cachedCreationTokens := u.cacheCreationInputTokens }
    claudeCacheCreation5mTokens := u.getCacheCreation5mTokens
    claudeCacheCreation1hTokens := u.getCacheCreation1hTokens
    completionTokens := u.outputTokens }

/-- `new`, if it is a report at all. -/
def positiveOr (new old : Int) : Int := if 0 < new then new else old

/-- A `message_delta` reports the counts that are not zero. -/
def messageDeltaCounts (u : ClaudeUsage) : UsageCounts :=
  let promptTokens := positiveOr u.inputTokens counts.promptTokens
  let completionTokens := positiveOr u.outputTokens counts.completionTokens
  { counts with
    usageSemantic := "anthropic"
    promptTokens
    promptTokensDetails :=
      { counts.promptTokensDetails with
        cachedTokens := positiveOr u.cacheReadInputTokens counts.promptTokensDetails.cachedTokens
        cachedCreationTokens :=
          positiveOr u.cacheCreationInputTokens counts.promptTokensDetails.cachedCreationTokens }
    claudeCacheCreation5mTokens :=
      positiveOr u.getCacheCreation5mTokens counts.claudeCacheCreation5mTokens
    claudeCacheCreation1hTokens :=
      positiveOr u.getCacheCreation1hTokens counts.claudeCacheCreation1hTokens
    completionTokens
    totalTokens := wrap64 (promptTokens + completionTokens) }

def deltaText (delta : ClaudeMediaMessage) : String := delta.text.getD "" ++ delta.thinking.getD ""

/-- One event; the flag says whether the event is passed on. -/
def formatClaudeResponseInfo (claudeResponse : ClaudeResponse) (info : ClaudeResponseInfo) :
    ClaudeResponseInfo × Bool :=
  match claudeResponse.type with
  | .messageStart =>
    match claudeResponse.message with
    | none => (info, true)
    | some message =>
      let named := { info with responseId := message.id, model := message.model }
      match message.usage with
      | none => (named, true)
      | some u => (named.setCounts (messageStartCounts info.usage.toUsageCounts u), true)
  | .contentBlockDelta =>
    ({ info with responseText := info.responseText ++
      (claudeResponse.delta.map deltaText).getD "" }, true)
  | .messageDelta =>
    let finished := { info with done := true }
    match claudeResponse.usage with
    | none => (finished, true)
    | some u => (finished.setCounts (messageDeltaCounts info.usage.toUsageCounts u), true)
  | .contentBlockStart => (info, true)
  | _ => (info, false)

/-- A stream, up to the event where it ends or is cut. -/
def formatClaudeStream : List ClaudeResponse → ClaudeResponseInfo :=
  Run.exec (fun info event => (formatClaudeResponseInfo event info).1) {}

/-! ### The end of the stream -/

/-- The usage of the collected counts, as it would stand in a `message_delta` of its own. -/
def buildMessageDeltaPatchUsage (claudeResponse : Option ClaudeResponse)
    (info : ClaudeResponseInfo) : ClaudeUsage :=
  let usage := (claudeResponse.bind ClaudeResponse.usage).getD {}
  let cacheCreationInputTokens := orElsePositive usage.cacheCreationInputTokens
    info.usage.promptTokensDetails.cachedCreationTokens
  let reported := usage.cacheCreation.getD
    ⟨info.usage.claudeCacheCreation5mTokens, info.usage.claudeCacheCreation1hTokens⟩
  let split := normalizeCacheCreationSplit cacheCreationInputTokens
    reported.ephemeral5mInputTokens reported.ephemeral1hInputTokens
  { usage with
    inputTokens := orElsePositive usage.inputTokens info.usage.promptTokens
    cacheReadInputTokens :=
      orElsePositive usage.cacheReadInputTokens info.usage.promptTokensDetails.cachedTokens
    cacheCreationInputTokens
    cacheCreation :=
      if usage.cacheCreation.isSome ∨ 0 < split.1 ∨ 0 < split.2 then some ⟨split.1, split.2⟩
      else none }

/-- The counts after the repair, given the estimates for the text and for the prompt. -/
def repairCounts (estimated estimatedPrompt : Int) (info : ClaudeResponseInfo) : UsageCounts :=
  if info.usage.completionTokens = 0 ∨ info.done = false then
    let completionTokens :=
      if info.usage.completionTokens = 0 ∨
        (info.done = false ∧ info.usage.completionTokens < estimated) then estimated
      else info.usage.completionTokens
    let promptTokens := if info.usage.promptTokens = 0 then estimatedPrompt
      else info.usage.promptTokens
    { info.usage.toUsageCounts with
      completionTokens
      promptTokens
      totalTokens := wrap64 (promptTokens + completionTokens) }
  else info.usage.toUsageCounts

/-- The usage that is returned.  `estimateToken` is the estimate of the tokens of a text
for the model of the upstream. -/
def handleStreamFinalResponse (estimateToken : String → Int) (estimatePromptTokens : Int)
    (info : ClaudeResponseInfo) : Usage :=
  let counts :=
    { repairCounts (estimateToken info.responseText) estimatePromptTokens info with
      usageSemantic := "anthropic" }
  let billingUsage :=
    match info.usage.billingUsage with
    | some b => some b
    | none => newClaudeMessagesBillingUsage (buildMessageDeltaPatchUsage none
        { info with usage := { toUsageCounts := counts } })
  { toUsageCounts := counts, billingUsage }

/-! ### What a stream reports -/

/-- The count of the given kind that an event reports. -/
def ClaudeResponse.reports (event : ClaudeResponse) (count : ClaudeUsage → Int) : Option Int :=
  match event.type with
  | .messageStart => (event.message.bind ClaudeMediaMessage.usage).map count
  | .messageDelta => (event.usage.map count).filter (0 < ·)
  | _ => none

/-- The last report of a count. -/
def lastReported (count : ClaudeUsage → Int) (events : List ClaudeResponse) : Int :=
  events.foldl (fun last event => (event.reports count).getD last) 0

variable (events : List ClaudeResponse)

/-- The last report of every count that is billed. -/
def reportedCounts : UsageCounts where
  promptTokens := lastReported inputTokens events
  completionTokens := lastReported outputTokens events
  promptTokensDetails :=
    { cachedTokens := lastReported cacheReadInputTokens events
      cachedCreationTokens := lastReported cacheCreationInputTokens events }
  claudeCacheCreation5mTokens := lastReported getCacheCreation5mTokens events
  claudeCacheCreation1hTokens := lastReported getCacheCreation1hTokens events

/-- The text and the thinking of a stream. -/
def streamedText : String :=
  events.foldl (fun text event =>
    if event.type = .contentBlockDelta then text ++ (event.delta.map deltaText).getD ""
    else text) ""

/-- The stream came to its `message_delta`. -/
def finished : Bool := events.foldl (fun done event => done || event.type = .messageDelta) false

/-- What an event does to the usage. -/
theorem formatClaudeResponseInfo_usage (event : ClaudeResponse) (info : ClaudeResponseInfo) :
    (∃ u, (∀ count, event.reports count = some (count u)) ∧
      (formatClaudeResponseInfo event info).1.usage =
        (info.setCounts (messageStartCounts info.usage.toUsageCounts u)).usage) ∨
    (∃ u, (∀ count, event.reports count = (some (count u)).filter (0 < ·)) ∧
      (formatClaudeResponseInfo event info).1.usage =
        (info.setCounts (messageDeltaCounts info.usage.toUsageCounts u)).usage) ∨
    ((∀ count, event.reports count = none) ∧ (formatClaudeResponseInfo event info).1.usage =
      info.usage) := by
  unfold formatClaudeResponseInfo ClaudeResponse.reports
  -- only the first and the last event of a message report a usage
  cases event.type with
  | messageStart =>
    cases event.message with
    | none => exact .inr (.inr ⟨fun _ => rfl, rfl⟩)
    | some message =>
      cases hu : message.usage with
      | none => exact .inr (.inr ⟨fun _ => by simp [hu], by simp [hu]⟩)
      | some u => exact .inl ⟨u, fun _ => by simp [hu], by simp [hu, setCounts]⟩
  | messageDelta =>
    cases event.usage with
    | none => exact .inr (.inr ⟨fun _ => rfl, rfl⟩)
    | some u => exact .inr (.inl ⟨u, fun _ => rfl, rfl⟩)
  | contentBlockDelta => exact .inr (.inr ⟨fun _ => rfl, rfl⟩)
  | contentBlockStart => exact .inr (.inr ⟨fun _ => rfl, rfl⟩)
  | contentBlockStop => exact .inr (.inr ⟨fun _ => rfl, rfl⟩)
  | messageStop => exact .inr (.inr ⟨fun _ => rfl, rfl⟩)
  | message => exact .inr (.inr ⟨fun _ => rfl, rfl⟩)
  | other => exact .inr (.inr ⟨fun _ => rfl, rfl⟩)

theorem getD_filter_pos (new old : Int) :
    ((some new).filter (0 < ·)).getD old = positiveOr new old := by
  unfold positiveOr
  by_cases h : 0 < new
  · simp [Option.filter, h]
  · simp [Option.filter, h]

/-- A count that both reports write holds the last report of it. -/
theorem formatClaudeStream_count {g : UsageCounts → Int} {count : ClaudeUsage → Int} (h₀ : g {} = 0)
    (hstart : ∀ counts u, g (messageStartCounts counts u) = count u)
    (hdelta : ∀ counts u, g (messageDeltaCounts counts u) = positiveOr (count u) (g counts))
    (events : List ClaudeResponse) :
    g (formatClaudeStream events).usage.toUsageCounts = lastReported count events := by
  have hstep : ∀ (info : ClaudeResponseInfo) (event : ClaudeResponse),
      g (formatClaudeResponseInfo event info).1.usage.toUsageCounts =
        (event.reports count).getD (g info.usage.toUsageCounts) := by
    intro info event
    rcases formatClaudeResponseInfo_usage event info with ⟨u, hr, hu⟩ | ⟨u, hr, hu⟩ | ⟨hr, hu⟩
    · rw [hr, hu]
      exact hstart _ u
    · rw [hr, hu, getD_filter_pos]
      exact hdelta _ u
    · rw [hr, hu]
      rfl
  rw [lastReported, ← h₀]
  exact Run.exec_proj (g := fun info : ClaudeResponseInfo => g info.usage.toUsageCounts)
    hstep {} events

theorem formatClaudeStream_text :
    (formatClaudeStream events).responseText = streamedText events := by
  refine Run.exec_proj (g := ClaudeResponseInfo.responseText) ?_ {} events
  intro info event
  unfold formatClaudeResponseInfo
  cases event.type with
  | messageStart =>
    cases event.message with
    | none => rfl
    | some message => cases hu : message.usage <;> simp [hu, setCounts]
  | messageDelta => cases event.usage <;> rfl
  | _ => rfl

theorem formatClaudeStream_done : (formatClaudeStream events).done = finished events := by
  refine Run.exec_proj (g := ClaudeResponseInfo.done) ?_ {} events
  intro info event
  unfold formatClaudeResponseInfo
  cases event.type with
  | messageStart =>
    cases event.message with
    | none => simp
    | some message => cases hu : message.usage <;> simp [hu, setCounts]
  | messageDelta => cases event.usage <;> simp [setCounts]
  | _ => simp

theorem formatClaudeStream_prompt :
    (formatClaudeStream events).usage.promptTokens = lastReported inputTokens events :=
  formatClaudeStream_count rfl (fun _ _ => rfl) (fun _ _ => rfl) events

theorem formatClaudeStream_completion : (formatClaudeStream events).usage.completionTokens =
      lastReported outputTokens events :=
  formatClaudeStream_count rfl (fun _ _ => rfl) (fun _ _ => rfl) events

/-- The embedded usage is the one of the counts. -/
def ClaudeResponseInfo.EmbedsCounts (info : ClaudeResponseInfo) : Prop :=
  info.usage.billingUsage = claudeBillingUsageFromSemanticUsage info.usage.toUsageCounts

theorem formatClaudeStream_embedsCounts : (formatClaudeStream events).EmbedsCounts := by
  have hstart : EmbedsCounts {} := by
    unfold EmbedsCounts
    decide
  refine Run.exec_invariant ?_ hstart events
  intro info event hinfo
  unfold EmbedsCounts
  rcases formatClaudeResponseInfo_usage event info with ⟨u, -, hu⟩ | ⟨u, -, hu⟩ | ⟨-, hu⟩
  · rw [hu]
    rfl
  · rw [hu]
    rfl
  · rw [hu]
    exact hinfo

/-- The embedded usage is always the one of the counts that were reported last. -/
theorem formatClaudeStream_billing : (formatClaudeStream events).usage.billingUsage =
      claudeBillingUsageFromSemanticUsage (reportedCounts events) := by
  have hread : (formatClaudeStream events).usage.promptTokensDetails.cachedTokens = _ :=
    formatClaudeStream_count (g := fun c => c.promptTokensDetails.cachedTokens) rfl (fun _ _ => rfl)
      (fun _ _ => rfl) events
  have hcreation : (formatClaudeStream events).usage.promptTokensDetails.cachedCreationTokens = _ :=
    formatClaudeStream_count (g := fun c => c.promptTokensDetails.cachedCreationTokens) rfl
      (fun _ _ => rfl) (fun _ _ => rfl) events
  have h5m : (formatClaudeStream events).usage.claudeCacheCreation5mTokens = _ :=
    formatClaudeStream_count rfl (fun _ _ => rfl) (fun _ _ => rfl) events
  have h1h : (formatClaudeStream events).usage.claudeCacheCreation1hTokens = _ :=
    formatClaudeStream_count rfl (fun _ _ => rfl) (fun _ _ => rfl) events
  rw [formatClaudeStream_embedsCounts events]
  unfold claudeBillingUsageFromSemanticUsage claudeUsageFromSemanticUsage
  rw [formatClaudeStream_prompt, formatClaudeStream_completion, hread, hcreation, h5m, h1h]
  rfl

/-! ### The repair -/

/-- The counts that are billed are those that are returned. -/
def BilledAsReturned (returned : Usage) : Prop :=
  (effectiveBillingUsage returned).completionTokens = returned.completionTokens ∧
  (effectiveBillingUsage returned).promptTokens = returned.promptTokens

variable (estimated estimatedPrompt : Int)

variable (events : List ClaudeResponse)

/-- The estimates do not change what the upstream reported. -/
def RepairKeeps : Prop :=
  let completion := lastReported outputTokens events
  let prompt := lastReported inputTokens events
  (completion ≠ 0 ∧ finished events = true) ∨
  ((completion = 0 → estimated = 0) ∧ (completion ≠ 0 → estimated ≤ completion) ∧
    (prompt = 0 → estimatedPrompt = 0))

/-- The repair reaches what is billed: an embedded usage is left as it is, and without one
there is nothing to charge for a text or no prompt to embed. -/
def RepairReaches : Prop :=
  if (claudeBillingUsageFromSemanticUsage (reportedCounts events)).isSome then
    RepairKeeps estimated estimatedPrompt events
  else estimated = 0 ∨ estimatedPrompt ≤ 0

/-- What the repair leaves of the two counts. -/
theorem repairCounts_eq_iff (estimated estimatedPrompt : Int) (info : ClaudeResponseInfo) :
    (info.usage.completionTokens = (repairCounts estimated estimatedPrompt info).completionTokens ∧
      info.usage.promptTokens = (repairCounts estimated estimatedPrompt info).promptTokens) ↔
    (info.usage.completionTokens ≠ 0 ∧ info.done = true) ∨
    ((info.usage.completionTokens = 0 → estimated = 0) ∧
      (info.usage.completionTokens ≠ 0 → estimated ≤ info.usage.completionTokens) ∧
      (info.usage.promptTokens = 0 → estimatedPrompt = 0)) := by
  unfold repairCounts
  cases hdone : info.done with
  | false =>
    simp only [or_true, if_true, true_and, Bool.false_eq_true, and_false, false_or]
    split_ifs with hc hp hp <;> omega
  | true =>
    simp only [Bool.true_eq_false, or_false, false_and, and_true]
    split_ifs with hc hp
    · simp [hc, hp, @eq_comm _ (0 : Int)]
    · simp [hc, hp, @eq_comm _ (0 : Int)]
    · exact ⟨fun _ => .inl hc, fun _ => ⟨rfl, rfl⟩⟩

variable {info : ClaudeResponseInfo}

/-- The embedded usage is billed: it must be the one that is returned. -/
theorem billedAsReturned_embedded {b : BillingUsage} (hinfo : info.EmbedsCounts)
    (hb : info.usage.billingUsage = some b) (estimateToken : String → Int) (estimate : Int) :
    BilledAsReturned (handleStreamFinalResponse estimateToken estimate info) ↔
      info.usage.completionTokens = (repairCounts (estimateToken info.responseText)
        estimate info).completionTokens ∧
      info.usage.promptTokens = (repairCounts (estimateToken info.responseText)
        estimate info).promptTokens := by
  have hnew := newClaudeMessagesBillingUsage_some (hinfo.symm.trans hb)
  have hreturned : (handleStreamFinalResponse estimateToken estimate info).billingUsage =
      some b := by
    unfold handleStreamFinalResponse
    rw [hb]
  have hclaude : b.IsClaude (claudeUsageFromSemanticUsage info.usage.toUsageCounts) := by
    rw [hnew]
    exact claudeMessagesBillingUsage_isClaude _
  unfold BilledAsReturned
  rw [effectiveBillingUsage_claude hreturned hclaude]
  rfl

/-- Without an embedded usage all counts are zero, and no cache write is left over. -/
theorem counts_of_no_billing {counts : UsageCounts}
    (h : claudeBillingUsageFromSemanticUsage counts = none) :
    counts.promptTokens = 0 ∧ counts.completionTokens = 0 ∧
      counts.promptTokensDetails.cachedTokens = 0 ∧
      counts.promptTokensDetails.cachedCreationTokens = 0 ∧
      ¬ (0 < (normalizeCacheCreationSplit 0 counts.claudeCacheCreation5mTokens
          counts.claudeCacheCreation1hTokens).1 ∨
        0 < (normalizeCacheCreationSplit 0 counts.claudeCacheCreation5mTokens
          counts.claudeCacheCreation1hTokens).2) := by
  have h := newClaudeMessagesBillingUsage_none.mp h
  simp only [hasClaudeUsageTokens, Bool.or_eq_false_iff, decide_eq_false_iff_not, not_not] at h
  obtain ⟨⟨⟨⟨⟨⟨⟨hp, hc⟩, hcreation⟩, hread⟩, -⟩, -⟩, h5m⟩, h1h⟩ := h
  have hcreation : counts.promptTokensDetails.cachedCreationTokens = 0 := hcreation
  refine ⟨hp, hc, hread, hcreation, fun hpos => ?_⟩
  simp only [claudeUsageFromSemanticUsage, hcreation, if_pos hpos,
    getCacheCreation5mTokens, getCacheCreation1hTokens, Option.map_some,
    Option.getD_some] at h5m h1h
  omega

/-- Without an embedded usage only the prompt is embedded: the estimate for the text is
returned and not billed. -/
theorem billedAsReturned_not_embedded (hinfo : info.EmbedsCounts)
    (hb : info.usage.billingUsage = none) (estimateToken : String → Int)
    (estimate : Int) :
    BilledAsReturned (handleStreamFinalResponse estimateToken estimate info) ↔
      estimateToken info.responseText = 0 ∨ estimate ≤ 0 := by
  obtain ⟨hp, hc, hread, hcreation, hsplit⟩ := counts_of_no_billing (hinfo.symm.trans hb)
  have hcompletion : (handleStreamFinalResponse estimateToken estimate
      info).completionTokens = estimateToken info.responseText := by
    simp [handleStreamFinalResponse, repairCounts, hc]
  have hprompt : (handleStreamFinalResponse estimateToken estimate
      info).promptTokens = estimate := by
    simp [handleStreamFinalResponse, repairCounts, hc, hp]
  -- the usage that is embedded now holds the prompt and nothing else
  have hembedded : (handleStreamFinalResponse estimateToken estimate
      info).billingUsage = newClaudeMessagesBillingUsage
          { inputTokens := orElsePositive 0 estimate } := by
    simp only [handleStreamFinalResponse, hb]
    congr 1
    simp [buildMessageDeltaPatchUsage, repairCounts, hc, hp, hread, hcreation, hsplit,
      orElsePositive]
  unfold BilledAsReturned
  by_cases hpositive : 0 < estimate
  · have hsome : newClaudeMessagesBillingUsage { inputTokens := orElsePositive 0 estimate } =
        some (claudeMessagesBillingUsage { inputTokens := estimate }) := by
      have hne : estimate ≠ 0 := by omega
      simp [newClaudeMessagesBillingUsage, hasClaudeUsageTokens, orElsePositive, hpositive, hne]
    rw [effectiveBillingUsage_claude (hembedded.trans hsome)
      (claudeMessagesBillingUsage_isClaude _), hcompletion, hprompt]
    show (0 = _ ∧ estimate = estimate) ↔ _
    omega
  · have hnone : newClaudeMessagesBillingUsage { inputTokens := orElsePositive 0 estimate } =
        none := by
      have hnot : ¬ (0 : Int) < estimate := hpositive
      simp only [orElsePositive, hnot, and_false, if_false]
      decide
    rw [effectiveBillingUsage_none (hembedded.trans hnone)]
    exact ⟨fun _ => .inr (by omega), fun _ => ⟨rfl, rfl⟩⟩

/-- A stream is billed for the counts that are returned exactly if the repair reaches
what is billed. -/
theorem stream_billed_as_returned_iff (estimateToken : String → Int) (estimatePromptTokens : Int)
    (events : List ClaudeResponse) :
    BilledAsReturned
      (handleStreamFinalResponse estimateToken estimatePromptTokens (formatClaudeStream events)) ↔
    RepairReaches (estimateToken (streamedText events)) estimatePromptTokens events := by
  have hembeds := formatClaudeStream_embedsCounts events
  unfold RepairReaches
  rw [← formatClaudeStream_billing, ← formatClaudeStream_text]
  cases hb : (formatClaudeStream events).usage.billingUsage with
  | none => simpa using billedAsReturned_not_embedded hembeds hb estimateToken estimatePromptTokens
  | some b =>
    rw [billedAsReturned_embedded hembeds hb, repairCounts_eq_iff]
    unfold RepairKeeps
    rw [formatClaudeStream_completion, formatClaudeStream_prompt, formatClaudeStream_done]
    simp

/-- A stream that is cut after its first text. -/
def cutStream : List ClaudeResponse :=
  [{ type := .messageStart
     message := some { usage := some { inputTokens := 12, outputTokens := 1 } } },
   { type := .contentBlockStart, index := some 0
     contentBlock := some { type := .text, text := some "" } },
   { type := .contentBlockDelta, index := some 0
     delta := some { type := .textDelta, text := some "Hi" } }]

/-- The estimate for the text is returned, and the one token of the first event is billed. -/
theorem cut_stream_billed_short : let estimateToken :=
  fun text : String => if text = "Hi" then (2 : Int) else 0
    let returned := handleStreamFinalResponse estimateToken 12 (formatClaudeStream cutStream)
    returned.completionTokens = 2 ∧ (effectiveBillingUsage returned).completionTokens = 1 ∧
    ¬ BilledAsReturned returned := by
  intro estimateToken returned
  have hreturned : returned.completionTokens = 2 := by decide +kernel
  have hbilled : (effectiveBillingUsage returned).completionTokens = 1 := by decide +kernel
  refine ⟨hreturned, hbilled, fun h => ?_⟩
  rw [BilledAsReturned, hreturned, hbilled] at h
  exact absurd h.1 (by decide)
