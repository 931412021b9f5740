/-
The usage of a Gemini response.

A Gemini upstream may report only the total, or only the prompt.  What is missing is derived from
the total or estimated from the text, and the usage embeds the report, or the repaired counts.
Billing derives the counts from what is embedded once more.

* `buildUsageFromGeminiResponse`, `geminiStreamHandler` — the usage of a response and of a stream;
* `ReachesBilling` — the counts are not negative and are those that are billed;
* `GeminiReport.Settles` — the reports for which that is so;
* `gemini_usage_billed_iff` — for every response and every stream;
* `prompt_estimate_not_billed` — a report without a prompt.
-/
import AcuGateway.Lib.Run
import AcuGateway.Usage

open Option
open Text (trimSpace equalFold)

/-! ### Responses -/

/-- The usage metadata of a response, with the usage that another gateway has attached to it. -/
structure GeminiReport extends GeminiUsageMetadata where
  billingUsage : Option BillingUsage := none

structure GeminiPart where
  text : String := ""
  inlineMimeType : Option String := none

structure GeminiChatResponse where
  candidates : List (List GeminiPart) := []
  usageMetadata : Option GeminiReport := none

variable (response : GeminiChatResponse)

def geminiResponseUsageText : String :=
  String.join (response.candidates.flatten.map GeminiPart.text)

def geminiResponseInlineImageCount : Nat :=
  response.candidates.flatten.countP fun part => part.inlineMimeType.any (· ≠ "")

/-- What a text counts for where the upstream reports nothing. -/
structure TokenEstimator where
  count : String → Int
  isCount : ∀ text, IsCount (count text)
  empty : count "" = 0

/-! ### Embedding a Gemini usage -/

variable (metadata : GeminiUsageMetadata)

def hasGeminiUsageMetadataTokens : Bool :=
  metadata.promptTokenCount ≠ 0 || metadata.toolUsePromptTokenCount ≠ 0 ||
    metadata.candidatesTokenCount ≠ 0 ||
  metadata.totalTokenCount ≠ 0 || metadata.thoughtsTokenCount ≠ 0 ||
    metadata.cachedContentTokenCount ≠ 0 ||
  (metadata.promptTokensDetails.any fun detail => detail.tokenCount ≠ 0) ||
  (metadata.toolUsePromptTokensDetails.any fun detail => detail.tokenCount ≠ 0) ||
  (metadata.candidatesTokensDetails.any fun detail => detail.tokenCount ≠ 0)

def geminiChatBillingUsage : BillingUsage where
  source := "gemini_chat"
  semantic := "gemini"
  geminiUsageMetadata := some metadata

def newGeminiChatBillingUsage : Option BillingUsage :=
  if hasGeminiUsageMetadataTokens metadata then some (geminiChatBillingUsage metadata) else none

def newEstimatedGeminiChatBillingUsage (usage : Usage) : Option BillingUsage :=
  newGeminiChatBillingUsage
    { promptTokenCount := usage.promptTokens
      candidatesTokenCount := usage.completionTokens
      totalTokenCount :=
        if usage.totalTokens = 0 then wrap64 (usage.promptTokens + usage.completionTokens)
        else usage.totalTokens }

/-! ### From metadata to a usage -/

namespace GeminiUsageMetadata

/-- All tokens of the prompt. -/
def promptTokens : Int := wrap64 (metadata.promptTokenCount + metadata.toolUsePromptTokenCount)

/-- All tokens of the answer. -/
def completionTokens : Int := wrap64 (metadata.candidatesTokenCount + metadata.thoughtsTokenCount)

/-- The tokens of the prompt, or the estimate where they are missing. -/
def promptOr (fallbackPromptTokens : Int) : Int :=
  if metadata.promptTokens ≤ 0 ∧ 0 < fallbackPromptTokens then fallbackPromptTokens
  else metadata.promptTokens

end GeminiUsageMetadata

def usageFromGeminiMetadata (report : Option GeminiReport) (fallbackPromptTokens : Int) :
    Option Usage :=
  match report with
  | none =>
    if fallbackPromptTokens ≤ 0 then none
    else
      some { promptTokens := fallbackPromptTokens,
             promptTokensDetails := { textTokens := fallbackPromptTokens } }
  | some report =>
    let promptTokens := report.promptOr fallbackPromptTokens
    let details := (report.promptTokensDetails ++ report.toolUsePromptTokensDetails).foldl
      addGeminiInputTokenDetail
      { cachedTokens := report.cachedContentTokenCount }
    some
      { promptTokens
        completionTokens :=
          if 0 < report.totalTokenCount ∧ report.completionTokens ≤ 0 then
            wrap64 (report.totalTokenCount - promptTokens)
          else report.completionTokens
        totalTokens := report.totalTokenCount
        billingUsage := report.billingUsage <|>
          newGeminiChatBillingUsage report.toGeminiUsageMetadata
        promptTokensDetails :=
          if 0 < promptTokens ∧ details.textTokens = 0 ∧ details.audioTokens = 0 then
            { details with textTokens := promptTokens }
          else details
        completionTokenDetails := report.candidatesTokensDetails.foldl addGeminiOutputTokenDetail
          { reasoningTokens := report.thoughtsTokenCount } }

def buildUsageFromGeminiMetadata (report : Option GeminiReport) (fallbackPromptTokens : Int) :
    Usage :=
  (usageFromGeminiMetadata report fallbackPromptTokens).getD {}

/-! ### Repairs -/

variable (estimator : TokenEstimator)

variable (responseText : String)

def responseText2Usage (promptTokens : Int) : Usage where
  promptTokens
  completionTokens := estimator.count responseText
  totalTokens := wrap64 (promptTokens + estimator.count responseText)

def attachEstimatedGeminiBillingUsage (usage : Usage) : Usage :=
  { usage with billingUsage := usage.billingUsage <|> newEstimatedGeminiChatBillingUsage usage }

/-- The tokens of an answer, from its text and else from its images. -/
def estimatedCompletion (imageCount : Nat) : Int :=
  if imageCount ≠ 0 ∧ estimator.count responseText = 0 then wrap64 (imageCount * 1400)
  else estimator.count responseText

def patchGeminiZeroCompletionUsage (usage : Usage) (responseText : String) (imageCount : Nat) :
    Usage :=
  if 0 < usage.completionTokens ∨ responseText = "" ∧ imageCount = 0 then usage
  else
    let completionTokens := estimatedCompletion estimator responseText imageCount
    let patched := { usage with
      completionTokens
      totalTokens := wrap64 (usage.promptTokens + completionTokens) }
    { patched with billingUsage := newEstimatedGeminiChatBillingUsage patched }

/-! ### Whole responses and streams -/

/-- The report of a response, if it counts anything. -/
def GeminiChatResponse.report (response : GeminiChatResponse) : Option GeminiReport :=
  response.usageMetadata.filter fun report =>
    hasGeminiUsageMetadataTokens report.toGeminiUsageMetadata

variable (estimatePromptTokens : Int)

def buildUsageFromGeminiResponse (response : GeminiChatResponse) : Usage :=
  match response.report with
  | some report =>
    patchGeminiZeroCompletionUsage estimator
      (buildUsageFromGeminiMetadata (some report) estimatePromptTokens)
      (geminiResponseUsageText response) (geminiResponseInlineImageCount response)
  | none =>
    attachEstimatedGeminiBillingUsage
      (responseText2Usage estimator (geminiResponseUsageText response) estimatePromptTokens)

structure GeminiStream where
  usage : Usage := {}
  imageCount : Nat := 0
  hasBillableUsageMetadata : Bool := false
  responseText : String := ""

def GeminiStream.step (s : GeminiStream) (chunk : GeminiChatResponse) : GeminiStream :=
  let s := { s with
    imageCount := s.imageCount + geminiResponseInlineImageCount chunk
    responseText := s.responseText ++ geminiResponseUsageText chunk }
  match chunk.report with
  | some report =>
    { s with
      usage := buildUsageFromGeminiMetadata (some report) estimatePromptTokens
      hasBillableUsageMetadata := true }
  | none => s

/-- The usage of a stream that reports nothing. -/
def GeminiStream.estimatedUsage (received : Bool) (s : GeminiStream) : Usage :=
  let usage := if received then
    responseText2Usage estimator s.responseText estimatePromptTokens else {}
  if s.imageCount ≠ 0 ∧ usage.completionTokens = 0 then
    { usage with
      completionTokens := wrap64 (s.imageCount * 1400)
      totalTokens := wrap64 (usage.promptTokens + wrap64 (s.imageCount * 1400)) }
  else usage

/-- The usage at the end of a stream; `received` says whether anything came at all. -/
def geminiStreamHandler (received : Bool) (chunks : List GeminiChatResponse) : Usage :=
  let s := Run.exec (GeminiStream.step estimatePromptTokens) {} chunks
  if s.hasBillableUsageMetadata then
    patchGeminiZeroCompletionUsage estimator s.usage s.responseText s.imageCount
  else attachEstimatedGeminiBillingUsage (s.estimatedUsage estimator estimatePromptTokens received)

/-! ### What is billed -/

/-- The counts of a usage are not negative, and they are billed. -/
structure ReachesBilling (usage : Usage) : Prop where
  prompt : 0 ≤ usage.promptTokens
  completion : 0 ≤ usage.completionTokens
  billedPrompt : (effectiveBillingUsage usage).promptTokens = usage.promptTokens
  billedCompletion : (effectiveBillingUsage usage).completionTokens = usage.completionTokens

variable {usage : Usage}

theorem geminiChatBillingUsage_read
    (hb : usage.billingUsage = some (geminiChatBillingUsage metadata)) :
    effectiveBillingUsage usage =
      usageFromGeminiBillingUsage (geminiChatBillingUsage metadata) metadata := by
  have hnames : (geminiChatBillingUsage metadata).namesGemini = true := by
    show ((["gemini_chat"].any fun source => equalFold (trimSpace "gemini_chat") source) ||
      equalFold (trimSpace "gemini") "gemini") = true
    decide +kernel
  have hopen : (geminiChatBillingUsage metadata).openAIUsage = none := rfl
  have hclaude : (geminiChatBillingUsage metadata).claudeUsage = none := rfl
  have hgemini : (geminiChatBillingUsage metadata).geminiUsageMetadata = some metadata := rfl
  rw [effectiveBillingUsage, usageFromBillingUsage, hb, bind_some, hopen, hclaude, hnames, hgemini]
  simp

/-- Estimated counts are billed as they are. -/
theorem reachesBilling_estimated (hp : IsInt64 usage.promptTokens)
    (hc : IsInt64 usage.completionTokens)
    (htotal : usage.totalTokens = wrap64 (usage.promptTokens + usage.completionTokens))
    (hb : usage.billingUsage = newEstimatedGeminiChatBillingUsage usage) :
    ReachesBilling usage ↔ 0 ≤ usage.promptTokens ∧ 0 ≤ usage.completionTokens := by
  refine ⟨fun h => ⟨h.prompt, h.completion⟩, fun ⟨hprompt, hcompletion⟩ => ?_⟩
  rw [newEstimatedGeminiChatBillingUsage, htotal, ite_self, newGeminiChatBillingUsage] at hb
  split at hb
  · have hread := geminiChatBillingUsage_read _ hb
    refine ⟨hprompt, hcompletion, ?_, ?_⟩
    · rw [hread]
      show wrap64 (usage.promptTokens + 0) = _
      rw [Int.add_zero, wrap64_eq_self hp]
    · rw [hread]
      -- the total was summed up from both counts, and is split again
      show (if wrap64 (usage.promptTokens + usage.completionTokens) ≠ 0 ∧
        wrap64 (usage.completionTokens + 0) ≤ 0 then
          wrap64
            (wrap64 (usage.promptTokens + usage.completionTokens) - wrap64 (usage.promptTokens + 0))
          else wrap64 (usage.completionTokens + 0)) = _
      rw [Int.add_zero, Int.add_zero, wrap64_eq_self hp, wrap64_eq_self hc]
      unfold IsInt64 at hp hc
      unfold wrap64
      split <;> omega
  · have hread := effectiveBillingUsage_none hb
    exact ⟨hprompt, hcompletion, by rw [hread], by rw [hread]⟩

/-! ### Reports -/

/-- A report in which no count is negative. -/
structure GeminiReport.Counts (report : GeminiReport) : Prop where
  promptTokenCount : IsCount report.promptTokenCount
  toolUsePromptTokenCount : IsCount report.toolUsePromptTokenCount
  candidatesTokenCount : IsCount report.candidatesTokenCount
  thoughtsTokenCount : IsCount report.thoughtsTokenCount
  totalTokenCount : IsCount report.totalTokenCount

namespace GeminiReport

variable (report : GeminiReport) (estimatePromptTokens : Int)

/-- The tokens of the answer, or what the total leaves for them. -/
def completionOr : Int :=
  if 0 < report.totalTokenCount ∧ report.completionTokens ≤ 0 then
    wrap64 (report.totalTokenCount - report.promptOr estimatePromptTokens)
  else report.completionTokens

/-- The report counts tokens of the answer, itself or by the total. -/
def Answered : Prop :=
  0 < report.completionTokens ∨ report.promptOr estimatePromptTokens < report.totalTokenCount

/-- The report counts the prompt and nothing else. -/
def PromptOnly : Prop :=
  report.completionTokens ≤ 0 ∧ 0 < report.totalTokenCount ∧
      report.totalTokenCount = report.promptOr estimatePromptTokens ∨
    report.completionTokens = 0 ∧ report.totalTokenCount = 0

/-- What a report is billed for is what it says: it counts the prompt itself, or there is no
estimate of the prompt; a usage that another gateway has attached says the same. -/
def BilledAsReported : Prop :=
  match report.billingUsage with
  | none => 0 < report.promptTokens ∨ estimatePromptTokens = 0
  | some b => ∀ billed ∈ usageFromBillingUsage { billingUsage := some b },
      billed.promptTokens = report.promptOr estimatePromptTokens ∧
        billed.completionTokens = report.completionOr estimatePromptTokens

end GeminiReport

open GeminiReport

/-- The estimate of an answer does not overflow. -/
def EstimateFits (text : String) (images : Nat) : Prop :=
  images ≠ 0 ∧ estimator.count text = 0 → 0 ≤ wrap64 (images * 1400)

/-- The reports whose counts are billed as they are returned. -/
structure GeminiReport.Settles (report : GeminiReport) (estimator : TokenEstimator) (estimate : Int)
    (text : String) (images : Nat) : Prop where
  prompt : 0 ≤ report.promptOr estimate
  reported : report.Answered estimate ∨ text = "" ∧ images = 0 →
    (report.Answered estimate ∨ report.PromptOnly estimate) ∧ report.BilledAsReported estimate
  estimated : ¬ (report.Answered estimate ∨ text = "" ∧ images = 0) →
    EstimateFits estimator text images

variable {report : GeminiReport} {estimate : Int}

section Report

variable {estimator : TokenEstimator} {text : String} {images : Nat}

theorem estimatedCompletion_nonneg_iff :
    0 ≤ estimatedCompletion estimator text images ↔ EstimateFits estimator text images := by
  have hcount := (estimator.isCount text).1
  unfold estimatedCompletion EstimateFits
  split <;> rename_i h
  · exact ⟨fun hfits _ => hfits, fun hfits => hfits h⟩
  · exact iff_of_true hcount fun hzero => absurd hzero h

theorem isInt64_estimatedCompletion : IsInt64 (estimatedCompletion estimator text images) := by
  unfold estimatedCompletion
  split
  · exact isInt64_wrap64 _
  · exact (estimator.isCount text).2

theorem isInt64_promptOr (hestimate : IsCount estimate) : IsInt64 (report.promptOr estimate) := by
  unfold GeminiUsageMetadata.promptOr
  split
  · exact hestimate.2
  · exact isInt64_wrap64 _

section

variable (h : report.Counts) (hestimate : IsCount estimate) (hprompt : 0 ≤ report.promptOr estimate)

include h hestimate hprompt

/-- What the total leaves, where the prompt is not negative. -/
theorem completionOr_eq : report.completionOr estimate =
      if 0 < report.totalTokenCount ∧ report.completionTokens ≤ 0 then
        report.totalTokenCount - report.promptOr estimate
      else report.completionTokens := by
  have hp : IsInt64 (report.promptOr estimate) := isInt64_promptOr hestimate
  have ht := h.totalTokenCount
  unfold completionOr
  split
  · rw [wrap64_eq_self]
    unfold IsCount IsInt64 at *
    omega
  · rfl

theorem answered_iff : report.Answered estimate ↔ 0 < report.completionOr estimate := by
  rw [completionOr_eq h hestimate hprompt, Answered]
  split <;> omega

theorem promptOnly_iff : report.PromptOnly estimate ↔ report.completionOr estimate = 0 := by
  have ht := h.totalTokenCount.1
  rw [completionOr_eq h hestimate hprompt, PromptOnly]
  split <;> omega

end

/-- A report that says nothing of a prompt is billed without the estimate. -/
theorem billed_prompt_iff (hestimate : IsCount estimate) :
    report.promptTokens = report.promptOr estimate ↔
      0 < report.promptTokens ∨ estimate = 0 := by
  have hpos := hestimate.1
  unfold GeminiUsageMetadata.promptOr
  split <;> omega

section

variable (h : report.Counts) (hestimate : IsCount estimate)
  (htokens : hasGeminiUsageMetadataTokens report.toGeminiUsageMetadata = true)

include h hestimate htokens

/-- A report that is taken over. -/
theorem reachesBilling_reported (hprompt : 0 ≤ report.promptOr estimate) :
    ReachesBilling (buildUsageFromGeminiMetadata (some report) estimate) ↔
      (report.Answered estimate ∨ report.PromptOnly estimate) ∧
        report.BilledAsReported estimate := by
  have hnonneg : (0 ≤ report.completionOr estimate) ↔
      report.Answered estimate ∨ report.PromptOnly estimate := by
    rw [answered_iff h hestimate hprompt, promptOnly_iff h hestimate hprompt]
    omega
  suffices hbilled :
      ((effectiveBillingUsage (buildUsageFromGeminiMetadata (some report) estimate)).promptTokens =
          report.promptOr estimate ∧
        (effectiveBillingUsage
          (buildUsageFromGeminiMetadata (some report) estimate)).completionTokens =
          report.completionOr estimate) ↔ report.BilledAsReported estimate by
    rw [← hnonneg, ← hbilled]
    exact ⟨fun hr => ⟨hr.completion, hr.billedPrompt, hr.billedCompletion⟩,
      fun hr => ⟨hprompt, hr.1, hr.2.1, hr.2.2⟩⟩
  cases hattached : report.billingUsage with
  | none =>
    have hb : (buildUsageFromGeminiMetadata (some report) estimate).billingUsage =
        some (geminiChatBillingUsage report.toGeminiUsageMetadata) := by
      show (report.billingUsage <|> newGeminiChatBillingUsage report.toGeminiUsageMetadata) = _
      rw [hattached, newGeminiChatBillingUsage, if_pos htokens]
      rfl
    rw [geminiChatBillingUsage_read _ hb]
    show report.promptTokens = _ ∧ (if report.totalTokenCount ≠ 0 ∧ report.completionTokens ≤ 0 then
      wrap64 (report.totalTokenCount - report.promptTokens) else report.completionTokens) = _ ↔ _
    rw [BilledAsReported, hattached]
    dsimp only
    rw [← billed_prompt_iff hestimate]
    refine and_iff_left_of_imp fun hp => ?_
    -- both subtract from the total where it is given, and a total is not negative
    have htotal : report.totalTokenCount ≠ 0 ↔ 0 < report.totalTokenCount := by
      have := h.totalTokenCount.1
      omega
    simp only [completionOr, ← hp, htotal]
  | some b =>
    have hb : (buildUsageFromGeminiMetadata (some report) estimate).billingUsage = some b := by
      show (report.billingUsage <|> _) = _
      rw [hattached]
      rfl
    have hread : usageFromBillingUsage (buildUsageFromGeminiMetadata (some report) estimate) =
        usageFromBillingUsage { billingUsage := some b } := by
      rw [usageFromBillingUsage, hb, usageFromBillingUsage]
    rw [effectiveBillingUsage, hread, BilledAsReported, hattached]
    dsimp only
    cases usageFromBillingUsage { billingUsage := some b } with
    | none =>
      refine iff_of_true ⟨rfl, rfl⟩ ?_
      intro billed hbilled
      cases hbilled
    | some billed => simp

theorem patched_billed_iff : ReachesBilling (patchGeminiZeroCompletionUsage estimator
        (buildUsageFromGeminiMetadata (some report) estimate) text images) ↔
      report.Settles estimator estimate text images := by
  -- a negative prompt is never billed as it is
  by_cases hprompt : 0 ≤ report.promptOr estimate
  · have hanswered : 0 < (buildUsageFromGeminiMetadata (some report) estimate).completionTokens ↔
        report.Answered estimate := (answered_iff h hestimate hprompt).symm
    rw [patchGeminiZeroCompletionUsage]
    split <;> rename_i hkept <;> rw [hanswered] at hkept
    · rw [reachesBilling_reported h hestimate htokens hprompt]
      exact ⟨fun hr => ⟨hprompt, fun _ => hr, fun hn => absurd hkept hn⟩,
        fun hr => hr.reported hkept⟩
    · rw [reachesBilling_estimated (isInt64_promptOr hestimate) isInt64_estimatedCompletion rfl rfl]
      show 0 ≤ report.promptOr estimate ∧ 0 ≤ estimatedCompletion estimator text images ↔ _
      rw [estimatedCompletion_nonneg_iff]
      exact ⟨fun hr => ⟨hprompt, fun hn => absurd hn hkept, fun _ => hr.2⟩,
        fun hr => ⟨hprompt, hr.estimated hkept⟩⟩
  · refine iff_of_false (fun hr => hprompt ?_) fun hr => hprompt hr.prompt
    have hp := hr.prompt
    rw [patchGeminiZeroCompletionUsage] at hp
    split at hp
    · exact hp
    · exact hp

end

end Report

/-! ### Whole responses and streams -/

/-- A response whose report, if it has one, has no negative count. -/
def GeminiChatResponse.Counted (response : GeminiChatResponse) : Prop :=
  ∀ report ∈ response.usageMetadata, report.Counts

variable {response : GeminiChatResponse}

theorem report_mem (h : report ∈ response.report) :
    report ∈ response.usageMetadata ∧ hasGeminiUsageMetadataTokens report.toGeminiUsageMetadata =
      true := by
  simpa only [GeminiChatResponse.report, mem_def, filter_eq_some_iff] using h

variable (chunks : List GeminiChatResponse)

/-- The report that a stream is billed by. -/
def lastReport : Option GeminiReport := (chunks.filterMap GeminiChatResponse.report).getLast?

theorem lastReport_mem {chunks : List GeminiChatResponse} (h : report ∈ lastReport chunks) :
    ∃ chunk ∈ chunks, report ∈ chunk.report := by
  have hmem := List.mem_of_getLast? h
  obtain ⟨chunk, hchunk, hreport⟩ := List.mem_filterMap.mp hmem
  exact ⟨chunk, hchunk, hreport⟩

def streamText : String := String.join (chunks.map geminiResponseUsageText)

def streamImages : Nat :=
  chunks.foldr (fun chunk images => geminiResponseInlineImageCount chunk + images) 0

/-- A stream keeps the text and the images of its chunks, and the usage of the last report. -/
theorem exec_geminiStream (s : GeminiStream) :
    Run.exec (GeminiStream.step estimate) s chunks =
      { usage := ((lastReport chunks).map fun report =>
          buildUsageFromGeminiMetadata (some report) estimate).getD s.usage
        imageCount := s.imageCount + streamImages chunks
        hasBillableUsageMetadata := s.hasBillableUsageMetadata || (lastReport chunks).isSome
        responseText := s.responseText ++ streamText chunks } := by
  induction chunks generalizing s with
  | nil => simp [lastReport, streamText, streamImages]
  | cons chunk chunks ih =>
    rw [Run.exec_cons, ih]
    -- the last report is the one that counts
    cases hreport : chunk.report with
    | none =>
      have hlast : lastReport (chunk :: chunks) = lastReport chunks := by
        rw [lastReport, List.filterMap_cons, hreport]
        rfl
      simp [GeminiStream.step, hreport, hlast, streamText, streamImages, Nat.add_assoc,
        String.append_assoc]
    | some report =>
      have hlast : lastReport (chunk :: chunks) = some ((lastReport chunks).getD report) := by
        rw [lastReport, List.filterMap_cons, hreport, List.getLast?_cons]
        rfl
      rw [hlast]
      cases lastReport chunks <;>
        simp [GeminiStream.step, hreport, streamText, streamImages, Nat.add_assoc,
          String.append_assoc]

section Billed

variable {estimator : TokenEstimator}

variable (hestimate : IsCount estimate)

include hestimate

theorem response_billed_iff (hcounted : response.Counted) :
    ReachesBilling (buildUsageFromGeminiResponse estimator estimate response) ↔
      ∀ report ∈ response.report,
        report.Settles estimator estimate (geminiResponseUsageText response)
        (geminiResponseInlineImageCount response) := by
  rw [buildUsageFromGeminiResponse]
  cases hreport : response.report with
  | none =>
    have hcount := estimator.isCount (geminiResponseUsageText response)
    refine iff_of_true ?_ fun report h => by cases h
    exact (reachesBilling_estimated hestimate.2 hcount.2 rfl rfl).mpr ⟨hestimate.1, hcount.1⟩
  | some report =>
    obtain ⟨hmem, htokens⟩ := report_mem hreport
    dsimp only
    rw [patched_billed_iff (hcounted report hmem) hestimate htokens]
    simp

/-- The estimate for a stream that reports nothing. -/
theorem estimated_stream_billed_iff (received : Bool) (s : GeminiStream) :
    ReachesBilling
      (attachEstimatedGeminiBillingUsage (s.estimatedUsage estimator estimate received)) ↔
      EstimateFits estimator (if received then s.responseText else "") s.imageCount := by
  -- a stream without a chunk has no usage of the prompt either
  have husage : attachEstimatedGeminiBillingUsage (s.estimatedUsage estimator estimate received) =
      attachEstimatedGeminiBillingUsage
        { promptTokens := if received then estimate else 0
          completionTokens :=
            estimatedCompletion estimator (if received then s.responseText else "") s.imageCount
          totalTokens := wrap64 ((if received then estimate else 0) +
            estimatedCompletion estimator (if received then s.responseText else "")
              s.imageCount) } := by
    congr 1
    cases received with
    | true =>
      simp only [GeminiStream.estimatedUsage, estimatedCompletion, responseText2Usage, if_true]
      split <;> rfl
    | false =>
      simp only [GeminiStream.estimatedUsage, estimatedCompletion, estimator.empty,
        if_neg Bool.false_ne_true]
      split <;> rfl
  have hprompt : IsCount (if received then estimate else 0) := by
    split
    · exact hestimate
    · decide
  rw [husage, reachesBilling_estimated hprompt.2 isInt64_estimatedCompletion rfl rfl,
    ← estimatedCompletion_nonneg_iff]
  exact and_iff_right hprompt.1

theorem stream_billed_iff (received : Bool) {chunks : List GeminiChatResponse}
    (hcounted : ∀ chunk ∈ chunks, chunk.Counted) :
    ReachesBilling (geminiStreamHandler estimator estimate received chunks) ↔
      match lastReport chunks with
      | some report => report.Settles estimator estimate (streamText chunks) (streamImages chunks)
      | none =>
        EstimateFits estimator (if received then streamText chunks else "")
            (streamImages chunks) := by
  rw [geminiStreamHandler, exec_geminiStream]
  cases hreport : lastReport chunks with
  | none =>
    simp only [isSome_none, Bool.or_false, if_neg Bool.false_ne_true]
    rw [estimated_stream_billed_iff hestimate]
    simp
  | some report =>
    obtain ⟨chunk, hchunk, hmem⟩ := lastReport_mem hreport
    obtain ⟨hmem, htokens⟩ := report_mem hmem
    simp only [isSome_some, Bool.or_true, if_true, map_some, getD_some]
    rw [patched_billed_iff (hcounted chunk hchunk report hmem) hestimate htokens]
    simp

end Billed

/-- The usage that is returned is the one that is billed: of a response, and at the end of a
stream. -/
theorem gemini_usage_billed_iff (estimator : TokenEstimator) (estimatePromptTokens : Int)
    (hestimate : IsCount estimatePromptTokens) :
    (∀ response : GeminiChatResponse, response.Counted →
      (ReachesBilling (buildUsageFromGeminiResponse estimator estimatePromptTokens response) ↔
        ∀ report ∈ response.report,
          report.Settles estimator estimatePromptTokens (geminiResponseUsageText response)
          (geminiResponseInlineImageCount response))) ∧
    (∀ (received : Bool) (chunks : List GeminiChatResponse), (∀ chunk ∈ chunks, chunk.Counted) →
      (ReachesBilling (geminiStreamHandler estimator estimatePromptTokens received chunks) ↔
        match lastReport chunks with
        | some report =>
          report.Settles estimator estimatePromptTokens (streamText chunks) (streamImages chunks)
        | none =>
          EstimateFits estimator (if received then streamText chunks else "")
            (streamImages chunks))) :=
  ⟨fun _ hcounted => response_billed_iff hestimate hcounted,
    fun received _ hcounted => stream_billed_iff hestimate received hcounted⟩

/-- An estimator that counts four bytes as a token. -/
def bytesEstimator : TokenEstimator where
  count text := min (text.utf8ByteSize / 4) 9223372036854775807
  isCount text := by
    unfold IsCount IsInt64
    omega
  empty := rfl

/-- Ten tokens of the prompt are reported, and the answer by its total. -/
def totalOnlyReport : GeminiReport where
  promptTokenCount := 10
  totalTokenCount := 15

theorem gemini_usage_billed_total :
    ReachesBilling
      (buildUsageFromGeminiResponse bytesEstimator 12
        { usageMetadata := some totalOnlyReport }) := by
  refine ((gemini_usage_billed_iff bytesEstimator 12 (by decide)).1 _ ?_).mpr ?_
  · rintro report ⟨⟩
    exact ⟨by decide, by decide, by decide, by decide, by decide⟩
  · intro report hreport
    obtain ⟨hmem, -⟩ := report_mem hreport
    cases hmem
    exact ⟨by decide, fun _ => ⟨.inl (.inr (by decide)), .inl (by decide)⟩,
      fun h => absurd (.inl (.inr (by decide))) h⟩

/-- Without the tokens of the prompt the estimate is returned, and nothing is billed for the
prompt. -/
theorem prompt_estimate_not_billed : let response : GeminiChatResponse :=
      { usageMetadata := some { candidatesTokenCount := 5, totalTokenCount := 5 } }
    let usage := buildUsageFromGeminiResponse bytesEstimator 12 response
    usage.promptTokens = 12 ∧ (effectiveBillingUsage usage).promptTokens = 0 ∧
        ¬ ReachesBilling usage := by
  have hprompt : (buildUsageFromGeminiResponse bytesEstimator 12
      { usageMetadata := some { candidatesTokenCount := 5, totalTokenCount := 5 } }).promptTokens =
        12 := by decide +kernel
  have hbilled : (effectiveBillingUsage (buildUsageFromGeminiResponse bytesEstimator 12
      { usageMetadata := some { candidatesTokenCount := 5, totalTokenCount := 5 } })).promptTokens =
        0 := by decide +kernel
  refine ⟨hprompt, hbilled, fun h => ?_⟩
  have hsame := h.billedPrompt
  rw [hprompt, hbilled] at hsame
  exact absurd hsame (by decide)
