/-
Token counts from one format to another.

A Chat client may be shown the usage of a Responses upstream, and a Claude client that of an
OpenAI one.  What an OpenAI prompt counts as a whole, Claude reports in parts: the tokens read
from the cache, those written to it, and the others.

* `claude_usage_accounts_iff` — the parts add up to the prompt, and the two kinds of cache writes to
  all cache writes, exactly if `PromptParts` and `CreationParts` hold;
* `responses_usage_billed_iff` — a Responses usage is billed as it is shown, and as a request of
  its own format is, exactly if no part of its input is counted by itself;
* `cached_without_writes`, `cached_input_billed_fully` — a prompt that is partly cached.
-/
import AcuGateway.ChatToClaude
import AcuGateway.ResponsesBilling
import AcuGateway.TextQuota

open Option InputTokenDetails

/-! ### OpenAI usage for a Claude client -/

/-- The usage of an OpenAI upstream, with no Claude usage attached, in which the tokens read from
the cache and written to it are part of the prompt. -/
structure OpenAIReport (u : Usage) : Prop where
  prompt : IsCount u.promptTokens
  cached : IsCount u.promptTokensDetails.cachedTokens
  cachedCreation : IsCount u.promptTokensDetails.cachedCreationTokens
  cacheWrite : IsCount u.promptTokensDetails.cacheWriteTokens
  split5m : IsCount u.claudeCacheCreation5mTokens
  split1h : IsCount u.claudeCacheCreation1hTokens
  notClaude : ∀ b ∈ u.billingUsage, b.source = "claude_messages" ∨ b.semantic = "anthropic" →
    b.claudeUsage = none
  covers : u.promptTokensDetails.cachedTokens + u.promptTokensDetails.cacheCreationTokensTotal ≤
    u.promptTokens

/-- All tokens of the prompt are accounted for. -/
structure AccountsFor (u : Usage) (claude : ClaudeUsage) : Prop where
  prompt : claude.inputTokens + claude.cacheReadInputTokens + claude.cacheCreationInputTokens =
    u.promptTokens
  creation : ∀ split ∈ claude.cacheCreation,
    split.ephemeral5mInputTokens + split.ephemeral1hInputTokens = claude.cacheCreationInputTokens

/-- Either cache writes are reported in the field of OpenAI, or there is nothing to take off the
prompt. -/
def PromptParts (u : Usage) : Prop :=
  0 < u.promptTokensDetails.cacheWriteTokens ∨
    u.promptTokensDetails.cachedTokens = 0 ∧ u.promptTokensDetails.cachedCreationTokens = 0

/-- The cache writes of the split make up those of the total, or no cache write has a split.  The
last case is one of counts so high that their sum overflows. -/
def CreationParts (u : Usage) : Prop :=
  let creation := u.promptTokensDetails.cachedCreationTokens
  let write := u.promptTokensDetails.cacheWriteTokens
  let split := u.claudeCacheCreation5mTokens + u.claudeCacheCreation1hTokens
  max creation split = max creation write ∨ max creation split = 0 ∨
    9223372036854775808 + creation < split ∧ write ≤ creation

section

variable {total tokens5m tokens1h : Int} (ht : IsCount total) (h5 : IsCount tokens5m)
  (h1 : IsCount tokens1h)

include ht h5 h1

/-- The parts of a split. -/
theorem normalizeCacheCreationSplit_sum :
    (normalizeCacheCreationSplit total tokens5m tokens1h).1 +
      (normalizeCacheCreationSplit total tokens5m tokens1h).2 =
      if 9223372036854775808 + total < tokens5m + tokens1h then total
      else max total (tokens5m + tokens1h) := by
  unfold IsCount IsInt64 at *
  simp only [normalizeCacheCreationSplit, wrap64]
  split <;> omega

/-- A split is shown if there is something to split. -/
theorem normalizeCacheCreationSplit_pos :
    0 < (normalizeCacheCreationSplit total tokens5m tokens1h).1 ∨
      0 < (normalizeCacheCreationSplit total tokens5m tokens1h).2 ↔
      max total (tokens5m + tokens1h) ≠ 0 := by
  unfold IsCount IsInt64 at *
  simp only [normalizeCacheCreationSplit, wrap64]
  omega

end

/-- The usage that is shown, where no Claude usage is attached. -/
theorem buildClaudeUsage_openAI {u : Usage} (h : OpenAIReport u) :
    (buildClaudeUsageFromOpenAIUsage u).inputTokens =
        (if 0 < u.promptTokensDetails.cacheWriteTokens then
          u.promptTokens - u.promptTokensDetails.cachedTokens -
            u.promptTokensDetails.cacheCreationTokensTotal
        else u.promptTokens) ∧
      (buildClaudeUsageFromOpenAIUsage u).cacheReadInputTokens =
        u.promptTokensDetails.cachedTokens ∧
      (buildClaudeUsageFromOpenAIUsage u).cacheCreationInputTokens =
        u.promptTokensDetails.cacheCreationTokensTotal ∧
      (buildClaudeUsageFromOpenAIUsage u).cacheCreation =
        (let split := normalizeCacheCreationSplit u.promptTokensDetails.cachedCreationTokens
          u.claudeCacheCreation5mTokens u.claudeCacheCreation1hTokens
        if 0 < split.1 ∨ 0 < split.2 then some ⟨split.1, split.2⟩ else none) := by
  -- the report names no other provider
  have hreported : (u.billingUsage.bind fun b =>
      if b.source = "claude_messages" ∨ b.semantic = "anthropic" then b.claudeUsage else none) =
        none := by
    cases hb : u.billingUsage with
    | none => rfl
    | some b =>
      rw [bind_some]
      split
      · rename_i hnames
        exact h.notClaude b hb hnames
      · rfl
  have hfits : wrap64 (wrap64 (u.promptTokens - u.promptTokensDetails.cachedTokens) -
      u.promptTokensDetails.cacheCreationTokensTotal) =
      u.promptTokens - u.promptTokensDetails.cachedTokens -
        u.promptTokensDetails.cacheCreationTokensTotal := by
    have hprompt := h.prompt
    have hcached := h.cached
    have hcovers := h.covers
    have htotal : 0 ≤ u.promptTokensDetails.cacheCreationTokensTotal := Int.le_max_right _ _
    unfold IsCount IsInt64 at hprompt hcached
    unfold wrap64
    omega
  have hrest : max (u.promptTokens - u.promptTokensDetails.cachedTokens -
      u.promptTokensDetails.cacheCreationTokensTotal) 0 =
      u.promptTokens - u.promptTokensDetails.cachedTokens -
        u.promptTokensDetails.cacheCreationTokensTotal := by
    have hcovers := h.covers
    omega
  simp [buildClaudeUsageFromOpenAIUsage, hreported, hfits, hrest]

theorem claude_usage_accounts_iff (u : Usage) (h : OpenAIReport u) :
    AccountsFor u (buildClaudeUsageFromOpenAIUsage u) ↔ PromptParts u ∧ CreationParts u := by
  obtain ⟨hinput, hread, hcreation, hsplit⟩ := buildClaudeUsage_openAI h
  have hsum := normalizeCacheCreationSplit_sum h.cachedCreation h.split5m h.split1h
  have hpos := normalizeCacheCreationSplit_pos h.cachedCreation h.split5m h.split1h
  have hcached := h.cached.1
  have hcct := h.cachedCreation.1
  have hcwt := h.cacheWrite.1
  have htotal : u.promptTokensDetails.cacheCreationTokensTotal =
      max u.promptTokensDetails.cachedCreationTokens u.promptTokensDetails.cacheWriteTokens := by
    unfold cacheCreationTokensTotal
    omega
  have hprompt : (buildClaudeUsageFromOpenAIUsage u).inputTokens +
      (buildClaudeUsageFromOpenAIUsage u).cacheReadInputTokens +
      (buildClaudeUsageFromOpenAIUsage u).cacheCreationInputTokens = u.promptTokens ↔
          PromptParts u := by
    rw [hinput, hread, hcreation, htotal, PromptParts]
    split <;> omega
  have hparts : (∀ split ∈ (buildClaudeUsageFromOpenAIUsage u).cacheCreation,
      split.ephemeral5mInputTokens + split.ephemeral1hInputTokens =
        (buildClaudeUsageFromOpenAIUsage u).cacheCreationInputTokens) ↔ CreationParts u := by
    have h5 := h.split5m.1
    have h1 := h.split1h.1
    have hbound : u.promptTokensDetails.cacheWriteTokens < 9223372036854775808 := h.cacheWrite.2.2
    rw [hsplit, hcreation, htotal]
    simp only [CreationParts]
    generalize normalizeCacheCreationSplit u.promptTokensDetails.cachedCreationTokens
      u.claudeCacheCreation5mTokens
      u.claudeCacheCreation1hTokens = split at hsum hpos ⊢
    -- a split is shown only if it has a part
    by_cases hshown : 0 < split.1 ∨ 0 < split.2
    · have hsome := hpos.mp hshown
      simp only [if_pos hshown, mem_def, Option.some.injEq, forall_eq', hsum]
      by_cases hover : 9223372036854775808 + u.promptTokensDetails.cachedCreationTokens <
          u.claudeCacheCreation5mTokens + u.claudeCacheCreation1hTokens
      · rw [if_pos hover]
        omega
      · rw [if_neg hover]
        omega
    · have hzero : max u.promptTokensDetails.cachedCreationTokens
          (u.claudeCacheCreation5mTokens + u.claudeCacheCreation1hTokens) = 0 := by
        by_contra hne
        exact hshown (hpos.mpr hne)
      simp [if_neg hshown, hzero]
  exact ⟨fun hall => ⟨hprompt.mp hall.prompt, hparts.mp hall.creation⟩,
    fun hall => ⟨hprompt.mpr hall.1, hparts.mpr hall.2⟩⟩

theorem claude_usage_accounts_written :
    AccountsFor
      { promptTokens := 100, promptTokensDetails := { cachedTokens := 30, cacheWriteTokens := 20 } }
      (buildClaudeUsageFromOpenAIUsage
        { promptTokens := 100, promptTokensDetails :=
          { cachedTokens := 30, cacheWriteTokens := 20 } }) :=
  (claude_usage_accounts_iff _ ⟨by decide, by decide, by decide, by decide, by decide, by decide,
    fun _ hb => (by cases hb), by decide⟩).mpr ⟨.inl (by decide), .inr (.inl (by decide))⟩

/-- Forty of a hundred tokens were cached before, and none are written. -/
theorem cached_without_writes :
    ¬ AccountsFor { promptTokens := 100, promptTokensDetails := { cachedTokens := 40 } }
      (buildClaudeUsageFromOpenAIUsage
        { promptTokens := 100, promptTokensDetails := { cachedTokens := 40 } }) := by
  intro h
  exact absurd h.prompt (by decide)

/-! ### Responses usage for a Chat client -/

structure ResponsesInputDetails where
  cachedTokens : Nat := 0
  cacheWriteTokens : Nat := 0
  imageTokens : Nat := 0
  audioTokens : Nat := 0

/-- The usage of a Responses upstream. -/
structure ResponsesUsage where
  inputTokens : Nat
  outputTokens : Nat
  totalTokens : Nat
  inputTokensDetails : Option ResponsesInputDetails := none

def ResponsesUsage.toUsage (u : ResponsesUsage) : Usage where
  inputTokens := u.inputTokens
  outputTokens := u.outputTokens
  totalTokens := u.totalTokens
  inputTokensDetails := u.inputTokensDetails.map fun details =>
    { cachedTokens := details.cachedTokens
      cacheWriteTokens := details.cacheWriteTokens
      imageTokens := details.imageTokens
      audioTokens := details.audioTokens }

/-- The counts that are billed are the same. -/
structure SameCounts (u v : Usage) : Prop where
  prompt : u.promptTokens = v.promptTokens
  completion : u.completionTokens = v.completionTokens
  cached : u.promptTokensDetails.cachedTokens = v.promptTokensDetails.cachedTokens
  cacheCreation : u.promptTokensDetails.cacheCreationTokensTotal =
    v.promptTokensDetails.cacheCreationTokensTotal
  image : u.promptTokensDetails.imageTokens = v.promptTokensDetails.imageTokens
  audio : u.promptTokensDetails.audioTokens = v.promptTokensDetails.audioTokens

/-- No part of the input is counted by itself. -/
def ResponsesUsage.Plain (u : ResponsesUsage) : Prop :=
  ∀ details ∈ u.inputTokensDetails, details.cachedTokens = 0 ∧ details.cacheWriteTokens = 0 ∧
    details.imageTokens = 0 ∧ details.audioTokens = 0

/-- A usage without parts, in the terms of OpenAI. -/
structure WithoutParts (v : UsageCounts) (prompt completion : Int) : Prop where
  promptTokens : v.promptTokens = prompt
  completionTokens : v.completionTokens = completion
  details : v.promptTokensDetails = {}
  split5m : v.claudeCacheCreation5mTokens = 0
  split1h : v.claudeCacheCreation1hTokens = 0
  semantic : v.usageSemantic = "" ∨ v.usageSemantic = "openai"

section Quota

variable {v w : UsageCounts} {prompt completion : Int}

variable (h : WithoutParts v prompt completion)

include h

theorem WithoutParts.summary {ctx : TextQuotaContext}
    (hformat : ctx.claudeFormat = false) :
    calculateTextQuotaSummary ctx v =
      { promptTokens := prompt
        completionTokens := completion
        totalTokens := wrap64 (prompt + completion)
        cacheTokens := 0
        cacheCreationTokens := 0
        cacheCreationTokens5m := 0
        cacheCreationTokens1h := 0
        imageTokens := 0
        audioTokens := 0
        isClaudeUsageSemantic := false } := by
  have hsemantic : usageSemanticFromUsage ctx v = "openai" := by
    rcases h.semantic with hs | hs <;> simp [usageSemanticFromUsage, hs, hformat]
  have hguess : ctx.guesses v = false := by simp [TextQuotaContext.guesses, hsemantic]
  simp [calculateTextQuotaSummary, TextQuotaContext.cacheCreationTokens, hguess, hsemantic,
    h.promptTokens, h.completionTokens, h.details, h.split5m, h.split1h, cacheCreationTokensTotal]

/-- Whatever else differs, the quota is the same. -/
theorem WithoutParts.quota (h' : WithoutParts w prompt completion)
    {request : TextRequest} (hformat : request.claudeFormat = false) :
    textQuota request v = textQuota request w := by
  refine textQuota_congr ?_ ?_
  · have hcontext : request.context.claudeFormat = false := hformat
    rw [h.summary hcontext, h'.summary hcontext]
  · simp [isLegacyClaudeDerivedOpenAIUsage, h.split5m, h.split1h, h'.split5m, h'.split1h]

end Quota

section Responses

variable (u : ResponsesUsage)

/-- The details of the input are not where billing looks for them. -/
theorem billed_withoutParts :
    WithoutParts (effectiveBillingUsage (usageFromResponsesUsage (some u.toUsage))).toUsageCounts
      u.inputTokens
      u.outputTokens := by
  cases htokens : hasOpenAIUsageTokens u.toUsage.toUsageCounts with
  | true =>
    rw [effectiveBillingUsage_embedded (.inr rfl) htokens rfl]
    refine ⟨?_, ?_, rfl, rfl, rfl, .inr rfl⟩
    · show orElsePositive 0 (u.inputTokens : Int) = u.inputTokens
      unfold orElsePositive
      split <;> omega
    · show orElsePositive 0 (u.outputTokens : Int) = u.outputTokens
      unfold orElsePositive
      split <;> omega
  | false =>
    -- nothing was reported, so nothing is embedded
    have hbilling : (usageFromResponsesUsage (some u.toUsage)).billingUsage = none := by
      show newOpenAIBillingUsage "oai_responses" u.toUsage = none
      rw [newOpenAIBillingUsage, htokens]
      rfl
    have hdetails : u.toUsage.inputTokensDetails = none := by
      simp only [hasOpenAIUsageTokens, Bool.or_eq_false_iff] at htokens
      exact isNone_iff_eq_none.mp (by simpa using htokens.2)
    rw [effectiveBillingUsage_none hbilling]
    refine ⟨rfl, rfl, ?_, rfl, rfl, .inl rfl⟩
    show u.toUsage.inputTokensDetails.getD {} = {}
    rw [hdetails]
    rfl

/-- What the upstream reports of its input, in the terms of Chat. -/
theorem shown_details : (usageFromResponsesUsage (some u.toUsage)).promptTokensDetails =
      (u.inputTokensDetails.map fun details =>
        ({ cachedTokens := details.cachedTokens
           cacheWriteTokens := details.cacheWriteTokens
           imageTokens := details.imageTokens
           audioTokens := details.audioTokens } : InputTokenDetails)).getD {} := rfl

theorem sameCounts_iff :
    SameCounts (effectiveBillingUsage (usageFromResponsesUsage (some u.toUsage)))
      (usageFromResponsesUsage (some u.toUsage)) ↔ u.Plain := by
  have hbilled := billed_withoutParts u
  constructor
  · rintro ⟨-, -, hcached, hcreation, himage, haudio⟩ details hdetails
    rw [hbilled.details, shown_details, hdetails] at hcached hcreation himage haudio
    simp only [cacheCreationTokensTotal, map_some, getD_some] at hcached hcreation himage haudio
    omega
  · intro hplain
    have hdetails : (usageFromResponsesUsage (some u.toUsage)).promptTokensDetails = {} := by
      rw [shown_details]
      cases hd : u.inputTokensDetails with
      | none => rfl
      | some details =>
        obtain ⟨h₁, h₂, h₃, h₄⟩ := hplain details hd
        simp [h₁, h₂, h₃, h₄]
    refine ⟨hbilled.promptTokens, hbilled.completionTokens, ?_, ?_, ?_, ?_⟩ <;>
      rw [hbilled.details, hdetails]

/-- A request of the format itself is billed by its details. -/
theorem native_withoutParts (h : u.Plain) :
    WithoutParts (effectiveBillingUsage (oaiResponsesUsage (some u.toUsage))).toUsageCounts
      u.inputTokens
      u.outputTokens := by
  rw [effectiveBillingUsage_none rfl]
  refine ⟨rfl, rfl, ?_, rfl, rfl, .inl rfl⟩
  cases hd : u.inputTokensDetails with
  | none => simp [oaiResponsesUsage, ResponsesUsage.toUsage, hd]
  | some details =>
    obtain ⟨h₁, h₂, -, -⟩ := h details hd
    simp [oaiResponsesUsage, ResponsesUsage.toUsage, hd, h₁, h₂]

end Responses

theorem responses_usage_billed_iff (u : ResponsesUsage) :
    SameCounts (effectiveBillingUsage (usageFromResponsesUsage (some u.toUsage)))
        (usageFromResponsesUsage (some u.toUsage)) ∧
      (∀ request : TextRequest, request.claudeFormat = false →
        textQuota request
          (effectiveBillingUsage (usageFromResponsesUsage (some u.toUsage))).toUsageCounts =
          textQuota request
            (effectiveBillingUsage (oaiResponsesUsage (some u.toUsage))).toUsageCounts) ↔
    u.Plain := by
  rw [sameCounts_iff]
  refine and_iff_left_of_imp fun hplain request hformat => ?_
  exact (billed_withoutParts u).quota (native_withoutParts u hplain) hformat

/-- Ninety of a hundred tokens were cached. -/
def cachedReport : ResponsesUsage where
  inputTokens := 100
  outputTokens := 10
  totalTokens := 110
  inputTokensDetails := some { cachedTokens := 90 }

theorem cached_input_billed_fully :
    ¬ (SameCounts (effectiveBillingUsage (usageFromResponsesUsage (some cachedReport.toUsage)))
        (usageFromResponsesUsage (some cachedReport.toUsage)) ∧
      ∀ request : TextRequest, request.claudeFormat = false →
        textQuota request
          (effectiveBillingUsage
            (usageFromResponsesUsage (some cachedReport.toUsage))).toUsageCounts =
          textQuota request
            (effectiveBillingUsage
              (oaiResponsesUsage (some cachedReport.toUsage))).toUsageCounts) := by
  rintro ⟨h, -⟩
  exact absurd h.cached (by decide +kernel)
