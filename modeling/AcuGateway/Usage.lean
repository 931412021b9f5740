/-
Token usage, as upstreams report it and as it is billed.

A usage holds the counts an OpenAI client would see and may embed the usage the
upstream reported in its own terms (`BillingUsage`).  What is billed is the embedded
one, mapped back to counts.

* `effectiveBillingUsage` — the usage that is billed;
* `effectiveBillingUsage_claude` — an embedded Claude usage is billed as it stands;
* `newClaudeMessagesBillingUsage` — a Claude usage is embedded unless it is all zero;
* `usageFromResponsesUsage`, `usageFromChatUsage` — from one OpenAI format to the other.
-/
import AcuGateway.Lib.Text
import AcuGateway.Lib.Word

open Text (trimSpace equalFold)

/-! ### Counts -/

structure InputTokenDetails where
  cachedTokens : Int := 0
  cachedCreationTokens : Int := 0
  cacheWriteTokens : Int := 0
  textTokens : Int := 0
  audioTokens : Int := 0
  imageTokens : Int := 0
deriving DecidableEq

/-- The cache-write tokens, in whichever field the upstream reported them. -/
def InputTokenDetails.cacheCreationTokensTotal (d : InputTokenDetails) : Int :=
  max (max d.cachedCreationTokens d.cacheWriteTokens) 0

structure OutputTokenDetails where
  textTokens : Int := 0
  audioTokens : Int := 0
  imageTokens : Int := 0
  reasoningTokens : Int := 0
deriving DecidableEq

/-- A usage without the one it embeds. -/
structure UsageCounts where
  promptTokens : Int := 0
  completionTokens : Int := 0
  totalTokens : Int := 0
  promptCacheHitTokens : Int := 0
  usageSemantic : String := ""
  usageSource : String := ""
  promptTokensDetails : InputTokenDetails := {}
  completionTokenDetails : OutputTokenDetails := {}
  inputTokens : Int := 0
  outputTokens : Int := 0
  inputTokensDetails : Option InputTokenDetails := none
  claudeCacheCreation5mTokens : Int := 0
  claudeCacheCreation1hTokens : Int := 0

structure ClaudeCacheCreationUsage where
  ephemeral5mInputTokens : Int := 0
  ephemeral1hInputTokens : Int := 0

structure ClaudeUsage where
  inputTokens : Int := 0
  cacheCreationInputTokens : Int := 0
  cacheReadInputTokens : Int := 0
  outputTokens : Int := 0
  cacheCreation : Option ClaudeCacheCreationUsage := none
  claudeCacheCreation5mTokens : Int := 0
  claudeCacheCreation1hTokens : Int := 0

namespace ClaudeUsage

def getCacheCreation5mTokens (u : ClaudeUsage) : Int :=
  (u.cacheCreation.map ClaudeCacheCreationUsage.ephemeral5mInputTokens).getD 0

def getCacheCreation1hTokens (u : ClaudeUsage) : Int :=
  (u.cacheCreation.map ClaudeCacheCreationUsage.ephemeral1hInputTokens).getD 0

end ClaudeUsage

inductive GeminiModality
  | text
  | image
  | audio
  | other

structure GeminiPromptTokensDetails where
  modality : GeminiModality
  tokenCount : Int

structure GeminiUsageMetadata where
  promptTokenCount : Int := 0
  toolUsePromptTokenCount : Int := 0
  candidatesTokenCount : Int := 0
  totalTokenCount : Int := 0
  thoughtsTokenCount : Int := 0
  cachedContentTokenCount : Int := 0
  promptTokensDetails : List GeminiPromptTokensDetails := []
  toolUsePromptTokensDetails : List GeminiPromptTokensDetails := []
  candidatesTokensDetails : List GeminiPromptTokensDetails := []

/-- A usage as its upstream reported it. -/
structure BillingUsage where
  source : String := ""
  semantic : String := ""
  openAIUsage : Option UsageCounts := none
  claudeUsage : Option ClaudeUsage := none
  geminiUsageMetadata : Option GeminiUsageMetadata := none

structure Usage extends UsageCounts where
  billingUsage : Option BillingUsage := none

/-! ### What is billed -/

variable (b : BillingUsage)

/-- The source or the semantic of an embedded usage is one of those given. -/
def BillingUsage.names (sources : List String) (semantic : String) : Bool :=
  (sources.any fun source => equalFold (trimSpace b.source) source) ||
    equalFold (trimSpace b.semantic) semantic

def BillingUsage.namesOpenAI : Bool := b.names ["oai_chat", "oai_responses"] "openai"

def BillingUsage.namesClaude : Bool := b.names ["claude_messages"] "anthropic"

def BillingUsage.namesGemini : Bool := b.names ["gemini_chat"] "gemini"

/-- `a`, or `b` where `a` is missing. -/
def orElsePositive (a b : Int) : Int := if a = 0 ∧ 0 < b then b else a

def usageFromOpenAIBillingUsage (openAIUsage : UsageCounts) : Usage :=
  let promptTokens := orElsePositive openAIUsage.promptTokens openAIUsage.inputTokens
  let completionTokens := orElsePositive openAIUsage.completionTokens openAIUsage.outputTokens
  { openAIUsage with
    promptTokens
    completionTokens
    inputTokens := orElsePositive openAIUsage.inputTokens promptTokens
    outputTokens := orElsePositive openAIUsage.outputTokens completionTokens
    totalTokens :=
      if openAIUsage.totalTokens = 0 then wrap64 (promptTokens + completionTokens)
      else openAIUsage.totalTokens
    usageSemantic := "openai"
    usageSource := b.source
    billingUsage := some b }

/-- The 5-minute part of the cache creation of an embedded usage. -/
def ClaudeUsage.split5m (u : ClaudeUsage) : Int :=
  if u.getCacheCreation5mTokens = 0 then u.claudeCacheCreation5mTokens
  else u.getCacheCreation5mTokens

def ClaudeUsage.split1h (u : ClaudeUsage) : Int :=
  if u.getCacheCreation1hTokens = 0 then u.claudeCacheCreation1hTokens
  else u.getCacheCreation1hTokens

def usageFromClaudeBillingUsage (claudeUsage : ClaudeUsage) : Usage where
  promptTokens := claudeUsage.inputTokens
  completionTokens := claudeUsage.outputTokens
  totalTokens := wrap64 (claudeUsage.inputTokens + claudeUsage.outputTokens)
  inputTokens := wrap64 (wrap64 (claudeUsage.inputTokens + claudeUsage.cacheReadInputTokens) +
    claudeUsage.cacheCreationInputTokens)
  outputTokens := claudeUsage.outputTokens
  usageSemantic := "anthropic"
  usageSource := "claude_messages"
  billingUsage := some b
  claudeCacheCreation5mTokens := claudeUsage.split5m
  claudeCacheCreation1hTokens := claudeUsage.split1h
  promptTokensDetails :=
    { cachedTokens := claudeUsage.cacheReadInputTokens
      cachedCreationTokens := claudeUsage.cacheCreationInputTokens }

def addGeminiInputTokenDetail (details : InputTokenDetails) (detail : GeminiPromptTokensDetails) :
    InputTokenDetails :=
  match detail.modality with
  | .audio => { details with audioTokens := wrap64 (details.audioTokens + detail.tokenCount) }
  | .image => { details with imageTokens := wrap64 (details.imageTokens + detail.tokenCount) }
  | .text => { details with textTokens := wrap64 (details.textTokens + detail.tokenCount) }
  | .other => details

def addGeminiOutputTokenDetail (details : OutputTokenDetails) (detail : GeminiPromptTokensDetails) :
    OutputTokenDetails :=
  match detail.modality with
  | .audio => { details with audioTokens := wrap64 (details.audioTokens + detail.tokenCount) }
  | .image => { details with imageTokens := wrap64 (details.imageTokens + detail.tokenCount) }
  | .text => { details with textTokens := wrap64 (details.textTokens + detail.tokenCount) }
  | .other => details

def usageFromGeminiBillingUsage (metadata : GeminiUsageMetadata) : Usage :=
  let promptTokens := wrap64 (metadata.promptTokenCount + metadata.toolUsePromptTokenCount)
  let completionTokens := wrap64 (metadata.candidatesTokenCount + metadata.thoughtsTokenCount)
  let details := (metadata.promptTokensDetails ++ metadata.toolUsePromptTokensDetails).foldl
    addGeminiInputTokenDetail { cachedTokens := metadata.cachedContentTokenCount }
  { promptTokens
    completionTokens :=
      if metadata.totalTokenCount ≠ 0 ∧ completionTokens ≤ 0 then
        wrap64 (metadata.totalTokenCount - promptTokens)
      else completionTokens
    totalTokens :=
      if metadata.totalTokenCount = 0 then wrap64 (promptTokens + completionTokens)
      else metadata.totalTokenCount
    usageSemantic := "gemini"
    usageSource := "gemini_chat"
    billingUsage := some b
    promptTokensDetails :=
      if 0 < promptTokens ∧ details.textTokens = 0 ∧ details.audioTokens = 0 then
        { details with textTokens := promptTokens }
      else details
    completionTokenDetails := metadata.candidatesTokensDetails.foldl addGeminiOutputTokenDetail
      { reasoningTokens := metadata.thoughtsTokenCount } }

def usageFromBillingUsage (usage : Usage) : Option Usage :=
  usage.billingUsage.bind fun b =>
    (if b.namesOpenAI then b.openAIUsage.map (usageFromOpenAIBillingUsage b) else none) <|>
    (if b.namesClaude then b.claudeUsage.map (usageFromClaudeBillingUsage b) else none) <|>
    (if b.namesGemini then b.geminiUsageMetadata.map (usageFromGeminiBillingUsage b) else none)

def effectiveBillingUsage (usage : Usage) : Usage := (usageFromBillingUsage usage).getD usage

variable {usage : Usage}

theorem effectiveBillingUsage_none (h : usage.billingUsage = none) :
    effectiveBillingUsage usage = usage := by
  rw [effectiveBillingUsage, usageFromBillingUsage, h]
  rfl

variable {b : BillingUsage}

theorem effectiveBillingUsage_openAI {openAIUsage : UsageCounts}
    (hb : usage.billingUsage = some b) (hnames : b.namesOpenAI = true)
    (h : b.openAIUsage = some openAIUsage) :
    effectiveBillingUsage usage = usageFromOpenAIBillingUsage b openAIUsage := by
  rw [effectiveBillingUsage, usageFromBillingUsage, hb, Option.bind_some, hnames, h]
  rfl

/-- An embedded usage that is read as the one of a Claude upstream. -/
structure BillingUsage.IsClaude (b : BillingUsage) (claudeUsage : ClaudeUsage) : Prop where
  not_openAI : b.namesOpenAI = false ∨ b.openAIUsage = none
  names : b.namesClaude = true
  usage : b.claudeUsage = some claudeUsage

theorem effectiveBillingUsage_claude {claudeUsage : ClaudeUsage}
    (hb : usage.billingUsage = some b) (h : b.IsClaude claudeUsage) :
    effectiveBillingUsage usage = usageFromClaudeBillingUsage b claudeUsage := by
  have hopen : (if b.namesOpenAI then b.openAIUsage.map (usageFromOpenAIBillingUsage b) else none) =
      none := by
    rcases h.not_openAI with hn | hn
    · simp [hn]
    · simp [hn]
  rw [effectiveBillingUsage, usageFromBillingUsage, hb, Option.bind_some, hopen, h.names, h.usage]
  rfl

/-! ### Embedding a Claude usage -/

def hasClaudeUsageTokens (usage : ClaudeUsage) : Bool :=
  usage.inputTokens ≠ 0 || usage.outputTokens ≠ 0 || usage.cacheCreationInputTokens ≠ 0 ||
  usage.cacheReadInputTokens ≠ 0 || usage.claudeCacheCreation5mTokens ≠ 0 ||
  usage.claudeCacheCreation1hTokens ≠ 0 ||
  usage.getCacheCreation5mTokens ≠ 0 || usage.getCacheCreation1hTokens ≠ 0

def claudeMessagesBillingUsage (usage : ClaudeUsage) : BillingUsage where
  source := "claude_messages"
  semantic := "anthropic"
  claudeUsage := some usage

def newClaudeMessagesBillingUsage (usage : ClaudeUsage) : Option BillingUsage :=
  if hasClaudeUsageTokens usage then some (claudeMessagesBillingUsage usage) else none

theorem newClaudeMessagesBillingUsage_some {usage : ClaudeUsage}
    (h : newClaudeMessagesBillingUsage usage = some b) : b = claudeMessagesBillingUsage usage := by
  unfold newClaudeMessagesBillingUsage at h
  split at h
  · exact (Option.some.inj h).symm
  · cases h

theorem newClaudeMessagesBillingUsage_none {usage : ClaudeUsage} :
    newClaudeMessagesBillingUsage usage = none ↔ hasClaudeUsageTokens usage = false := by
  simp [newClaudeMessagesBillingUsage]

theorem claudeMessagesBillingUsage_isClaude (usage : ClaudeUsage) :
    (claudeMessagesBillingUsage usage).IsClaude usage where
  not_openAI := .inr rfl
  names := by
    show ((["claude_messages"].any fun source => equalFold (trimSpace "claude_messages") source) ||
      equalFold (trimSpace "anthropic") "anthropic") = true
    decide +kernel
  usage := rfl

def normalizeCacheCreationSplit (totalTokens tokens5m tokens1h : Int) : Int × Int :=
  (wrap64 (tokens5m + max (wrap64 (wrap64 (totalTokens - tokens5m) - tokens1h)) 0), tokens1h)

/-! ### Embedding an OpenAI usage -/

def hasOpenAIUsageTokens (usage : UsageCounts) : Bool :=
  usage.promptTokens ≠ 0 || usage.completionTokens ≠ 0 || usage.totalTokens ≠ 0 ||
  usage.inputTokens ≠ 0 || usage.outputTokens ≠ 0 || usage.promptCacheHitTokens ≠ 0 ||
  usage.claudeCacheCreation5mTokens ≠ 0 || usage.claudeCacheCreation1hTokens ≠ 0 ||
  usage.promptTokensDetails ≠ {} || usage.completionTokenDetails ≠ {} ||
  usage.inputTokensDetails.isSome

def newOpenAIBillingUsage (source : String) (usage : Usage) : Option BillingUsage :=
  if hasOpenAIUsageTokens usage.toUsageCounts then
    some { source, semantic := "openai", openAIUsage := some usage.toUsageCounts }
  else none

/-- An OpenAI usage is billed as it was embedded. -/
theorem effectiveBillingUsage_embedded {src : Usage} {source : String}
    (hsource : source = "oai_chat" ∨ source = "oai_responses")
    (h : hasOpenAIUsageTokens src.toUsageCounts = true)
    (hb : usage.billingUsage = newOpenAIBillingUsage source src) :
    effectiveBillingUsage usage = usageFromOpenAIBillingUsage
      { source, semantic := "openai", openAIUsage := some src.toUsageCounts }
        src.toUsageCounts := by
  rw [newOpenAIBillingUsage, if_pos h] at hb
  refine effectiveBillingUsage_openAI hb ?_ rfl
  show ((["oai_chat", "oai_responses"].any fun name => equalFold (trimSpace source) name) ||
    equalFold (trimSpace "openai") "openai") = true
  rcases hsource with rfl | rfl <;> decide +kernel

/-- What the two OpenAI formats have in common: the counts of `src` under their own names and
under those of the other format. -/
def usageFromOpenAI (source : String) (src : Usage) (input output : Int) : Usage :=
  { usageSemantic := src.usageSemantic
    usageSource := src.usageSource
    billingUsage := src.billingUsage <|> newOpenAIBillingUsage source src
    promptTokens := input
    inputTokens := input
    completionTokens := output
    outputTokens := output
    totalTokens := if src.totalTokens ≠ 0 then src.totalTokens else wrap64 (input + output)
    completionTokenDetails := src.completionTokenDetails
    claudeCacheCreation5mTokens := src.claudeCacheCreation5mTokens
    claudeCacheCreation1hTokens := src.claudeCacheCreation1hTokens }

def usageFromResponsesUsage : Option Usage → Usage
  | none => {}
  | some src =>
    { usageFromOpenAI "oai_responses" src src.inputTokens src.outputTokens with
      promptTokensDetails := src.inputTokensDetails.getD {} }

def usageFromChatUsage : Option Usage → Usage
  | none => {}
  | some src =>
    { usageFromOpenAI "oai_chat" src src.promptTokens src.completionTokens with
      inputTokensDetails :=
        if src.promptTokensDetails ≠ {} then some src.promptTokensDetails else none }
