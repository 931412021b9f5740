/-
The token counts of tiered billing and of ratio billing.

Both read the usage that is billed: tiered billing turns it into the variables of a
billing expression, ratio billing into counts that are each charged at a ratio.

* `buildTieredTokenParams`, `calculateTextQuotaSummary` — the two readings;
* `cache_writes_agree_iff` — for a Claude usage they see the same cache-write tokens
  exactly if the reported 5-minute and 1-hour counts make up the reported total;
* `unsplit_cache_write` — a total without a split is free under tiered billing;
* `tokens_split_without_loss` — what an OpenAI usage counts by itself is taken off its
  totals, up to `2^53` tokens.
-/
import AcuGateway.Lib.Float64
import AcuGateway.Usage

open List

/-! ### Tiered billing -/

/-- The variables of a billing expression, as floats. -/
structure TokenParams where
  p : Int
  c : Int
  len : Int
  cr : Int
  cc : Int
  cc1h : Int
  img : Int
  imgO : Int
  ai : Int
  ao : Int

/-- The variables that a billing expression mentions. -/
structure UsedVars where
  cr : Bool := false
  cc : Bool := false
  cc1h : Bool := false
  img : Bool := false
  ai : Bool := false
  imgO : Bool := false
  ao : Bool := false

/-- Take a count off that is priced by itself. -/
def subtractUsed (used : Bool) (count total : Int) : Int :=
  if used then float64 (total - count) else total

def buildTieredTokenParams (usage : UsageCounts) (isClaudeUsageSemantic : Bool)
    (usedVars : UsedVars) : TokenParams :=
  let p := float64 usage.promptTokens
  let c := float64 usage.completionTokens
  let cr := float64 usage.promptTokensDetails.cachedTokens
  let cc5m :=
    if usage.usageSemantic = "anthropic" then float64 usage.claudeCacheCreation5mTokens
    else float64 usage.promptTokensDetails.cacheCreationTokensTotal
  let cc1h := if usage.usageSemantic = "anthropic" then
    float64 usage.claudeCacheCreation1hTokens else 0
  let img := float64 usage.promptTokensDetails.imageTokens
  let ai := float64 usage.promptTokensDetails.audioTokens
  let imgO := float64 usage.completionTokenDetails.imageTokens
  let ao := float64 usage.completionTokenDetails.audioTokens
  -- Claude's input tokens are text only, those of OpenAI include every category
  let inputLen := if isClaudeUsageSemantic then
    float64 (float64 (float64 (p + cr) + cc5m) + cc1h) else p
  let p' :=
    if isClaudeUsageSemantic then p
    else subtractUsed usedVars.ai ai (subtractUsed usedVars.img img
      (subtractUsed usedVars.cc1h cc1h
        (subtractUsed usedVars.cc cc5m (subtractUsed usedVars.cr cr p))))
  let c' :=
    if isClaudeUsageSemantic then c
    else subtractUsed usedVars.ao ao (subtractUsed usedVars.imgO imgO c)
  { p := max p' 0, c := max c' 0, len := inputLen, cr, cc := cc5m, cc1h, img, imgO, ai, ao }

/-! ### Ratio billing -/

/-- What ratio billing reads of the request: the format it was relayed in, whether its
channel is an OpenRouter one, and there the cache-write tokens that the cost stands
for. -/
structure TextQuotaContext where
  claudeFormat : Bool := false
  openRouter : Bool := false
  customSettings : Bool := false
  cacheCreationRatioIsOne : Bool := false
  openRouterCacheCreateTokens : Int := 0
  audioPriced : Bool := false

/-- The counts of a request that is billed by ratios. -/
structure TextQuotaSummary where
  promptTokens : Int
  completionTokens : Int
  totalTokens : Int
  cacheTokens : Int
  cacheCreationTokens : Int
  cacheCreationTokens5m : Int
  cacheCreationTokens1h : Int
  imageTokens : Int
  audioTokens : Int
  isClaudeUsageSemantic : Bool

variable (ctx : TextQuotaContext)

variable (usage : UsageCounts)

def usageSemanticFromUsage : String :=
  if usage.usageSemantic ≠ "" then usage.usageSemantic
  else if ctx.claudeFormat then "anthropic" else "openai"

def isLegacyClaudeDerivedOpenAIUsage : Bool :=
  !ctx.claudeFormat && usage.usageSource = "" && usage.usageSemantic = "" &&
  (0 < usage.claudeCacheCreation5mTokens || 0 < usage.claudeCacheCreation1hTokens)

/-- An OpenRouter channel that reports no cache writes is charged for those its cost
stands for, if they fit in the prompt.  The cost of a usage is never the integer 0. -/
def TextQuotaContext.guesses : Bool :=
  ctx.openRouter && usageSemanticFromUsage ctx usage = "anthropic" &&
  usage.promptTokensDetails.cacheCreationTokensTotal = 0 && !ctx.cacheCreationRatioIsOne &&
  !ctx.customSettings && 0 ≤ ctx.openRouterCacheCreateTokens &&
  ctx.openRouterCacheCreateTokens ≤
    wrap64 (usage.promptTokens - usage.promptTokensDetails.cachedTokens)

/-- The total of the cache writes that ratio billing works with. -/
def TextQuotaContext.cacheCreationTokens : Int :=
  if ctx.guesses usage then ctx.openRouterCacheCreateTokens
  else usage.promptTokensDetails.cacheCreationTokensTotal

/-- The counts of `calculateTextQuotaSummary`. -/
def calculateTextQuotaSummary : TextQuotaSummary :=
  let isClaudeUsageSemantic := usageSemanticFromUsage ctx usage = "anthropic"
  let cacheTokens := usage.promptTokensDetails.cachedTokens
  let cacheCreationTokens := ctx.cacheCreationTokens usage
  { promptTokens :=
      if ctx.openRouter ∧ isClaudeUsageSemantic then
        wrap64 (wrap64 (usage.promptTokens - cacheTokens) - cacheCreationTokens)
      else usage.promptTokens
    completionTokens := usage.completionTokens
    totalTokens := wrap64 (usage.promptTokens + usage.completionTokens)
    cacheTokens
    cacheCreationTokens
    cacheCreationTokens5m := usage.claudeCacheCreation5mTokens
    cacheCreationTokens1h := usage.claudeCacheCreation1hTokens
    imageTokens := usage.promptTokensDetails.imageTokens
    audioTokens := usage.promptTokensDetails.audioTokens
    isClaudeUsageSemantic }

/-- The tokens that are charged at each ratio. -/
structure TextQuotaCharge where
  base : Int
  cached : Int
  cacheCreation : Int
  cacheCreation5m : Int
  cacheCreation1h : Int
  image : Int
  completion : Int

/-- All cache-write tokens that are charged. -/
def TextQuotaCharge.cacheWrites (charge : TextQuotaCharge) : Int :=
  charge.cacheCreation + charge.cacheCreation5m + charge.cacheCreation1h

/-- What ratio billing multiplies with the ratios. -/
def textQuotaCharge : TextQuotaCharge :=
  let summary := calculateTextQuotaSummary ctx usage
  -- the counts of Claude stand beside the prompt, those of OpenAI are part of it
  let separate := summary.isClaudeUsageSemantic || isLegacyClaudeDerivedOpenAIUsage ctx usage
  let hasCreation := summary.cacheCreationTokens ≠ 0 ∨ 0 < summary.cacheCreationTokens5m ∨
    0 < summary.cacheCreationTokens1h
  let remaining :=
    max (wrap64 (wrap64 (summary.cacheCreationTokens - summary.cacheCreationTokens5m) -
    summary.cacheCreationTokens1h)) 0
  { base := max (summary.promptTokens - (if separate then 0 else summary.cacheTokens) -
      (if separate then 0 else summary.cacheCreationTokens) - summary.imageTokens -
      (if ctx.audioPriced then summary.audioTokens else 0)) 0
    cached := summary.cacheTokens
    cacheCreation := if hasCreation then if separate then remaining
      else summary.cacheCreationTokens else 0
    cacheCreation5m := if hasCreation ∧ separate then summary.cacheCreationTokens5m else 0
    cacheCreation1h := if hasCreation ∧ separate then summary.cacheCreationTokens1h else 0
    image := summary.imageTokens
    completion := summary.completionTokens }

/-! ### Claude usages -/

/-- The counts are those of a real report: none is negative, each is a machine integer. -/
structure ClaudeUsage.Counts (u : ClaudeUsage) : Prop where
  input : 0 ≤ u.inputTokens ∧ IsInt64 u.inputTokens
  read : 0 ≤ u.cacheReadInputTokens ∧ IsInt64 u.cacheReadInputTokens
  total : 0 ≤ u.cacheCreationInputTokens ∧ IsInt64 u.cacheCreationInputTokens
  split5m : 0 ≤ u.split5m ∧ IsInt64 u.split5m
  split1h : 0 ≤ u.split1h ∧ IsInt64 u.split1h

/-- The cache-write tokens of a report. -/
def ClaudeUsage.cacheWrites (u : ClaudeUsage) : Int :=
  max u.cacheCreationInputTokens (u.split5m + u.split1h)

/-- Tiered and ratio billing see the cache-write tokens of the report. -/
structure SameCacheWrites (u : ClaudeUsage) (params : TokenParams)
    (charge : TextQuotaCharge) : Prop where
  tiered : params.cc + params.cc1h = charge.cacheWrites
  charged : charge.cacheWrites = u.cacheWrites
  len : params.len = params.p + params.cr + charge.cacheWrites

variable {total : Int}

section Claude

variable {ctx : TextQuotaContext} {b : BillingUsage} {u : ClaudeUsage}

theorem tieredParams_p (usedVars : UsedVars) (hu : u.Counts) :
    (buildTieredTokenParams (usageFromClaudeBillingUsage b u).toUsageCounts true usedVars).p =
      float64 u.inputTokens := by
  show max (float64 u.inputTokens) 0 = _
  exact Int.max_eq_left (float64_nonneg hu.input.1)

/-- Ratio billing charges the split, and the rest of the total at the plain ratio. -/
theorem cacheWrites_textQuotaCharge (hu : u.Counts)
    (h : ctx.cacheCreationTokens (usageFromClaudeBillingUsage b u).toUsageCounts = total) :
    (textQuotaCharge ctx (usageFromClaudeBillingUsage b u).toUsageCounts).cacheWrites =
      max (wrap64 (wrap64 (total - u.split5m) - u.split1h)) 0 + u.split5m + u.split1h := by
  have h₅ := hu.split5m.1
  have h₁ := hu.split1h.1
  have hcharge : (textQuotaCharge ctx (usageFromClaudeBillingUsage b u).toUsageCounts).cacheWrites =
      if total ≠ 0 ∨ 0 < u.split5m ∨ 0 < u.split1h then
        max (wrap64 (wrap64 (total - u.split5m) - u.split1h)) 0 + u.split5m + u.split1h
      else 0 := by
    subst h
    have hclaude : usageSemanticFromUsage ctx (usageFromClaudeBillingUsage b u).toUsageCounts =
        "anthropic" := rfl
    simp only [TextQuotaCharge.cacheWrites, textQuotaCharge, calculateTextQuotaSummary, hclaude,
      decide_true, Bool.true_or, if_true, and_true]
    -- the charge asks for any of the three counts
    split_ifs with hsome hnone hnone
    · rfl
    · exact absurd hsome hnone
    · exact absurd hnone hsome
    · rfl
  rw [hcharge]
  split_ifs with hsome
  · rfl
  · have h₀ : total = 0 ∧ u.split5m = 0 ∧ u.split1h = 0 := by omega
    rw [h₀.1, h₀.2.1, h₀.2.2]
    rfl

/-- The charge, if the subtraction of the split does not overflow. -/
theorem cacheWrites_eq_max (hu : u.Counts) (h₀ : 0 ≤ total) (hi : IsInt64 total) :
    max (wrap64 (wrap64 (total - u.split5m) - u.split1h)) 0 + u.split5m + u.split1h =
      if u.split5m + u.split1h ≤ total + 2 ^ 63 then max total (u.split5m + u.split1h)
      else total + 2 ^ 64 := by
  obtain ⟨-, -, -, ⟨h₅, hi₅⟩, ⟨h₁, hi₁⟩⟩ := hu
  unfold IsInt64 at hi hi₅ hi₁
  have hfirst : wrap64 (total - u.split5m) = total - u.split5m := by
    apply wrap64_eq_self
    unfold IsInt64
    omega
  rw [hfirst]
  unfold wrap64
  split_ifs with hfit
  · omega
  · omega

/-- The split, as floats, makes up the cache writes of the report; a guess of ratio
billing stays within them; and the counts are small enough for the arithmetic. -/
structure SplitCovers (ctx : TextQuotaContext) (b : BillingUsage) (u : ClaudeUsage) : Prop where
  split : float64 u.split5m + float64 u.split1h = u.cacheWrites
  guess : ctx.guesses (usageFromClaudeBillingUsage b u).toUsageCounts = true →
    ctx.openRouterCacheCreateTokens ≤ u.split5m + u.split1h
  noOverflow : u.split5m + u.split1h ≤
    ctx.cacheCreationTokens (usageFromClaudeBillingUsage b u).toUsageCounts + 2 ^ 63
  len : float64 (float64 (float64 (float64 u.inputTokens + float64 u.cacheReadInputTokens) +
      float64 u.split5m) + float64 u.split1h) =
    float64 u.inputTokens + float64 u.cacheReadInputTokens + u.cacheWrites

/-- Every count, and all of them together, are exact as floats. -/
def ClaudeUsage.Exact (u : ClaudeUsage) : Prop :=
  u.inputTokens + u.cacheReadInputTokens + u.cacheWrites ≤ 2 ^ 53

theorem cacheCreationTokensTotal_claude (hu : u.Counts) :
    (usageFromClaudeBillingUsage b u).promptTokensDetails.cacheCreationTokensTotal =
      u.cacheCreationInputTokens := by
  have h₀ := hu.total.1
  show max (max u.cacheCreationInputTokens 0) 0 = _
  omega

/-- A guess is made only where the report has no total, and it is a machine integer. -/
theorem guesses_total (hu : u.Counts)
    (h : ctx.guesses (usageFromClaudeBillingUsage b u).toUsageCounts = true) :
    u.cacheCreationInputTokens = 0 ∧ 0 ≤ ctx.openRouterCacheCreateTokens ∧
      IsInt64 ctx.openRouterCacheCreateTokens := by
  simp only [TextQuotaContext.guesses, Bool.and_eq_true, decide_eq_true_eq,
    cacheCreationTokensTotal_claude hu] at h
  obtain ⟨⟨⟨⟨⟨-, htotal⟩, -⟩, -⟩, hnonneg⟩, hfit⟩ := h
  refine ⟨htotal, hnonneg, ?_⟩
  have hword := isInt64_wrap64 (u.inputTokens - u.cacheReadInputTokens)
  have hfit : ctx.openRouterCacheCreateTokens ≤ wrap64 (u.inputTokens - u.cacheReadInputTokens) :=
    hfit
  unfold IsInt64 at hword ⊢
  omega

/-- The total that ratio billing works with: a guess, or the one of the report. -/
theorem cacheCreationTokens_claude (ctx : TextQuotaContext) (b : BillingUsage) (hu : u.Counts) :
    (ctx.guesses (usageFromClaudeBillingUsage b u).toUsageCounts = true ∧
      u.cacheCreationInputTokens = 0 ∧
      ctx.cacheCreationTokens (usageFromClaudeBillingUsage b u).toUsageCounts =
        ctx.openRouterCacheCreateTokens) ∨
    (ctx.guesses (usageFromClaudeBillingUsage b u).toUsageCounts = false ∧
      ctx.cacheCreationTokens (usageFromClaudeBillingUsage b u).toUsageCounts =
        u.cacheCreationInputTokens) := by
  unfold TextQuotaContext.cacheCreationTokens
  by_cases hg : ctx.guesses (usageFromClaudeBillingUsage b u).toUsageCounts = true
  · exact .inl ⟨hg, (guesses_total hu hg).1, if_pos hg⟩
  · refine .inr ⟨Bool.eq_false_iff.mpr hg, ?_⟩
    rw [if_neg hg, cacheCreationTokensTotal_claude hu]

theorem cacheCreationTokens_isInt64 (ctx : TextQuotaContext) (b : BillingUsage) (hu : u.Counts) :
    0 ≤ ctx.cacheCreationTokens (usageFromClaudeBillingUsage b u).toUsageCounts ∧
      IsInt64 (ctx.cacheCreationTokens (usageFromClaudeBillingUsage b u).toUsageCounts) := by
  rcases cacheCreationTokens_claude ctx b hu with ⟨hg, -, h⟩ | ⟨-, h⟩
  · rw [h]
    exact (guesses_total hu hg).2
  · rw [h]
    exact hu.total

theorem sameCacheWrites_iff (usedVars : UsedVars) (hu : u.Counts) : SameCacheWrites u
      (buildTieredTokenParams (usageFromClaudeBillingUsage b u).toUsageCounts true usedVars)
      (textQuotaCharge ctx (usageFromClaudeBillingUsage b u).toUsageCounts) ↔
    SplitCovers ctx b u := by
  obtain ⟨hnonneg, hword⟩ := cacheCreationTokens_isInt64 ctx b hu
  have hwrites : u.cacheWrites = max u.cacheCreationInputTokens (u.split5m + u.split1h) := rfl
  have hcharge := (cacheWrites_textQuotaCharge hu (Eq.refl (ctx.cacheCreationTokens
    (usageFromClaudeBillingUsage b u).toUsageCounts))).trans (cacheWrites_eq_max hu hnonneg hword)
  have hguessed := cacheCreationTokens_claude ctx b hu
  have hp := tieredParams_p (b := b) usedVars hu
  obtain ⟨-, -, ⟨htot, hti⟩, ⟨h₅, hi₅⟩, ⟨h₁, hi₁⟩⟩ := hu
  unfold IsInt64 at hti hi₅ hi₁ hword
  constructor
  · rintro ⟨htiered, hcharged, hlen⟩
    -- a split beyond the total by more than 2 ^ 63 would wrap around
    have hover : u.split5m + u.split1h ≤
        ctx.cacheCreationTokens (usageFromClaudeBillingUsage b u).toUsageCounts + 2 ^ 63 := by
      by_contra hover
      rw [hcharge, if_neg hover] at hcharged
      omega
    refine ⟨htiered.trans hcharged, fun hg => ?_, hover, ?_⟩
    · rw [hcharge, if_pos hover] at hcharged
      rcases hguessed with ⟨-, hzero, hT⟩ | ⟨hn, -⟩
      · omega
      · rw [hg] at hn
        cases hn
    · rw [hp, hcharged] at hlen
      exact hlen
  · rintro ⟨hsplit, hguess, hover, hlen⟩
    have hcharged :
        (textQuotaCharge ctx (usageFromClaudeBillingUsage b u).toUsageCounts).cacheWrites =
        u.cacheWrites := by
      rw [hcharge, if_pos hover]
      -- a guess of the total leaves the split as it is
      rcases hguessed with ⟨hg, hzero, hT⟩ | ⟨-, hT⟩
      · have := hguess hg
        omega
      · rw [hT, hwrites]
    refine ⟨hsplit.trans hcharged.symm, hcharged, ?_⟩
    rw [hp, hcharged]
    exact hlen

theorem splitCovers_iff (hu : u.Counts) (he : u.Exact) :
    SplitCovers ctx b u ↔ u.cacheCreationInputTokens ≤ u.split5m + u.split1h ∧
      (ctx.guesses (usageFromClaudeBillingUsage b u).toUsageCounts = true →
        ctx.openRouterCacheCreateTokens ≤ u.split5m + u.split1h) := by
  have hwrites : u.cacheWrites = max u.cacheCreationInputTokens (u.split5m + u.split1h) := rfl
  have hnonneg := (cacheCreationTokens_isInt64 ctx b hu).1
  have hin := hu.input.1
  have hrd := hu.read.1
  have h₅ := hu.split5m.1
  have h₁ := hu.split1h.1
  unfold ClaudeUsage.Exact at he
  have hf₅ : float64 u.split5m = u.split5m := float64_eq_self h₅ (by omega)
  have hf₁ : float64 u.split1h = u.split1h := float64_eq_self h₁ (by omega)
  have hfin : float64 u.inputTokens = u.inputTokens := float64_eq_self hin (by omega)
  have hfrd : float64 u.cacheReadInputTokens = u.cacheReadInputTokens :=
    float64_eq_self hrd (by omega)
  constructor
  · intro h
    have hsplit := h.split
    rw [hf₅, hf₁] at hsplit
    exact ⟨by omega, h.guess⟩
  · rintro ⟨hle, hguess⟩
    refine ⟨by rw [hf₅, hf₁]; omega, hguess, by omega, ?_⟩
    -- no partial sum of the length is rounded
    have hsum₁ := float64_eq_self (x := u.inputTokens + u.cacheReadInputTokens) (by omega)
      (by omega)
    have hsum₂ := float64_eq_self (x := u.inputTokens + u.cacheReadInputTokens + u.split5m)
      (by omega) (by omega)
    have hsum₃ := float64_eq_self
      (x := u.inputTokens + u.cacheReadInputTokens + u.split5m + u.split1h) (by omega) (by omega)
    rw [hfin, hfrd, hf₅, hf₁, hsum₁, hsum₂, hsum₃]
    omega

end Claude

/-- The two billings see the same cache-write tokens of a Claude usage exactly if its
split covers its total. -/
theorem cache_writes_agree_iff (ctx : TextQuotaContext) (usedVars : UsedVars) (usage : Usage)
    (b : BillingUsage) (u : ClaudeUsage) (hb : usage.billingUsage = some b) (hclaude : b.IsClaude u)
    (hu : u.Counts) :
    let billed := (effectiveBillingUsage usage).toUsageCounts
    let isClaude := (calculateTextQuotaSummary ctx billed).isClaudeUsageSemantic
    (SameCacheWrites u (buildTieredTokenParams billed isClaude usedVars)
      (textQuotaCharge ctx billed) ↔ SplitCovers ctx b u) ∧
    (u.Exact → (SplitCovers ctx b u ↔ u.cacheCreationInputTokens ≤ u.split5m + u.split1h ∧
      (ctx.guesses billed = true → ctx.openRouterCacheCreateTokens ≤ u.split5m + u.split1h))) := by
  rw [effectiveBillingUsage_claude hb hclaude]
  exact ⟨sameCacheWrites_iff usedVars hu, splitCovers_iff hu⟩

/-- A request that wrote 1000 tokens to the cache, 600 of them for an hour. -/
def splitReport : ClaudeUsage where
  inputTokens := 20
  cacheCreationInputTokens := 1000
  outputTokens := 5
  cacheCreation := some { ephemeral5mInputTokens := 400, ephemeral1hInputTokens := 600 }

theorem cache_writes_agree_split :
    SameCacheWrites splitReport (buildTieredTokenParams (effectiveBillingUsage
        { billingUsage := some (claudeMessagesBillingUsage splitReport) }).toUsageCounts true {})
      (textQuotaCharge {} (effectiveBillingUsage
        { billingUsage := some (claudeMessagesBillingUsage splitReport) }).toUsageCounts) := by
  have hu : splitReport.Counts := ⟨by decide, by decide, by decide, by decide, by decide⟩
  obtain ⟨hiff, hexact⟩ := cache_writes_agree_iff {} {}
    { billingUsage := some (claudeMessagesBillingUsage splitReport) } _ splitReport rfl
    (claudeMessagesBillingUsage_isClaude splitReport) hu
  have hsmall : splitReport.Exact := by
    unfold ClaudeUsage.Exact
    decide +kernel
  exact hiff.mpr ((hexact hsmall).mpr (by decide +kernel))

/-- A report with a total and no split: tiered billing sees no cache write at all. -/
def unsplitReport : ClaudeUsage where
  inputTokens := 20
  cacheCreationInputTokens := 1000
  outputTokens := 5

theorem unsplit_cache_write : let billed := (effectiveBillingUsage
      { billingUsage := some (claudeMessagesBillingUsage unsplitReport) }).toUsageCounts
    unsplitReport.Counts ∧
    (buildTieredTokenParams billed true {}).cc + (buildTieredTokenParams billed true {}).cc1h = 0 ∧
    (textQuotaCharge {} billed).cacheWrites = 1000 ∧
    ¬ SameCacheWrites unsplitReport (buildTieredTokenParams billed true {})
        (textQuotaCharge {} billed) := by
  refine ⟨⟨by decide, by decide, by decide, by decide, by decide⟩,
    by decide +kernel, by decide +kernel, fun h => ?_⟩
  exact absurd h.tiered (by decide +kernel)

/-! ### OpenAI usages -/

/-- The sum of those counts that are priced by themselves. -/
def usedSum (parts : List (Bool × Int)) : Int :=
  parts.foldr (fun part sum => (if part.1 then part.2 else 0) + sum) 0

namespace TokenParams

variable (params : TokenParams)

variable (usedVars : UsedVars)

def inputParts : List (Bool × Int) :=
  [(usedVars.cr, params.cr), (usedVars.cc, params.cc), (usedVars.cc1h, params.cc1h),
    (usedVars.img, params.img), (usedVars.ai, params.ai)]

def outputParts : List (Bool × Int) :=
  [(usedVars.imgO, params.imgO), (usedVars.ao, params.ao)]

/-- All variables. -/
def values : List Int :=
  [params.p, params.c, params.len, params.cr, params.cc, params.cc1h, params.img, params.imgO,
    params.ai, params.ao]

end TokenParams

/-- The counts that tiered billing reads are not negative. -/
def UsageCounts.Nonneg (usage : UsageCounts) : Prop :=
  ∀ count ∈ [usage.promptTokens, usage.completionTokens, usage.promptTokensDetails.cachedTokens,
    usage.promptTokensDetails.imageTokens, usage.promptTokensDetails.audioTokens,
    usage.completionTokenDetails.imageTokens, usage.completionTokenDetails.audioTokens], 0 ≤ count
deriving Decidable

/-- A total is split into what is priced by itself and the rest. -/
def Splits (total rest : Int) (parts : List (Bool × Int)) : Prop :=
  rest + usedSum parts = max total (usedSum parts)

section OpenAI

variable {parts : List (Bool × Int)}

variable (h : ∀ part ∈ parts, 0 ≤ part.2)

include h

theorem usedSum_nonneg : 0 ≤ usedSum parts := by
  induction parts with
  | nil => exact Int.le_refl 0
  | cons part parts ih =>
    obtain ⟨hpart, hrest⟩ := forall_mem_cons.mp h
    have := ih hrest
    show 0 ≤ (if part.1 then part.2 else 0) + usedSum parts
    split <;> omega

/-- No difference is rounded before it is below zero, where the clamp takes it. -/
theorem subtract_all (htotal : total ≤ 2 ^ 53) :
    max (parts.foldl (fun total part => subtractUsed part.1 part.2 total) total) 0 =
      max (total - usedSum parts) 0 := by
  induction parts generalizing total with
  | nil => exact congrArg (max · 0) (Int.sub_zero total).symm
  | cons part parts ih =>
    obtain ⟨hpart, hrest⟩ := forall_mem_cons.mp h
    have hnonneg := usedSum_nonneg hrest
    have hcons : usedSum (part :: parts) = (if part.1 then part.2 else 0) + usedSum parts := rfl
    rw [hcons, foldl_cons, subtractUsed]
    by_cases hused : part.1 = true
    · simp only [if_pos hused]
      rcases Int.lt_or_le (total - part.2) 0 with hneg | hpos
      · -- the rest is gone, and stays so however the difference is rounded
        have hle : float64 (total - part.2) ≤ 0 := float64_nonpos hneg
        rw [ih hrest (by omega)]
        omega
      · rw [float64_eq_self hpos (by omega), ih hrest (by omega)]
        omega
    · simp only [if_neg hused]
      rw [ih hrest htotal]
      omega

/-- What is left of a total that is a float. -/
theorem splits_clamped (h₀ : 0 ≤ total) (htotal : total ≤ 2 ^ 53) :
    Splits total
      (max (parts.foldl (fun total part => subtractUsed part.1 part.2 total) (float64 total)) 0)
      parts := by
  rw [float64_eq_self h₀ htotal, Splits, subtract_all h htotal]
  omega

end OpenAI

/-- **The tokens of an OpenAI usage are split without loss**, on each side on which the total needs
no more than 53 bits; as long as the counts priced by themselves fit in the prompt, the number of
priced tokens is the prompt's, whichever they are. -/
theorem tokens_split_without_loss (usage : UsageCounts) (usedVars : UsedVars)
    (hsemantic : usage.usageSemantic ≠ "anthropic") (hnonneg : usage.Nonneg) :
    let params := buildTieredTokenParams usage false usedVars
    let input := usedSum (params.inputParts usedVars)
    (∀ value ∈ params.values, 0 ≤ value) ∧
      (usage.promptTokens ≤ 2 ^ 53 → params.len = usage.promptTokens ∧
        Splits usage.promptTokens params.p (params.inputParts usedVars) ∧
        (input ≤ usage.promptTokens → params.p + input = usage.promptTokens)) ∧
      (usage.completionTokens ≤ 2 ^ 53 →
        Splits usage.completionTokens params.c (params.outputParts usedVars)) := by
  intro params input
  simp only [UsageCounts.Nonneg, forall_mem_cons] at hnonneg
  obtain ⟨hprompt, hcompletion, hcr, himg, hai, himgO, hao, -⟩ := hnonneg
  have hcc : 0 ≤ usage.promptTokensDetails.cacheCreationTokensTotal := Int.le_max_right _ _
  -- no part of a count is negative
  have hparts : ∀ part ∈ params.inputParts usedVars, 0 ≤ part.2 := by
    simp only [params, TokenParams.inputParts, buildTieredTokenParams, if_neg hsemantic,
      forall_mem_cons]
    exact ⟨float64_nonneg hcr, float64_nonneg hcc, Int.le_refl 0, float64_nonneg himg,
      float64_nonneg hai, nofun⟩
  have hparts' : ∀ part ∈ params.outputParts usedVars, 0 ≤ part.2 := by
    simp only [params, TokenParams.outputParts, buildTieredTokenParams, forall_mem_cons]
    exact ⟨float64_nonneg himgO, float64_nonneg hao, nofun⟩
  refine ⟨?_, fun hp => ?_, fun hc => splits_clamped hparts' hcompletion hc⟩
  · simp only [TokenParams.inputParts, TokenParams.outputParts, forall_mem_cons] at hparts hparts'
    obtain ⟨h₁, h₂, h₃, h₄, h₅, -⟩ := hparts
    obtain ⟨h₆, h₇, -⟩ := hparts'
    simp only [TokenParams.values, forall_mem_cons]
    exact ⟨Int.le_max_right _ _, Int.le_max_right _ _, float64_nonneg hprompt, h₁, h₂, h₃, h₄, h₆,
      h₅, h₇, nofun⟩
  · have hsplit : Splits usage.promptTokens params.p (params.inputParts usedVars) :=
      splits_clamped hparts hprompt hp
    exact ⟨float64_eq_self hprompt hp, hsplit, fun hfit => hsplit.trans (Int.max_eq_left hfit)⟩

/-- Cached and written prefixes, an image and audio, all priced by themselves. -/
def cachedUsage : UsageCounts where
  promptTokens := 100
  completionTokens := 40
  promptTokensDetails := { cachedTokens := 60, cacheWriteTokens := 50, imageTokens := 7 }
  completionTokenDetails := { audioTokens := 15 }

theorem tokens_split_cached : cachedUsage.Nonneg ∧
    (let params := buildTieredTokenParams cachedUsage false { cr := true, cc := true, ao := true }
    Splits 100 params.p [(true, 60), (true, 50), (false, 0), (false, 7), (false, 0)] ∧
      Splits 40 params.c [(false, 0), (true, 15)]) := by
  have h :=
    tokens_split_without_loss cachedUsage { cr := true, cc := true, ao := true } (by decide)
    (by decide)
  exact ⟨by decide, (h.2.1 (by decide)).2.1, h.2.2 (by decide)⟩

/-- One token above `2^53`: the length is a float, and that token is lost. -/
theorem large_prompt_rounded : let usage : UsageCounts := { promptTokens := 9007199254740993 }
    let params := buildTieredTokenParams usage false {}
    usage.Nonneg ∧ params.len = 9007199254740992 ∧
        ¬ Splits usage.promptTokens params.p (params.inputParts {}) := by
  refine ⟨by decide, by decide +kernel, ?_⟩
  unfold Splits
  decide +kernel
