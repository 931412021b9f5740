/-
The quota of a text request that is billed by ratios.

Prices and ratios are decimals, that is, rationals; products and sums are exact, and a quotient
is rounded to sixteen places.  The quota is the rounded sum, kept within the 32 bits of a
quota column.

* `calculateTextToolCallSurcharge` — the tool calls of the request, each at its own price;
* `textQuota` — the quota of `calculateTextQuotaSummary`;
* `textQuota_congr` — what it reads of the usage.
-/
import AcuGateway.TieredParams
import Mathlib.Data.Rat.Defs
import Mathlib.Data.List.Sort

/-! ### Decimals -/

/-- To the nearest integer, halves away from zero. -/
def roundAway (x : Rat) : Int := if 0 ≤ x then (x + 1 / 2).floor else -(-x + 1 / 2).floor

/-- The quotient of two decimals. -/
def decimalDiv (x y : Rat) : Rat := roundAway (x / y * 10000000000000000) / 10000000000000000

def maxQuota : Int := 2147483647

def minQuota : Int := -2147483648

/-- An integer as a quota. -/
def saturateQuota (value : Int) : Int := max minQuota (min value maxQuota)

def quotaFromDecimal (d : Rat) : Int := saturateQuota (roundAway d)

/-! ### Tool calls -/

structure ToolSurchargeItem where
  name : String
  count : Int
  price : Rat

/-- The tool calls of a request, and what they cost for its model.  A price that is no number is
0. -/
structure ToolCalls where
  builtInTools : List (String × Int) := []
  /-- a search-preview model, not on the Responses endpoint -/
  searchPreview : Bool := false
  claudeWebSearchRequests : Int := 0
  geminiGoogleSearchCall : Bool := false
  price : String → Rat := fun _ => 0

def collectToolSurchargeItem (price : String → Rat) (name : String) (count : Int) :
    List ToolSurchargeItem :=
  if 0 < count ∧ 0 < price name then [{ name, count, price := price name }] else []

/-- The items in the order of their names, and of their prices for one name. -/
def ToolSurchargeItem.before (a b : ToolSurchargeItem) : Bool :=
  if a.name = b.name then a.price ≤ b.price else a.name < b.name

/-- One more item at the end, joined to the last one if it is of its kind. -/
def mergeToolSurchargeItem (merged : List ToolSurchargeItem) (item : ToolSurchargeItem) :
    List ToolSurchargeItem :=
  match merged.getLast? with
  | some last =>
    if last.name = item.name ∧ last.price = item.price then
      merged.dropLast ++ [{ last with count := min (last.count + item.count) 9223372036854775807 }]
    else merged ++ [item]
  | none => [item]

def mergeToolSurchargeItems (items : List ToolSurchargeItem) : List ToolSurchargeItem :=
  (items.insertionSort (·.before ·)).foldl mergeToolSurchargeItem []

def ToolCalls.items (calls : ToolCalls) : List ToolSurchargeItem :=
  mergeToolSurchargeItems <|
    calls.builtInTools.flatMap (fun tool => collectToolSurchargeItem calls.price tool.1 tool.2) ++
    (if calls.searchPreview then collectToolSurchargeItem calls.price "web_search_preview" 1
      else []) ++
    collectToolSurchargeItem calls.price "web_search" calls.claudeWebSearchRequests ++
    (if calls.geminiGoogleSearchCall then collectToolSurchargeItem calls.price "google_search" 1
      else [])

def calculateTextToolCallSurcharge (calls : ToolCalls) (groupRatio quotaPerUnit : Rat) : Rat :=
  calls.items.foldl (fun surcharge item =>
    surcharge + decimalDiv (item.price * item.count) 1000 * groupRatio * quotaPerUnit) 0

/-! ### Ratios -/

structure PriceData where
  modelPrice : Rat := 0
  modelRatio : Rat := 0
  completionRatio : Rat := 0
  cacheRatio : Rat := 0
  cacheCreationRatio : Rat := 0
  cacheCreation5mRatio : Rat := 0
  cacheCreation1hRatio : Rat := 0
  imageRatio : Rat := 0
  /-- those that are positive and finite -/
  otherRatios : List Rat := []
  usePrice : Bool := false
  groupRatio : Rat := 1

def PriceData.applyOtherRatiosToDecimal (prices : PriceData) (value : Rat) : Rat :=
  prices.otherRatios.foldl (· * ·) value

/-- What the quota of a text request depends on, but for its usage. -/
structure TextRequest where
  prices : PriceData
  calls : ToolCalls := {}
  quotaPerUnit : Rat := 500000
  /-- the price of a million audio tokens of a Gemini model, or 0 -/
  audioInputPrice : Rat := 0
  claudeFormat : Bool := false
  openRouter : Bool := false
  customModelRatio : Bool := false
  openRouterCacheCreateTokens : Int := 0
  imageBillingFallback : Bool := false

variable (request : TextRequest)

namespace TextRequest

def context : TextQuotaContext where
  claudeFormat := request.claudeFormat
  openRouter := request.openRouter
  customSettings := request.prices.usePrice || request.customModelRatio
  cacheCreationRatioIsOne := request.prices.cacheCreationRatio = 1
  openRouterCacheCreateTokens := request.openRouterCacheCreateTokens
  audioPriced := 0 < request.audioInputPrice

def surcharge : Rat :=
  calculateTextToolCallSurcharge request.calls request.prices.groupRatio request.quotaPerUnit

def ratio : Rat := request.prices.modelRatio * request.prices.groupRatio

/-- All tokens but those of the answer, each at its ratio. -/
def promptQuota (charge : TextQuotaCharge) : Rat :=
  charge.base + charge.cached * request.prices.cacheRatio +
    charge.image * request.prices.imageRatio +
    (charge.cacheCreation * request.prices.cacheCreationRatio +
      charge.cacheCreation5m * request.prices.cacheCreation5mRatio +
      charge.cacheCreation1h * request.prices.cacheCreation1hRatio)

def audioInputQuota (audioTokens : Int) : Rat :=
  if audioTokens ≠ 0 ∧ 0 < request.audioInputPrice then
    decimalDiv request.audioInputPrice 1000000 * audioTokens * request.prices.groupRatio *
      request.quotaPerUnit
  else 0

def quotaCalculateDecimal (audioTokens : Int) (charge : TextQuotaCharge) : Rat :=
  if request.prices.usePrice then
    request.prices.applyOtherRatiosToDecimal
      (request.prices.modelPrice * request.quotaPerUnit * request.prices.groupRatio) +
        request.surcharge
  else
    let quota := request.prices.applyOtherRatiosToDecimal
      ((request.promptQuota charge + charge.completion * request.prices.completionRatio) *
        request.ratio +
        request.audioInputQuota audioTokens) + request.surcharge
    if request.ratio ≠ 0 ∧ quota ≤ 0 then 1 else quota

def hasBillableUsage (summary : TextQuotaSummary) : Bool :=
  0 < summary.totalTokens || request.imageBillingFallback || request.surcharge ≠ 0

end TextRequest

/-- The quota of `calculateTextQuotaSummary`. -/
def textQuota (usage : UsageCounts) : Int :=
  let summary := calculateTextQuotaSummary request.context usage
  let quota := quotaFromDecimal
    (request.quotaCalculateDecimal summary.audioTokens (textQuotaCharge request.context usage))
  if !request.hasBillableUsage summary then 0
  else if request.ratio ≠ 0 ∧ quota = 0 then 1
  else quota

/-- The quota depends on the usage through its counts, and through its place beside the prompt. -/
theorem textQuota_congr {request : TextRequest} {usage usage' : UsageCounts}
    (hsummary : calculateTextQuotaSummary request.context usage =
      calculateTextQuotaSummary request.context usage')
    (hlegacy : isLegacyClaudeDerivedOpenAIUsage request.context usage =
      isLegacyClaudeDerivedOpenAIUsage request.context usage') :
    textQuota request usage = textQuota request usage' := by
  have hcharge : textQuotaCharge request.context usage =
      textQuotaCharge request.context usage' := by
    rw [textQuotaCharge, textQuotaCharge, hsummary, hlegacy]
  rw [textQuota, textQuota, hsummary, hcharge]
