/-
The price at which a task is settled by its tokens.

The task is priced with the ratio that the group of its user has in the group it uses.  The
settlement reads the settings again, but with the group of the task in both places.  Ratios and
their products are floats.

* `submit`, `recalculateTaskQuotaByTokens` — what is recorded, and what is settled;
* `settled_as_submitted_iff` — all settlements are at the price of the submission exactly if the
  group has this ratio for itself as well;
* `special_ratio_lost` — a user with a ratio of their own.
-/
import AcuGateway.Lib.Float64
import AcuGateway.TextQuota

namespace TaskSettlement

/-- A float of the settings. -/
abbrev Ratio := { q : ℚ // IsFloat64 q }

def unitRatio : Ratio := ⟨1, by decide +kernel⟩

/-- `groupRatioMap` and `groupGroupRatioMap`. -/
structure GroupSettings where
  groupRatio : String → Option Ratio
  groupGroupRatio : String → String → Option Ratio

variable (settings : GroupSettings) (userGroup usingGroup : String)

/-- The special ratio of a group in another one, or the ratio of that one. -/
def GroupSettings.ratio : Ratio :=
  (settings.groupGroupRatio userGroup usingGroup).getD
    ((settings.groupRatio usingGroup).getD unitRatio)

/-- A task with its billing context; the other ratios are in the order in which the map is
iterated. -/
structure BilledTask where
  group : String
  groupRatio : Ratio
  modelRatio : Ratio
  otherRatios : List Ratio

/-- `HandleGroupRatio` and the record of the task. -/
def submit (autoGroup : Option String) (modelRatio : Ratio) (otherRatios : List Ratio) :
    BilledTask :=
  let usingGroup := autoGroup.getD usingGroup
  ⟨usingGroup, settings.ratio userGroup usingGroup, modelRatio, otherRatios⟩

/-- The products from the left, each rounded to a float. -/
def products (x : ℚ) (factors : List ℚ) : List ℚ :=
  factors.scanl (fun x y => Float64.round (x * y)) x

def product (x : ℚ) (factors : List ℚ) : ℚ := factors.foldl (fun x y => Float64.round (x * y)) x

/-- No product on the way overflows. -/
def StaysFinite (x : ℚ) (factors : List ℚ) : Prop := ∀ y ∈ products x factors, |y| < 2 ^ 1024

def validOtherRatios (otherRatios : List Ratio) : List ℚ :=
  (otherRatios.map Subtype.val).filter fun ratio => 0 < ratio ∧ ratio ≠ 1

def otherRatioMultiplier (otherRatios : List Ratio) : ℚ := product 1 (validOtherRatios otherRatios)

/-- The part before the point. -/
def trunc (x : ℚ) : Int := if 0 ≤ x then x.floor else -(-x).floor

variable (task : BilledTask)

/-- The group of a task, or that of its user now. -/
def BilledTask.billedGroup (userGroup : String) : String :=
  if task.group = "" then userGroup else task.group

/-- The factors of the quota. -/
def BilledTask.factors (modelRatio groupRatio : Ratio) : List ℚ :=
  [modelRatio.val, groupRatio.val, otherRatioMultiplier task.otherRatios]

/-- The quota, if there is one to be settled.  `modelRatio` is the setting of the model, `userGroup`
the group of the user now, or empty. -/
def recalculateTaskQuotaByTokens (modelRatio : Option Ratio) (userGroup : String)
    (task : BilledTask) (totalTokens : Int) : Option Int :=
  if totalTokens ≤ 0 then none
  else
    match modelRatio with
    | none => none
    | some modelRatio =>
      let group := task.billedGroup userGroup
      if modelRatio.val ≤ 0 ∨ group = "" then none
      else some (saturateQuota (trunc
        (product (float64 totalTokens) (task.factors modelRatio (settings.ratio group group)))))

/-- What the tokens cost at the recorded price. -/
def BilledTask.price (totalTokens : Int) : ℚ :=
  product (float64 totalTokens) (task.factors task.modelRatio task.groupRatio)

/-- Neither the price nor what is settled overflows, and the price is in the range of quotas. -/
structure InRange (task : BilledTask) (totalTokens : Int) : Prop where
  others : StaysFinite 1 (validOtherRatios task.otherRatios)
  price : StaysFinite (float64 totalTokens) (task.factors task.modelRatio task.groupRatio)
  settled : StaysFinite (float64 totalTokens)
    (task.factors task.modelRatio (settings.ratio task.group task.group))
  quota : saturateQuota (trunc (task.price totalTokens)) = trunc (task.price totalTokens)

/-- Whatever the ratios of the model and the number of tokens are: the quota is the price. -/
def AsSubmitted (userGroup : String) : Prop :=
  ∀ modelRatio otherRatios totalTokens, 0 < modelRatio.val → 0 < totalTokens →
    InRange settings { task with modelRatio, otherRatios } totalTokens →
    recalculateTaskQuotaByTokens settings (some modelRatio) userGroup
      { task with modelRatio, otherRatios }
      totalTokens = some (trunc ({ task with modelRatio, otherRatios }.price totalTokens))

/-! ### Telling ratios apart -/

theorem trunc_lt {x : ℚ} {b : ℤ} (hb : 1 ≤ b) (h : x < b) : trunc x < b := by
  unfold trunc
  split_ifs with hx
  · exact Int.floor_lt.mpr h
  · have : 0 ≤ ⌊-x⌋ := Int.floor_nonneg.mpr (by linarith)
    show -⌊-x⌋ < b
    omega

theorem le_trunc {x : ℚ} {b : ℤ} (hb : 1 ≤ b) (h : b ≤ x) : b ≤ trunc x := by
  have hx : 0 ≤ x := le_trans (mod_cast by omega) h
  rw [trunc, if_pos hx]
  exact Int.le_floor.mpr h

theorem trunc_neg (x : ℚ) : trunc (-x) = -trunc x := by
  rcases lt_trichotomy x 0 with hneg | rfl | hpos
  · rw [trunc, if_pos (by linarith), trunc, if_neg (by linarith), neg_neg]
  · rfl
  · rw [trunc, if_neg (by linarith), trunc, if_pos hpos.le, neg_neg]

/-- Prices between -100 and 100 are in the range of quotas. -/
theorem saturateQuota_trunc {x : ℚ} (h : |x| ≤ 100) : saturateQuota (trunc x) = trunc x := by
  have hhigh : ∀ {x : ℚ}, x ≤ 100 → trunc x < 101 := fun hx =>
    trunc_lt (by decide) (lt_of_le_of_lt hx (by norm_num))
  have hlow := hhigh (neg_le.mp (abs_le.mp h).1)
  have := hhigh (abs_le.mp h).2
  rw [trunc_neg] at hlow
  unfold saturateQuota minQuota maxQuota
  omega

/-- A model ratio and another ratio that tell two group ratios apart. -/
structure TellApart (m o x y : ℚ) : Prop where
  finite : |Float64.round (m * x)| < 2 ^ 1024 ∧ |Float64.round (m * y)| < 2 ^ 1024
  small : |Float64.round (Float64.round (m * x) * o)| ≤ 100 ∧
    |Float64.round (Float64.round (m * y) * o)| ≤ 100
  ne : trunc (Float64.round (Float64.round (m * x) * o)) ≠
    trunc (Float64.round (Float64.round (m * y) * o))

theorem TellApart.symm {m o x y : ℚ} (h : TellApart m o x y) : TellApart m o y x :=
  ⟨h.finite.symm, h.small.symm, h.ne.symm⟩

theorem TellApart.neg {m o x y : ℚ} (h : TellApart m o (-x) (-y)) : TellApart m o x y := by
  obtain ⟨hfinite, hsmall, hne⟩ := h
  simp only [mul_neg, neg_mul, Float64.round_neg, abs_neg, trunc_neg, ne_eq, neg_inj]
    at hfinite hsmall hne
  exact ⟨hfinite, hsmall, hne⟩

theorem exists_tellApart {x y : ℚ} (hx : IsFloat64 x) (hy : IsFloat64 y) (h : x ≠ y) :
    ∃ m o, IsFloat64 m ∧ IsFloat64 o ∧ 0 < m ∧ 0 < o ∧ TellApart m o x y := by
  wlog hle : |x| ≤ |y| generalizing x y
  · obtain ⟨m, o, hm, ho, hm₀, ho₀, hapart⟩ := this hy hx (Ne.symm h) (le_of_not_ge hle)
    exact ⟨m, o, hm, ho, hm₀, ho₀, hapart.symm⟩
  wlog hpos : 0 < y generalizing x y
  · -- both signs the other way round
    have hy₀ : y ≠ 0 := by
      rintro rfl
      exact h (abs_nonpos_iff.mp (hle.trans_eq abs_zero))
    obtain ⟨m, o, hm, ho, hm₀, ho₀, hapart⟩ := this hx.neg hy.neg (fun heq => h (neg_injective heq))
      (by rwa [abs_neg, abs_neg]) (neg_pos.mpr (lt_of_le_of_ne (not_lt.mp hpos) hy₀))
    exact ⟨m, o, hm, ho, hm₀, ho₀, hapart.neg⟩
  rw [abs_of_pos hpos] at hle
  obtain ⟨hlow, hhigh⟩ := abs_le.mp hle
  obtain ⟨m, o, b, hm, ho, hm₀, ho₀, hb, hfx, hfy, hleast, hbelow, habove, hmost⟩ :=
    hx.told_apart hy hpos (lt_of_le_of_ne hhigh h) hlow
  have hb' : (1 : ℚ) ≤ b := mod_cast hb
  refine ⟨m, o, hm, ho, hm₀, ho₀, ⟨hfx, hfy⟩, ⟨abs_le.mpr ⟨hleast, ?_⟩, abs_le.mpr ⟨?_, hmost⟩⟩, ?_⟩
  · linarith
  · linarith
  · exact (trunc_lt hb hbelow |>.trans_le (le_trunc hb habove)).ne

theorem otherRatioMultiplier_single (o : Ratio) (h : 0 < o.val) :
    otherRatioMultiplier [o] = o.val ∧ StaysFinite 1 (validOtherRatios [o]) := by
  have hone : |(1 : ℚ)| < 2 ^ 1024 := unitRatio.property.2
  by_cases hunit : o.val = 1
  · simpa [otherRatioMultiplier, validOtherRatios, StaysFinite, products, product, h, hunit]
      using hone
  · have hround : Float64.round (1 * o.val) = o.val := by rw [one_mul, o.property.1]
    simpa [otherRatioMultiplier, validOtherRatios, StaysFinite, products, product, h, hunit,
      o.property.1] using
      ⟨hone, o.property.2⟩

end TaskSettlement

open TaskSettlement

/-- **A task is settled at the price it was submitted at**, over all settings and all tasks of a
group, exactly if its group has for itself the ratio that was recorded. -/
theorem settled_as_submitted_iff (settings : GroupSettings) (task : BilledTask) (userGroup : String)
    (hgroup : task.group ≠ "") :
    AsSubmitted settings task userGroup ↔
      settings.ratio task.group task.group = task.groupRatio := by
  have hquota : ∀ modelRatio otherRatios totalTokens, 0 < modelRatio.val → 0 < totalTokens →
      recalculateTaskQuotaByTokens settings (some modelRatio) userGroup
        { task with modelRatio, otherRatios }
        totalTokens = some (saturateQuota (trunc (product (float64 totalTokens)
          ({ task with modelRatio, otherRatios }.factors modelRatio
            (settings.ratio task.group task.group))))) := by
    intro modelRatio otherRatios totalTokens hratio htokens
    unfold recalculateTaskQuotaByTokens BilledTask.billedGroup
    dsimp only
    rw [if_neg (by omega), if_neg hgroup, if_neg (not_or.mpr ⟨not_le.mpr hratio, hgroup⟩)]
  constructor
  · intro h
    by_contra hne
    -- one token of a model whose ratio tells the two group ratios apart
    obtain ⟨m, o, hm, ho, hm₀, ho₀, hapart⟩ :=
      exists_tellApart (settings.ratio task.group task.group).property
      task.groupRatio.property (fun heq => hne (Subtype.ext heq))
    obtain ⟨hmult, hothers⟩ := otherRatioMultiplier_single ⟨o, ho⟩ ho₀
    have hfactors : ∀ ratio : Ratio,
        { task with modelRatio := ⟨m, hm⟩, otherRatios := [⟨o, ho⟩] }.factors ⟨m, hm⟩
        ratio = [m, ratio.val, o] := fun ratio => by simp [BilledTask.factors, hmult]
    have hone : float64 1 = 1 := by decide +kernel
    have hproduct : ∀ x : ℚ, product (float64 1) [m, x, o] =
        Float64.round (Float64.round (m * x) * o) :=
      fun x => by simp [product, hone, hm.1]
    have hfinite : ∀ x : ℚ, |Float64.round (m * x)| < 2 ^ 1024 →
        |Float64.round (Float64.round (m * x) * o)| ≤ 100 → StaysFinite (float64 1) [m, x, o] := by
      intro x hx hx'
      have hsmall : (100 : ℚ) < 2 ^ 1024 := by decide +kernel
      have hunit : |(1 : ℚ)| < 2 ^ 1024 := unitRatio.property.2
      simp only [StaysFinite, products, List.scanl_cons, List.scanl_nil, List.forall_mem_cons, hone,
        Int.cast_one, one_mul, hm.1]
      exact ⟨hunit, hm.2, hx, hx'.trans_lt hsmall, nofun⟩
    have hsettled := h ⟨m, hm⟩ [⟨o, ho⟩] 1 hm₀ (by decide) ⟨hothers, by
        rw [hfactors]
        exact hfinite _ hapart.finite.2 hapart.small.2, by
        rw [hfactors]
        exact hfinite _ hapart.finite.1 hapart.small.1, by
        rw [BilledTask.price, hfactors, hproduct]
        exact saturateQuota_trunc hapart.small.2⟩
    rw [hquota ⟨m, hm⟩ [⟨o, ho⟩] 1 hm₀ (by decide), BilledTask.price, hfactors, hfactors, hproduct,
      hproduct, saturateQuota_trunc hapart.small.1] at hsettled
    exact hapart.ne (Option.some.inj hsettled)
  · intro heq modelRatio otherRatios totalTokens hratio htokens hrange
    rw [hquota modelRatio otherRatios totalTokens hratio htokens, heq]
    exact congrArg some hrange.quota

/-- The group `vip` has half the price in the group `default`. -/
def vipSettings : GroupSettings where
  groupRatio _ := none
  groupGroupRatio userGroup usingGroup :=
    if userGroup = "vip" ∧ usingGroup = "default" then some ⟨1 / 2, by decide +kernel⟩ else none

theorem settled_as_submitted_default : vipSettings.ratio "default" "default" = unitRatio ∧
      AsSubmitted vipSettings (submit vipSettings "default" "default" none unitRatio [])
        "default" :=
  ⟨rfl, (settled_as_submitted_iff vipSettings _ "default" (by decide)).mpr rfl⟩

/-- A task of a user of `vip`: a thousand tokens at the ratio 1 are submitted for 500, and settled
at 1000. -/
theorem special_ratio_lost :
    trunc ((submit vipSettings "vip" "default" none unitRatio []).price 1000) = 500 ∧
      recalculateTaskQuotaByTokens vipSettings (some unitRatio) "vip"
        (submit vipSettings "vip" "default" none unitRatio []) 1000 = some 1000 := by
  decide +kernel
