/-
Weighted draws, and levels of values.

`draw` walks through weighted entries and takes their weights off a number until it has fallen below
a bound.  `level` counts down the different values of a list, and stays at the lowest.

* `exists_random`, `pos_of_draw` — which entries can be drawn;
* `countP_draw`, `countP_first` — by how many numbers;
* `level_congr` — levels depend on the values only, not on how often or in which order they occur;
* `level_zero` — the first level is the maximum.
-/
import Mathlib.Data.List.Dedup
import Mathlib.Data.List.MinMax
import Mathlib.Data.List.Range
import Mathlib.Data.List.Sort
import Mathlib.Order.Defs.LinearOrder

open List

universe u v

namespace Draw

/-! ### Draws -/

variable {α : Type u} {bound : Int}

section Draws

variable {r : Int} {l : List (α × Int)} {a : α} {w : Int}

def total (l : List (α × Int)) : Int := l.foldr (fun entry sum => entry.2 + sum) 0

/-- The first entry that brings `r` below the bound. -/
def draw (bound : Int) : List (α × Int) → Int → Option α
  | [], _ => none
  | entry :: l, r => if r - entry.2 < bound then some entry.1 else draw bound l (r - entry.2)

theorem total_nonneg (hl : ∀ entry ∈ l, 0 ≤ entry.2) : 0 ≤ total l := by
  induction l with
  | nil => exact Int.le_refl 0
  | cons entry l ih =>
    obtain ⟨hentry, hrest⟩ := forall_mem_cons.mp hl
    have := ih hrest
    show 0 ≤ entry.2 + total l
    omega

theorem mem_of_draw (h : draw bound l r = some a) : ∃ w, (a, w) ∈ l := by
  induction l generalizing r with
  | nil => cases h
  | cons entry l ih =>
    rw [draw] at h
    split at h
    · cases h
      exact ⟨entry.2, mem_cons_self⟩
    · obtain ⟨w, hw⟩ := ih h
      exact ⟨w, mem_cons_of_mem _ hw⟩

/-- An entry without weight does not bring a number below 0. -/
theorem pos_of_draw (hr : 0 ≤ r) (h : draw 0 l r = some a) : ∃ w, (a, w) ∈ l ∧ 0 < w := by
  induction l generalizing r with
  | nil => cases h
  | cons entry l ih =>
    rw [draw] at h
    split at h
    · rename_i hlt
      cases h
      exact ⟨entry.2, mem_cons_self, by omega⟩
    · rename_i hge
      obtain ⟨w, hw, hpos⟩ := ih (by omega) h
      exact ⟨w, mem_cons_of_mem _ hw, hpos⟩

/-- The number that draws an entry is the weight before it and the bound. -/
theorem exists_draw (hbound : 0 ≤ bound) (hl : ∀ entry ∈ l, 0 ≤ entry.2) (hmem : (a, w) ∈ l)
    (hw : bound < w) :
    ∃ r, bound ≤ r ∧ r < total l ∧ draw bound l r = some a := by
  induction l with
  | nil => cases hmem
  | cons entry l ih =>
    obtain ⟨hentry, hrest⟩ := forall_mem_cons.mp hl
    have htotal : total (entry :: l) = entry.2 + total l := rfl
    -- a number in the share of this entry, or one that is passed on
    rcases mem_cons.mp hmem with rfl | hmem
    · have := total_nonneg hrest
      refine ⟨bound, Int.le_refl _, ?_, ?_⟩
      · rw [htotal]
        show bound < w + total l
        omega
      · rw [draw, if_pos]
        show bound - w < bound
        omega
    · obtain ⟨r, hle, hlt, hdraw⟩ := ih hrest hmem
      refine ⟨r + entry.2, by omega, by omega, ?_⟩
      rw [draw, if_neg (by omega)]
      rwa [Int.add_sub_cancel]

/-- Every number below the total draws an entry. -/
theorem exists_of_lt_total (hbound : 0 ≤ bound) (hr : 0 ≤ r) (hlt : r < total l) :
    ∃ a, draw bound l r = some a := by
  induction l generalizing r with
  | nil =>
    have : r < 0 := hlt
    omega
  | cons entry l ih =>
    have htotal : total (entry :: l) = entry.2 + total l := rfl
    rw [draw]
    split
    · exact ⟨_, rfl⟩
    · exact ih (by omega) (by omega)

variable [DecidableEq α] {entry : α × Int} {n : Nat}

/-- The numbers that draw the first entry are those below its weight and the bound. -/
theorem countP_first (b k : Nat) (hn : entry.2 = n) (hnot : entry.1 ∉ l.map Prod.fst) :
    (range (n + b + k)).countP (fun r : Nat => draw b (entry :: l) r = some entry.1) = n + b := by
  have hfirst : ∀ r ∈ range (n + b), decide (draw b (entry :: l) (r : Nat) = some entry.1) =
      true := by
    intro r hr
    have := mem_range.mp hr
    rw [draw, if_pos (by omega)]
    exact decide_eq_true rfl
  rw [range_add, countP_append, countP_map, countP_eq_length.mpr hfirst, length_range,
    countP_eq_zero.mpr, Nat.add_zero]
  intro r _ hdraw
  have hdraw : draw b (entry :: l) ((n + b + r : Nat) : Int) = some entry.1 :=
    of_decide_eq_true hdraw
  rw [draw, if_neg (by omega)] at hdraw
  obtain ⟨w, hw⟩ := mem_of_draw hdraw
  exact hnot (mem_map.mpr ⟨_, hw, rfl⟩)

/-- The numbers that draw another entry start at the weight of the first. -/
theorem countP_rest (k : Nat) (hn : entry.2 = n) (ha : entry.1 ≠ a) :
    (range (n + k)).countP (fun r : Nat => draw 0 (entry :: l) r = some a) =
      (range k).countP fun r : Nat => draw 0 l r = some a := by
  rw [range_add, countP_append, countP_map, countP_eq_zero.mpr, Nat.zero_add]
  · refine countP_congr fun r _ => ?_
    show decide (draw 0 (entry :: l) ((n + r : Nat) : Int) = some a) = true ↔ _
    have hback : ((n + r : Nat) : Int) - entry.2 = r := by omega
    rw [draw, if_neg (by omega), hback]
  · intro r hr hdraw
    have := mem_range.mp hr
    have hdraw := of_decide_eq_true hdraw
    rw [draw, if_pos (by omega)] at hdraw
    exact ha (Option.some.inj hdraw)

end Draws

/-! ### Things with a weight -/

section Weighted

variable {β : Type v} (key : β → α) (weight : β → Nat) (l : List β)

theorem total_map :
    total (l.map fun b => (key b, (weight b : Int))) = ((l.map weight).foldr (· + ·) 0 : Nat) := by
  induction l with
  | nil => rfl
  | cons b l ih =>
    show (weight b : Int) + total _ = _
    rw [ih, map_cons, foldr_cons, Int.natCast_add]

theorem sum_eq_zero_iff : (l.map weight).foldr (· + ·) 0 = 0 ↔ ∀ b ∈ l, weight b = 0 := by
  induction l with
  | nil => simp
  | cons b l ih => rw [map_cons, foldr_cons, Nat.add_eq_zero_iff, ih, forall_mem_cons]

variable {l} {b : β}

/-- Whatever the random number is, something is drawn if not all weights are 0. -/
theorem exists_drawn (hbound : 0 ≤ bound) (hb : b ∈ l) (hw : weight b ≠ 0) (random : Nat) :
    ∃ a, draw bound (l.map fun b => (key b, (weight b : Int)))
      (random % (l.map weight).foldr (· + ·) 0 : Nat) = some a := by
  have hpos : 0 < (l.map weight).foldr (· + ·) 0 :=
    Nat.pos_of_ne_zero fun hsum => hw ((sum_eq_zero_iff weight l).mp hsum b hb)
  refine exists_of_lt_total hbound (Int.natCast_nonneg _) ?_
  rw [total_map]
  exact Int.ofNat_lt.mpr (Nat.mod_lt random hpos)

/-- Some random number below the total draws a thing. -/
theorem exists_random (hbound : 0 ≤ bound) (hb : b ∈ l) (hw : bound < weight b) :
    ∃ random : Nat, draw bound (l.map fun b => (key b, (weight b : Int)))
      (random % (l.map weight).foldr (· + ·) 0 : Nat) = some (key b) := by
  have hnonneg : ∀ entry ∈ l.map fun b => (key b, (weight b : Int)), 0 ≤ entry.2 := by
    intro entry hentry
    obtain ⟨b, -, rfl⟩ := mem_map.mp hentry
    exact Int.natCast_nonneg _
  obtain ⟨r, hle, hlt, hdraw⟩ := exists_draw hbound hnonneg (mem_map.mpr ⟨b, hb, rfl⟩) hw
  rw [total_map] at hlt
  refine ⟨r.toNat, ?_⟩
  rw [Nat.mod_eq_of_lt (by omega), Int.toNat_of_nonneg (Int.le_trans hbound hle)]
  exact hdraw

/-- Each thing is drawn by as many numbers as its weight says. -/
theorem countP_draw [DecidableEq α] (hnodup : (l.map key).Nodup) (hb : b ∈ l) :
    (range ((l.map weight).foldr (· + ·) 0)).countP
      (fun r : Nat => draw 0 (l.map fun b => (key b, (weight b : Int))) r = some (key b)) =
        weight b := by
  induction l with
  | nil => cases hb
  | cons first l ih =>
    obtain ⟨hnot, hnodup⟩ := nodup_cons.mp hnodup
    rw [map_cons, map_cons, foldr_cons]
    rcases mem_cons.mp hb with rfl | hb
    · exact countP_first 0 _ rfl (by rwa [map_map])
    · rw [countP_rest _ rfl, ih hnodup hb]
      intro hsame
      exact hnot (mem_map.mpr ⟨b, hb, hsame.symm⟩)

end Weighted

/-! ### Levels -/

variable {l l' : List Int} {retry : Nat} {v : Int}

/-- The different values, the highest one first. -/
def levels (l : List Int) : List Int := l.dedup.insertionSort (· ≥ ·)

/-- The value after `retry` higher ones, or the lowest. -/
def level (l : List Int) (retry : Nat) : Option Int :=
  (levels l)[min retry ((levels l).length - 1)]?

theorem mem_levels : v ∈ levels l ↔ v ∈ l := by rw [levels, mem_insertionSort, mem_dedup]

theorem levels_congr (h : ∀ v, v ∈ l ↔ v ∈ l') : levels l = levels l' := by
  have hperm : (levels l).Perm (levels l') := by
    refine (perm_insertionSort _ _).trans (.trans ?_ (perm_insertionSort _ _).symm)
    refine (perm_ext_iff_of_nodup (nodup_dedup l) (nodup_dedup l')).mpr fun v => ?_
    rw [mem_dedup, mem_dedup, h v]
  exact hperm.eq_of_pairwise' (pairwise_insertionSort _ _) (pairwise_insertionSort _ _)

theorem level_congr (h : ∀ v, v ∈ l ↔ v ∈ l') (retry : Nat) : level l retry = level l' retry := by
  rw [level, levels_congr h, level]

theorem mem_of_level (h : level l retry = some v) : v ∈ l := mem_levels.mp (mem_of_getElem? h)

theorem level_eq_none : level l retry = none ↔ l = [] := by
  rw [level, List.getElem?_eq_none_iff]
  constructor
  · intro hle
    by_contra hne
    obtain ⟨v, hv⟩ := exists_mem_of_ne_nil l hne
    have := length_pos_of_mem (mem_levels.mpr hv)
    omega
  · rintro rfl
    exact Nat.zero_le _

theorem level_singleton (v : Int) (retry : Nat) : level [v] retry = some v := by
  have hone : levels [v] = [v] := rfl
  rw [level, hone, length_singleton, Nat.sub_self, Nat.min_zero]
  rfl

/-- The first level is the maximum. -/
theorem level_zero : level l 0 = l.max? := by
  cases hl : levels l with
  | nil =>
    have hnil : l = [] := by
      by_contra hne
      obtain ⟨v, hv⟩ := exists_mem_of_ne_nil l hne
      have := mem_levels.mpr hv
      rw [hl] at this
      cases this
    rw [level, hl, hnil]
    rfl
  | cons v vs =>
    -- the levels are sorted, so the first one is the greatest
    have hsorted : (v :: vs).Pairwise (· ≥ ·) := by
      rw [← hl]
      exact pairwise_insertionSort _ _
    have hmax : l.max? = some v := by
      rw [max?_eq_some_iff]
      refine ⟨mem_levels.mp (by rw [hl]; exact mem_cons_self), fun b hb => ?_⟩
      have hmem := mem_levels.mpr hb
      rw [hl] at hmem
      rcases mem_cons.mp hmem with rfl | hmem
      · exact Int.le_refl _
      · exact (pairwise_cons.mp hsorted).1 b hmem
    rw [hmax, level, hl, Nat.zero_min]
    rfl

end Draw
