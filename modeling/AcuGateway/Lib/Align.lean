/-
Two lists that are made piece by piece from one list.

* `forall₂_flatMap_iff` — if no piece of the second list is longer, then the lists agree exactly if
  the pieces do;
* `forall₂_filterMap_iff` — the same for at most one element each.
-/
import Mathlib.Data.List.Forall2

open List Option

namespace Align

variable {α β γ : Type} {R : β → γ → Prop} {f : α → List β} {g : α → List γ} {l : List α}

theorem length_flatMap_le (h : ∀ a ∈ l, (g a).length ≤ (f a).length) :
    (l.flatMap g).length ≤ (l.flatMap f).length := by
  induction l with
  | nil => exact Nat.le_refl 0
  | cons a l ih =>
    obtain ⟨ha, hl⟩ := forall_mem_cons.mp h
    have hrest := ih hl
    rw [flatMap_cons, flatMap_cons, length_append, length_append]
    omega

theorem forall₂_flatMap (h : ∀ a ∈ l, List.Forall₂ R (f a) (g a)) :
    List.Forall₂ R (l.flatMap f) (l.flatMap g) := by
  induction l with
  | nil => exact .nil
  | cons a l ih =>
    obtain ⟨ha, hl⟩ := forall_mem_cons.mp h
    rw [flatMap_cons, flatMap_cons]
    exact rel_append ha (ih hl)

/-- Lists of the same length agree in both parts of a split. -/
theorem forall₂_append_iff {as as' : List β} {bs bs' : List γ} (h : as.length = bs.length) :
    List.Forall₂ R (as ++ as') (bs ++ bs') ↔ List.Forall₂ R as bs ∧ List.Forall₂ R as' bs' := by
  constructor
  · intro hall
    have hfirst := forall₂_take_append _ _ _ hall
    have hrest := forall₂_drop_append _ _ _ hall
    rw [← h, take_left] at hfirst
    rw [← h, drop_left] at hrest
    exact ⟨hfirst, hrest⟩
  · rintro ⟨hfirst, hrest⟩
    exact rel_append hfirst hrest

theorem forall₂_flatMap_iff (h : ∀ a ∈ l, (g a).length ≤ (f a).length) :
    List.Forall₂ R (l.flatMap f) (l.flatMap g) ↔ ∀ a ∈ l, List.Forall₂ R (f a) (g a) := by
  refine ⟨fun hall => ?_, forall₂_flatMap⟩
  induction l with
  | nil => exact fun a ha => absurd ha not_mem_nil
  | cons a l ih =>
    obtain ⟨ha, hl⟩ := forall_mem_cons.mp h
    rw [flatMap_cons, flatMap_cons] at hall
    have hlength := hall.length_eq
    rw [length_append, length_append] at hlength
    have hrest := length_flatMap_le hl
    obtain ⟨hfirst, hothers⟩ := (forall₂_append_iff (by omega)).mp hall
    exact forall_mem_cons.mpr ⟨hfirst, ih hl hothers⟩

section

variable {f : α → Option β} {g : α → Option γ} (h : ∀ a ∈ l, (f a).isSome = (g a).isSome)

include h

theorem length_filterMap_eq : (l.filterMap f).length = (l.filterMap g).length := by
  induction l with
  | nil => rfl
  | cons a l ih =>
    obtain ⟨ha, hl⟩ := forall_mem_cons.mp h
    have hrest := ih hl
    cases hf : f a with
    | none =>
      rw [hf] at ha
      rw [filterMap_cons_none hf,
        filterMap_cons_none (not_isSome_iff_eq_none.mp (by simp [← ha])), hrest]
    | some b =>
      rw [hf] at ha
      obtain ⟨c, hc⟩ := isSome_iff_exists.mp ha.symm
      rw [filterMap_cons_some hf, filterMap_cons_some hc, length_cons, length_cons, hrest]

theorem forall₂_filterMap_iff :
    List.Forall₂ R (l.filterMap f) (l.filterMap g) ↔ ∀ a ∈ l, ∀ b c, f a = some b → g a = some c →
      R b c := by
  induction l with
  | nil => exact iff_of_true .nil fun a ha => absurd ha not_mem_nil
  | cons a l ih =>
    obtain ⟨ha, hl⟩ := forall_mem_cons.mp h
    rw [forall_mem_cons, ← ih hl]
    -- both functions keep the same elements
    cases hf : f a with
    | none =>
      rw [hf] at ha
      have hg : g a = none := not_isSome_iff_eq_none.mp (by simp [← ha])
      rw [filterMap_cons_none hf, filterMap_cons_none hg]
      simp
    | some b =>
      rw [hf] at ha
      obtain ⟨c, hg⟩ := isSome_iff_exists.mp ha.symm
      rw [filterMap_cons_some hf, filterMap_cons_some hg, forall₂_cons, hg]
      simp

end

end Align
