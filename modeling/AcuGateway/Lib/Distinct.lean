/-
The first of the related elements of a list.

`distinct r l` goes through `l` and keeps an element that is related to none kept before.
What is kept depends on the order of the list, and so does how much is kept, unless the
relation is transitive on it.

* `pairwise_distinct`, `exists_mem_distinct` — no two kept elements are related, and every
  element is related to a kept one;
* `length_distinct_append` — a list of elements that are all related to those of a second
  one, put before it, does not change how many are kept.
-/
import Mathlib.Data.List.Basic

universe u

open List

namespace Distinct

variable {α : Type u} (r : α → α → Prop) [DecidableRel r]

/-- Keep `a` if it is related to none kept before. -/
def keep (kept : List α) (a : α) : List α := if ∃ k ∈ kept, r k a then kept else kept ++ [a]

def distinct (l : List α) : List α := l.foldl (keep r) []

variable {r} {l kept : List α} {a : α}

theorem keep_subset : kept ⊆ keep r kept a := by
  unfold keep
  split_ifs
  · exact Subset.refl _
  · exact subset_append_left ..

theorem foldl_keep_subset : kept ⊆ l.foldl (keep r) kept := by
  induction l generalizing kept with
  | nil => exact Subset.refl _
  | cons a l ih => exact fun _ hb => ih (keep_subset hb)

theorem mem_foldl_keep (h : a ∈ l.foldl (keep r) kept) : a ∈ kept ∨ a ∈ l := by
  induction l generalizing kept with
  | nil => exact .inl h
  | cons b l ih =>
    rcases ih h with hkept | hl
    · unfold keep at hkept
      split_ifs at hkept
      · exact .inl hkept
      · rcases mem_append.mp hkept with hkept | hb
        · exact .inl hkept
        · exact .inr (mem_singleton.mp hb ▸ mem_cons_self)
    · exact .inr (mem_cons_of_mem _ hl)

theorem mem_of_mem_distinct (h : a ∈ distinct r l) : a ∈ l :=
  (mem_foldl_keep h).resolve_left not_mem_nil

theorem pairwise_foldl_keep (h : kept.Pairwise fun a b => ¬ r a b) :
    (l.foldl (keep r) kept).Pairwise fun a b => ¬ r a b := by
  induction l generalizing kept with
  | nil => exact h
  | cons a l ih =>
    refine ih ?_
    unfold keep
    split_ifs with hrelated
    · exact h
    · refine pairwise_append.mpr ⟨h, pairwise_singleton .., fun k hk b hb hr => ?_⟩
      exact hrelated ⟨k, hk, mem_singleton.mp hb ▸ hr⟩

theorem pairwise_distinct : (distinct r l).Pairwise fun a b => ¬ r a b := pairwise_foldl_keep .nil

theorem exists_mem_foldl_keep (ha : a ∈ l) (hself : r a a) :
    ∃ k ∈ l.foldl (keep r) kept, r k a := by
  induction l generalizing kept with
  | nil => cases ha
  | cons b l ih =>
    rcases mem_cons.mp ha with rfl | ha
    · have hnow : ∃ k ∈ keep r kept a, r k a := by
        unfold keep
        split_ifs with hrelated
        · exact hrelated
        · exact ⟨a, by simp, hself⟩
      obtain ⟨k, hk, hr⟩ := hnow
      rw [foldl_cons]
      exact ⟨k, foldl_keep_subset hk, hr⟩
    · exact ih ha

theorem exists_mem_distinct (ha : a ∈ l) (hself : r a a) : ∃ k ∈ distinct r l, r k a :=
  exists_mem_foldl_keep ha hself

omit [DecidableRel r] in
/-- Elements that are not related to each other need different ones to be related to. -/
theorem length_le_of_related {s t : List α} (hpairwise : t.Pairwise fun a b => ¬ r a b)
    (hrelated : ∀ a ∈ t, ∃ b ∈ s, r b a)
    (htrans : ∀ a ∈ t, ∀ b ∈ t, ∀ c ∈ s, r c a → r c b → r a b) :
    t.length ≤ s.length := by
  classical
  induction t generalizing s with
  | nil => exact Nat.zero_le _
  | cons a t ih =>
    obtain ⟨hfirst, hrest⟩ := pairwise_cons.mp hpairwise
    obtain ⟨c, hc, hca⟩ := hrelated a mem_cons_self
    -- what `a` is related to is of no use to the others
    have herase : t.length ≤ (s.erase c).length := by
      refine ih hrest (fun b hb => ?_) fun x hx y hy z hz =>
        htrans x (mem_cons_of_mem _ hx) y (mem_cons_of_mem _ hy) z (mem_of_mem_erase hz)
      obtain ⟨d, hd, hdb⟩ := hrelated b (mem_cons_of_mem _ hb)
      refine ⟨d, (mem_erase_of_ne ?_).mpr hd, hdb⟩
      rintro rfl
      exact hfirst b hb (htrans a mem_cons_self b (mem_cons_of_mem _ hb) d hd hca hdb)
    have hlength := length_erase_add_one hc
    rw [length_cons]
    omega

/-- A transitive relation leaves as many of two lists as of the second alone, if it has a
related element for each of the first. -/
theorem length_distinct_append {front : List α} (hself : ∀ a ∈ front ++ l, r a a)
    (hsymm : ∀ a b, r a b → r b a)
    (htrans : ∀ a ∈ front ++ l, ∀ b ∈ front ++ l, ∀ c ∈ front ++ l, r c a → r c b → r a b)
    (hfront : ∀ a ∈ front, ∃ b ∈ l, r b a) :
    (distinct r (front ++ l)).length = (distinct r l).length := by
  have hall : ∀ a ∈ l, a ∈ front ++ l := fun a ha => mem_append_right _ ha
  refine Nat.le_antisymm ?_ ?_
  · refine length_le_of_related pairwise_distinct (fun a ha => ?_) fun a ha b hb c hc =>
      htrans a (mem_of_mem_distinct ha) b (mem_of_mem_distinct hb) c
        (hall c (mem_of_mem_distinct hc))
    -- an element of the front is represented by one behind it
    have ha := mem_of_mem_distinct ha
    obtain ⟨b, hb, hba⟩ : ∃ b ∈ l, r b a := by
      rcases mem_append.mp ha with hfirst | hlast
      · exact hfront a hfirst
      · exact ⟨a, hlast, hself a ha⟩
    obtain ⟨k, hk, hkb⟩ := exists_mem_distinct hb (hself b (hall b hb))
    have hkl := hall k (mem_of_mem_distinct hk)
    exact ⟨k, hk, htrans k hkl a ha b (hall b hb) (hsymm _ _ hkb) hba⟩
  · refine length_le_of_related pairwise_distinct (fun a ha => ?_) fun a ha b hb c hc =>
      htrans a (hall a (mem_of_mem_distinct ha)) b (hall b (mem_of_mem_distinct hb)) c
        (mem_of_mem_distinct hc)
    have ha := hall a (mem_of_mem_distinct ha)
    exact exists_mem_distinct ha (hself a ha)

end Distinct
