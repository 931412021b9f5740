/-
Rows under a primary key that the caller chooses.

* `mem_insertAll` — insertions that skip a key that is there already;
* `mem_update`, `mem_deleteWhere` — updates and deletions by condition;
* `distinctBy` — the first element of each key, and when nothing is lost by that.
-/
import AcuGateway.Lib.Table

open List

universe u v

/-- Rows with different keys. -/
structure Rows {ρ : Type u} {κ : Type v} (key : ρ → κ) where
  rows : List ρ
  nodup : (rows.map key).Nodup

namespace Rows

variable {ρ : Type u} {κ : Type v} {key : ρ → κ}

def empty : Rows key where
  rows := []
  nodup := nodup_nil

/-- `INSERT … ON CONFLICT DO NOTHING` -/
def insertIgnore [DecidableEq κ] (t : Rows key) (r : ρ) : Rows key :=
  if h : key r ∈ t.rows.map key then t
  else
    { rows := t.rows ++ [r]
      nodup := Table.nodup_column_concat t.nodup fun x hx heq => h (mem_map.mpr ⟨x, hx, heq⟩) }

def insertAll [DecidableEq κ] (t : Rows key) (l : List ρ) : Rows key := l.foldl insertIgnore t

/-- `UPDATE … WHERE p` -/
def update (t : Rows key) (p : ρ → Bool) (f : ρ → ρ) (hf : ∀ r, p r = true → key (f r) = key r) :
    Rows key where
  rows := t.rows.map fun r => if p r then f r else r
  nodup := by rw [Table.map_column_update key t.rows p f hf]; exact t.nodup

/-- `DELETE … WHERE p` -/
def deleteWhere (t : Rows key) (p : ρ → Bool) : Rows key where
  rows := t.rows.filter fun r => !p r
  nodup := (List.Sublist.map key filter_sublist).nodup t.nodup

section Membership

variable {t : Rows key} {r x : ρ} {l : List ρ}

theorem rows_nodup : t.rows.Nodup := t.nodup.of_map key

theorem mem_insertIgnore [DecidableEq κ] (hnew : ∀ y ∈ t.rows, key y ≠ key x) :
    r ∈ (t.insertIgnore x).rows ↔ r ∈ t.rows ∨ r = x := by
  have hnot : key x ∉ t.rows.map key := by
    intro hmem
    obtain ⟨y, hy, heq⟩ := mem_map.mp hmem
    exact hnew y hy heq
  rw [insertIgnore, dif_neg hnot, mem_append, mem_singleton]

/-- Rows with new keys are all inserted. -/
theorem mem_insertAll [DecidableEq κ] (hl : (l.map key).Nodup)
    (hnew : ∀ x ∈ l, ∀ y ∈ t.rows, key y ≠ key x) :
    r ∈ (t.insertAll l).rows ↔ r ∈ t.rows ∨ r ∈ l := by
  induction l generalizing t with
  | nil => simp [insertAll]
  | cons x l ih =>
    obtain ⟨hx, hrest⟩ := nodup_cons.mp hl
    obtain ⟨hnewx, hnew⟩ := forall_mem_cons.mp hnew
    have hstep : ∀ y, y ∈ (t.insertIgnore x).rows ↔ y ∈ t.rows ∨ y = x :=
      fun y => mem_insertIgnore hnewx
    -- the keys of the list are distinct, so the new row is in nobody's way
    have hnew' : ∀ z ∈ l, ∀ y ∈ (t.insertIgnore x).rows, key y ≠ key z := by
      intro z hz y hy
      rcases (hstep y).mp hy with hy | rfl
      · exact hnew z hz y hy
      · intro heq
        exact hx (mem_map.mpr ⟨z, hz, heq.symm⟩)
    show r ∈ ((t.insertIgnore x).insertAll l).rows ↔ _
    rw [ih hrest hnew', hstep, mem_cons, or_assoc]

theorem mem_update {p : ρ → Bool} {f : ρ → ρ} {hf : ∀ r, p r = true → key (f r) = key r} :
    x ∈ (t.update p f hf).rows ↔ ∃ r ∈ t.rows, x = if p r then f r else r := Table.mem_map_update

theorem mem_deleteWhere {p : ρ → Bool} : r ∈ (t.deleteWhere p).rows ↔ r ∈ t.rows ∧ p r = false := by
  simp [deleteWhere]

end Membership

/-! ### The first of each key -/

section Distinct

variable {α : Type u} {β : Type v} [DecidableEq β] {mark : α → β} {l : List α} {seen : List β}
  {a b : α}

/-- The elements whose mark was not seen before. -/
def distinctBy (mark : α → β) : List β → List α → List α
  | _, [] => []
  | seen, a :: l =>
    if mark a ∈ seen then distinctBy mark seen l else a :: distinctBy mark (mark a :: seen) l

theorem mem_of_mem_distinctBy (h : a ∈ distinctBy mark seen l) : a ∈ l ∧ mark a ∉ seen := by
  induction l generalizing seen with
  | nil => cases h
  | cons x l ih =>
    rw [distinctBy] at h
    split at h
    · obtain ⟨hmem, hnew⟩ := ih h
      exact ⟨mem_cons_of_mem _ hmem, hnew⟩
    · rename_i hx
      rcases mem_cons.mp h with rfl | h
      · exact ⟨mem_cons_self, hx⟩
      · obtain ⟨hmem, hnew⟩ := ih h
        exact ⟨mem_cons_of_mem _ hmem, fun hseen => hnew (mem_cons_of_mem _ hseen)⟩

theorem nodup_map_distinctBy : ((distinctBy mark seen l).map mark).Nodup := by
  induction l generalizing seen with
  | nil => exact nodup_nil
  | cons x l ih =>
    rw [distinctBy]
    split
    · exact ih
    · rw [map_cons, nodup_cons]
      refine ⟨fun hmem => ?_, ih⟩
      obtain ⟨y, hy, heq⟩ := mem_map.mp hmem
      exact (mem_of_mem_distinctBy hy).2 (heq ▸ mem_cons_self)

/-- An element is there, or another one with its mark. -/
theorem exists_mem_distinctBy (ha : a ∈ l) (hnew : mark a ∉ seen) :
    ∃ b ∈ distinctBy mark seen l, mark b = mark a := by
  induction l generalizing seen with
  | nil => cases ha
  | cons x l ih =>
    rw [distinctBy]
    split
    · rename_i hx
      rcases mem_cons.mp ha with rfl | ha
      · exact absurd hx hnew
      · exact ih ha hnew
    · -- the first element with this mark is the one that is kept
      by_cases heq : mark a = mark x
      · exact ⟨x, mem_cons_self, heq.symm⟩
      · rcases mem_cons.mp ha with rfl | ha
        · exact absurd rfl heq
        · have hnew' : mark a ∉ mark x :: seen := by
            intro hmem
            rcases mem_cons.mp hmem with hx | hseen
            · exact heq hx
            · exact hnew hseen
          obtain ⟨b, hb, hmark⟩ := ih ha hnew'
          exact ⟨b, mem_cons_of_mem _ hb, hmark⟩

/-- Nothing is lost exactly if different elements have different marks. -/
theorem subset_distinctBy_iff :
    (∀ a ∈ l, a ∈ distinctBy mark [] l) ↔ ∀ a ∈ l, ∀ b ∈ l, mark a = mark b → a = b := by
  constructor
  · intro hall a ha b hb heq
    exact inj_on_of_nodup_map nodup_map_distinctBy (hall a ha) (hall b hb) heq
  · intro hinj a ha
    obtain ⟨b, hb, hmark⟩ := exists_mem_distinctBy ha (not_mem_nil (a := mark a))
    have hbl := (mem_of_mem_distinctBy hb).1
    rw [hinj a ha b hbl hmark.symm]
    exact hb

end Distinct

end Rows
