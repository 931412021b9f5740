/-
Tables with an auto-increment primary key.

A `Table key` is a finite list of rows together with the next value of its
sequence; the keys of the rows are pairwise different, positive and below that
value, so a row that is inserted under the sequence value never collides.

* `find?_eq_some` — a lookup by key finds exactly the row with that key;
* `find?_update` — what an update by condition does to a lookup;
* `find?_insert` — an insertion changes the lookup of the new key only;
* `find?_save` — overwriting a row changes the lookup of its key only;
* `affected_eq_one_iff` — when an update of one key affects a row.
-/
import Mathlib.Data.List.Find
import Mathlib.Data.List.Nodup
import Mathlib.Tactic.Common

open List

universe u v

/-- Rows under a positive integer key, with the next value of the sequence. -/
structure Table {ρ : Type u} (key : ρ → Int) where
  rows : List ρ
  seq : Int
  nodup : (rows.map key).Nodup
  below : ∀ r ∈ rows, key r < seq
  pos : ∀ r ∈ rows, 0 < key r
  seq_pos : 0 < seq

namespace Table

variable {ρ : Type u} {key : ρ → Int} (t : Table key)

/-- The row with key `k`. -/
def find? (k : Int) : Option ρ := t.rows.find? fun r => key r = k

/-- The table with no rows. -/
def empty : Table key where
  rows := []
  seq := 1
  nodup := nodup_nil
  below := by simp
  pos := by simp
  seq_pos := by omega

variable {β : Type v} {column : ρ → β} {l : List ρ} {p : ρ → Bool} {f : ρ → ρ} {x : ρ}

theorem column_update_row (r : ρ) (hf : ∀ r, p r = true → column (f r) = column r) :
    column (if p r then f r else r) = column r := by
  by_cases hp : p r = true
  · rw [if_pos hp, hf r hp]
  · rw [if_neg hp]

/-- An update keeps a column that it does not write. -/
theorem map_column_update (column : ρ → β) (l : List ρ) (p : ρ → Bool) (f : ρ → ρ)
    (hf : ∀ r, p r = true → column (f r) = column r) :
    (l.map fun r => if p r then f r else r).map column = l.map column := by
  rw [map_map]
  exact map_congr_left fun r _ => column_update_row r hf

theorem mem_map_update : (x ∈ l.map fun r => if p r then f r else r) ↔ ∃ r ∈ l, x = if p r then f r
    else r := by
  rw [mem_map]
  constructor
  · rintro ⟨r, hr, rfl⟩; exact ⟨r, hr, rfl⟩
  · rintro ⟨r, hr, rfl⟩; exact ⟨r, hr, rfl⟩

theorem forall_column_update {P : β → Prop} (hf : ∀ r, p r = true → column (f r) = column r)
    (h : ∀ r ∈ l, P (column r)) : ∀ r ∈ l.map fun r => if p r then f r else r, P (column r) := by
  intro x hx
  obtain ⟨r, hr, rfl⟩ := mem_map_update.mp hx
  rw [column_update_row r hf]
  exact h r hr

/-- `UPDATE … WHERE p`: replace every row that satisfies `p` by its image. -/
def update (p : ρ → Bool) (f : ρ → ρ) (hf : ∀ r, p r = true → key (f r) = key r) : Table key where
  rows := t.rows.map fun r => if p r then f r else r
  seq := t.seq
  nodup := by rw [map_column_update key t.rows p f hf]; exact t.nodup
  below := forall_column_update (P := (· < t.seq)) hf t.below
  pos := forall_column_update (P := (0 < ·)) hf t.pos
  seq_pos := t.seq_pos

/-- How many rows such an update affects. -/
def affected (p : ρ → Bool) : Nat := t.rows.countP p

/-- Overwrite the row that has the key of `r`. -/
def save (r : ρ) : Table key :=
  t.update (fun x => key x = key r) (fun _ => r) fun x hx => by
    simpa using (of_decide_eq_true hx).symm

/-- A column without repetitions stays so when a row with a new value follows. -/
theorem nodup_column_concat {r : ρ} (h : (l.map column).Nodup)
    (hnew : ∀ x ∈ l, column x ≠ column r) :
    ((l ++ [r]).map column).Nodup := by
  rw [map_append, nodup_append]
  refine ⟨h, by simp, ?_⟩
  intro a ha b hb
  obtain ⟨x, hx, rfl⟩ := mem_map.mp ha
  rw [map_singleton, mem_singleton] at hb
  rw [hb]
  exact hnew x hx

/-- Insert the row that `mk` builds for the next sequence value. -/
def insert (mk : Int → ρ) (hmk : ∀ i, key (mk i) = i) : Table key where
  rows := t.rows ++ [mk t.seq]
  seq := t.seq + 1
  nodup := by
    refine nodup_column_concat t.nodup fun x hx => ?_
    have := t.below x hx
    rw [hmk]
    omega
  below := by
    intro r hr
    rcases mem_append.mp hr with hr | hr
    · have := t.below r hr
      omega
    · rw [mem_singleton.mp hr, hmk]; omega
  pos := by
    intro r hr
    rcases mem_append.mp hr with hr | hr
    · exact t.pos r hr
    · rw [mem_singleton.mp hr, hmk]; exact t.seq_pos
  seq_pos := by have := t.seq_pos; omega

/-- `DELETE … WHERE key = k`. -/
def delete (k : Int) : Table key where
  rows := t.rows.filter fun r => key r ≠ k
  seq := t.seq
  nodup := (List.Sublist.map key filter_sublist).nodup t.nodup
  below := fun r hr => t.below r (mem_of_mem_filter hr)
  pos := fun r hr => t.pos r (mem_of_mem_filter hr)
  seq_pos := t.seq_pos

/-- `DELETE … WHERE p`. -/
def deleteWhere (p : ρ → Bool) : Table key where
  rows := t.rows.filter fun r => !p r
  seq := t.seq
  nodup := (List.Sublist.map key filter_sublist).nodup t.nodup
  below := fun r hr => t.below r (mem_of_mem_filter hr)
  pos := fun r hr => t.pos r (mem_of_mem_filter hr)
  seq_pos := t.seq_pos

/-! ### Lookups -/

variable {t : Table key} {r : ρ} {k : Int}

theorem mem_of_find? (h : t.find? k = some r) : r ∈ t.rows := mem_of_find?_eq_some h

theorem key_of_find? (h : t.find? k = some r) : key r = k := by
  simpa using find?_some h

/-- Two rows with one key are one row. -/
theorem eq_of_key_eq {a b : ρ} (ha : a ∈ t.rows) (hb : b ∈ t.rows) (h : key a = key b) :
    a = b := inj_on_of_nodup_map t.nodup ha hb h

/-- A lookup by key finds exactly the row with that key. -/
theorem find?_eq_some : t.find? k = some r ↔ r ∈ t.rows ∧ key r = k := by
  refine ⟨fun h => ⟨mem_of_find? h, key_of_find? h⟩, ?_⟩
  rintro ⟨hr, rfl⟩
  rcases hx : t.find? (key r) with _ | x
  · have := List.find?_eq_none.mp hx r hr
    simp at this
  · rw [eq_of_key_eq (mem_of_find? hx) hr (key_of_find? hx)]

theorem find?_eq_none : t.find? k = none ↔ ∀ r ∈ t.rows, key r ≠ k := by
  rw [find?, List.find?_eq_none]
  simp

theorem pos_of_find? (h : t.find? k = some r) : 0 < k := by
  rw [← key_of_find? h]
  exact t.pos r (mem_of_find? h)

/-! ### Updates -/

section Update

variable {hf : ∀ r, p r = true → key (f r) = key r}

theorem mem_update : x ∈ (t.update p f hf).rows ↔ ∃ r ∈ t.rows, x = if p r then f r else r :=
  mem_map_update

/-- A lookup after an update finds the updated row. -/
theorem find?_update : (t.update p f hf).find? k = (t.find? k).map fun r => if p r then f r
    else r := by
  rcases h : t.find? k with _ | r
  · rw [Option.map_none, find?_eq_none]
    intro x hx
    obtain ⟨r, hr, rfl⟩ := mem_update.mp hx
    rw [column_update_row r hf]
    exact find?_eq_none.mp h r hr
  · rw [Option.map_some, find?_eq_some]
    exact ⟨mem_update.mpr ⟨r, mem_of_find? h, rfl⟩, (column_update_row r hf).trans (key_of_find? h)⟩

theorem find?_update_of_mem (hf : ∀ r, p r = true → key (f r) = key r) (hr : r ∈ t.rows)
    (hp : p r = true) :
    (t.update p f hf).find? (key r) = some (f r) := by
  rw [find?_update, find?_eq_some.mpr ⟨hr, rfl⟩, Option.map_some, if_pos hp]

theorem find?_update_of_not (hf : ∀ r, p r = true → key (f r) = key r)
    (h : ∀ r ∈ t.rows, key r = k → p r = false) :
    (t.update p f hf).find? k = t.find? k := by
  rw [find?_update]
  rcases hr : t.find? k with _ | r
  · rfl
  · rw [Option.map_some, if_neg]
    rw [h r (mem_of_find? hr) (key_of_find? hr)]
    exact Bool.false_ne_true

end Update

/-- An update of one key affects the row with that key, if it qualifies. -/
theorem affected_eq_one_iff (h : t.find? k = some r)
    (hp : ∀ x, p x = true → key x = k) : t.affected p = 1 ↔ p r = true := by
  -- exactly one row has the key
  have hone : t.rows.countP (fun x => key x = k) = 1 := by
    have hcount : (t.rows.map key).count k = 1 :=
      count_eq_one_of_mem t.nodup (mem_map.mpr ⟨r, mem_of_find? h, key_of_find? h⟩)
    rw [← hcount, List.count, countP_map]
    exact countP_congr fun x _ => by simp
  constructor
  · intro hp1
    obtain ⟨x, hx, hpx⟩ := countP_pos_iff.mp (Nat.lt_of_lt_of_eq Nat.one_pos hp1.symm)
    have hxr : x = r := eq_of_key_eq hx (mem_of_find? h) ((hp x hpx).trans (key_of_find? h).symm)
    rwa [← hxr]
  · intro hpr
    rw [← hone]
    refine countP_congr fun x hx => ?_
    constructor
    · intro hpx
      exact decide_eq_true (hp x hpx)
    · intro hxk
      have hxr : x = r :=
        eq_of_key_eq hx (mem_of_find? h) ((of_decide_eq_true hxk).trans (key_of_find? h).symm)
      rwa [hxr]

theorem find?_seq : t.find? t.seq = none := by
  rw [find?_eq_none]
  intro r hr heq
  have := t.below r hr
  omega

/-- A lookup after an insertion: the new row is found under its key. -/
theorem find?_insert {mk : Int → ρ} (hmk : ∀ i, key (mk i) = i) (k : Int) :
    (t.insert mk hmk).find? k = if k = t.seq then some (mk t.seq) else t.find? k := by
  unfold insert find?
  dsimp only
  rw [find?_append, find?_singleton, hmk]
  by_cases hk : k = t.seq
  · have hnone := find?_seq (t := t)
    rw [find?] at hnone
    rw [if_pos hk, hk, hnone]
    simp
  · rw [if_neg hk]
    simp [Ne.symm hk]

theorem mem_save (h : x ∈ (t.save r).rows) : (x ∈ t.rows ∧ key x ≠ key r) ∨ x = r := by
  obtain ⟨y, hy, rfl⟩ := mem_update.mp h
  by_cases hk : key y = key r
  · right; simp [hk]
  · left; simp [hk, hy]

theorem mem_save_of_ne (hx : x ∈ t.rows) (hne : key x ≠ key r) : x ∈ (t.save r).rows :=
  mem_map.mpr ⟨x, hx, by simp [hne]⟩

theorem find?_save : (t.save r).find? k = if k = key r then (t.find? k).map fun _ => r
    else t.find? k := by
  rw [save, find?_update]
  rcases h : t.find? k with _ | x
  · simp
  · have hx := key_of_find? h
    by_cases hk : k = key r
    · simp [hx, hk]
    · simp [hx, hk]

theorem find?_save_self (h : t.find? (key r) = some x) : (t.save r).find? (key r) = some r := by
  rw [find?_save, if_pos rfl, h, Option.map_some]

theorem find?_save_ne (h : k ≠ key r) : (t.save r).find? k = t.find? k := by
  rw [find?_save, if_neg h]

/-- A search by other columns, after a row was saved that agrees with the row it
replaces. -/
theorem find?_rows_save (hp : ∀ x ∈ t.rows, key x = key r → p x = p r) : (t.save r).rows.find? p =
      (t.rows.find? p).map fun x => if key x = key r then r else x := by
  have hmap : (t.save r).rows = t.rows.map fun x => if key x = key r then r else x := by
    simp [save, update]
  rw [hmap, find?_map]
  congr 1
  refine find?_congr fun x hx => ?_
  by_cases hk : key x = key r
  · simp [hk, hp x hx hk]
  · simp [hk]

end Table
