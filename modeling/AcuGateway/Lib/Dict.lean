/-
Finite maps, as association lists without repeated keys.

* `lookup_insert_of`, `lookup_erase_of` — a lookup after one entry was written or dropped;
* `mem_keys_iff` — the keys are those with a value;
* `bindTo`, `takeText` — an entry written, or a text taken out, under a key that may be missing.
-/
import Mathlib.Data.List.AList

open AList

universe u v

/-- A finite map from `κ` to `α`. -/
abbrev Dict (κ : Type u) (α : Type v) := AList fun _ : κ => α

namespace Dict

variable {κ : Type u} {α : Type v} [DecidableEq κ]

theorem lookup_insert_of (d : Dict κ α) (k k' : κ) (a : α) :
    (d.insert k a).lookup k' = if k' = k then some a else d.lookup k' := by
  by_cases h : k' = k
  · subst h
    rw [if_pos rfl, lookup_insert]
  · rw [if_neg h, lookup_insert_ne h]

theorem lookup_erase_of (d : Dict κ α) (k k' : κ) : (d.erase k).lookup k' = if k' = k then none
    else d.lookup k' := by
  by_cases h : k' = k
  · subst h
    rw [if_pos rfl, lookup_erase]
  · rw [if_neg h, lookup_erase_ne h]

@[simp] theorem erase_empty (k : κ) : (∅ : Dict κ α).erase k = ∅ := ext rfl

theorem erase_of_lookup_none {d : Dict κ α} {k : κ} (h : d.lookup k = none) : d.erase k = d := by
  refine ext ?_
  show d.entries.kerase k = d.entries
  exact List.kerase_of_notMem_keys (lookup_eq_none.mp h)

theorem mem_keys_iff {d : Dict κ α} {k : κ} : k ∈ d.keys ↔ ∃ a, d.lookup k = some a := by
  rw [← AList.mem_keys, ← lookup_isSome, Option.isSome_iff_exists]

variable (k : Option κ)

/-- Write an entry, if there is a key. -/
def bindTo (a : α) (d : Dict κ α) : Dict κ α :=
  match k with
  | none => d
  | some k => d.insert k a

theorem lookup_bindTo (d : Dict κ α) (k : Option κ) (k' : κ) (a : α) :
    (d.bindTo k a).lookup k' = if k = some k' then some a else d.lookup k' := by
  cases k with
  | none => rfl
  | some k => simp only [bindTo, lookup_insert_of, Option.some.injEq, eq_comm]

/-- The text under a key that may be missing. -/
def text (d : Dict κ String) : String := (k.bind d.lookup).getD ""

/-- Drop the text under a key, if there is one. -/
def takeText (d : Dict κ String) : Dict κ String :=
  match k with
  | none => d
  | some k => if (d.lookup k).getD "" = "" then d else d.erase k

/-- Where no text is empty, a text that is taken is gone. -/
theorem lookup_takeText {d : Dict κ String} {k : κ} (h : d.lookup k ≠ some "") (k' : κ) :
    (d.takeText (some k)).lookup k' = if k' = k then none else d.lookup k' := by
  by_cases hempty : (d.lookup k).getD "" = ""
  · have hnone : d.lookup k = none := by
      cases hk : d.lookup k with
      | none => rfl
      | some w =>
        rw [hk, Option.getD_some] at hempty
        exact absurd (hempty ▸ hk) h
    simp only [takeText, hempty, if_true]
    split
    · rename_i hk
      rw [hk, hnone]
    · rfl
  · simp [takeText, hempty, lookup_erase_of]

@[simp] theorem takeText_empty (k : Option κ) : (∅ : Dict κ String).takeText k = ∅ := by
  cases k <;> simp [takeText]

@[simp] theorem text_empty (k : Option κ) : (∅ : Dict κ String).text k = "" := by
  cases k <;> simp [text]

end Dict
