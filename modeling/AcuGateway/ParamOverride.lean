/-
Literal keys in the legacy parameter override.

Each key of an override is set with `sjson.SetBytes`, whose paths are a language of their own: dots
separate keys, a backslash escapes, a colon in front forces a key, and other characters are
operators.  Dots, wildcards and backslashes of a key are escaped, a colon and the other operators
are not.

* `Sjson` — what is assumed of the library;
* `escapeSjsonLiteralKey`, `applyOperationsLegacy` — the override;
* `readKeys_escape` — an escaped key is read as one key again, unless it has an operator;
* `Sjson.flat` — the library on flat objects;
* `sets_literal_keys_iff` — which overrides set their keys, in every body and in every order;
* `colon_dropped` — a key that loses its colon.
-/
import AcuGateway.Lib.Dict
import Mathlib.Data.Finset.Max

open List Function

/-! ### Paths -/

/-- A decoded object. -/
abbrev JsonObject (ν : Type) := String → Option ν

/-- The keys of a path; none if there is an operator. -/
def readKeys : List Char → Option (List (List Char))
  | [] => some [[]]
  | ['\\'] => some [[]]
  | '\\' :: c :: l => (readKeys l).map (modifyHead (c :: ·))
  | '.' :: ':' :: l => (readKeys l).map ([] :: ·)
  | '.' :: l => (readKeys l).map ([] :: ·)
  | c :: l => if c ∈ ['|', '#', '@', '*', '?'] then none else (readKeys l).map (modifyHead (c :: ·))

def dropColon (l : List Char) : List Char := if l.head? = some ':' then l.tail else l

/-- The library.  A path with operators changes only what it finds. -/
structure Sjson (ν : Type) where
  setDeepPath : JsonObject ν → List (List Char) → ν → Except String (JsonObject ν)
  setComplexPath : JsonObject ν → String → ν → Except String (JsonObject ν)
  complex_none : ∀ {body path value body'}, setComplexPath body path value = .ok body' →
    ∀ key, body key = none → body' key = none

variable {ν : Type} (lib : Sjson ν) (body : JsonObject ν)

/-- The library on objects whose values have no parts: operators find nothing in them. -/
def Sjson.flat : Sjson ν where
  setDeepPath _ _ _ := .error "not an object"
  setComplexPath body _ _ := .ok body
  complex_none := by
    intro body path value body' h key hnone
    cases h
    exact hnone

def Sjson.setBytes (path : String) (value : ν) : Except String (JsonObject ν) :=
  if path = "" then .error "path cannot be empty"
  else
    match readKeys (dropColon path.toList) with
    | none => lib.setComplexPath body path value
    | some [key] => .ok (update body (String.ofList key) (some value))
    | some keys => lib.setDeepPath body keys value

/-! ### The override -/

def escapeChar (c : Char) : List Char := if c ∈ ['.', '*', '?', '\\'] then ['\\', c] else [c]

def escapeSjsonLiteralKey (key : String) : String := String.ofList (key.toList.flatMap escapeChar)

/-- The entries come in the order in which the map is iterated. -/
def applyOperationsLegacy (entries : List (Σ _ : String, ν)) : Except String (JsonObject ν) :=
  entries.foldlM (fun body entry => lib.setBytes body (escapeSjsonLiteralKey entry.1) entry.2) body

/-- There is no operator that the escape leaves. -/
def Plain (l : List Char) : Prop := ∀ c ∈ l, c ∉ ['|', '#', '@']
deriving Decidable

/-- A key that the path language leaves as it is. -/
def LiteralKey (key : String) : Prop := key ≠ "" ∧ key.toList.head? ≠ some ':' ∧ Plain key.toList
deriving Decidable

theorem readKeys_escape (l : List Char) : readKeys (l.flatMap escapeChar) = if Plain l then some [l]
    else none := by
  induction l with
  | nil => simp [readKeys, Plain]
  | cons c l ih =>
    have hread : readKeys (escapeChar c ++ l.flatMap escapeChar) =
        if c ∈ ['|', '#', '@'] then none
        else (readKeys (l.flatMap escapeChar)).map (modifyHead (c :: ·)) := by
      -- an escaped character is read as itself, three operators are left alone
      by_cases hescaped : c ∈ ['.', '*', '?', '\\']
      · have hnot : c ∉ ['|', '#', '@'] := by
          simp only [mem_cons, not_mem_nil, or_false] at hescaped
          rcases hescaped with rfl | rfl | rfl | rfl <;> decide
        rw [escapeChar, if_pos hescaped, if_neg hnot, cons_append, singleton_append, readKeys]
      · rw [escapeChar, if_neg hescaped, singleton_append]
        simp only [mem_cons, not_mem_nil, or_false, not_or] at hescaped
        simp [readKeys, hescaped]
    have hplain : Plain (c :: l) ↔ c ∉ ['|', '#', '@'] ∧ Plain l := forall_mem_cons
    rw [flatMap_cons, hread, ih]
    by_cases hc : c ∈ ['|', '#', '@']
    · rw [if_pos hc, if_neg fun h => (hplain.mp h).1 hc]
    · by_cases hl : Plain l
      · rw [if_neg hc, if_pos hl, if_pos (hplain.mpr ⟨hc, hl⟩)]
        rfl
      · rw [if_neg hc, if_neg hl, if_neg fun h => hl (hplain.mp h).2]
        rfl

theorem dropColon_escape (l : List Char) :
    dropColon (l.flatMap escapeChar) = (dropColon l).flatMap escapeChar := by
  cases l with
  | nil => rfl
  | cons c l =>
    by_cases hcolon : c = ':'
    · subst hcolon
      rfl
    · have hhead : (escapeChar c ++ l.flatMap escapeChar).head? ≠ some ':' := by
        unfold escapeChar
        split <;> simp [hcolon]
      rw [flatMap_cons, dropColon, if_neg hhead, dropColon, if_neg (by simpa using hcolon),
        flatMap_cons]

variable {lib body} {key : String} {value : ν} {body' : JsonObject ν}

/-- What a key becomes as a path. -/
theorem setBytes_escape : lib.setBytes body (escapeSjsonLiteralKey key) value =
    if key = "" then .error "path cannot be empty"
    else if Plain (dropColon key.toList) then
      .ok (update body (String.ofList (dropColon key.toList)) (some value))
    else lib.setComplexPath body (escapeSjsonLiteralKey key) value := by
  by_cases hempty : key = ""
  · rw [if_pos hempty, hempty]
    exact if_pos rfl
  · have hpath : escapeSjsonLiteralKey key ≠ "" := by
      obtain ⟨c, l, hkey⟩ := exists_cons_of_ne_nil (mt String.toList_eq_nil_iff.mp hempty)
      simp only [escapeSjsonLiteralKey, hkey, flatMap_cons, escapeChar]
      split <;> simp
    rw [Sjson.setBytes, if_neg hpath, if_neg hempty, escapeSjsonLiteralKey, String.toList_ofList,
      dropColon_escape, readKeys_escape]
    by_cases hplain : Plain (dropColon key.toList)
    · rw [if_pos hplain, if_pos hplain]
    · rw [if_neg hplain, if_neg hplain]

theorem setBytes_literal (h : LiteralKey key) :
    lib.setBytes body (escapeSjsonLiteralKey key) value = .ok (update body key (some value)) := by
  obtain ⟨hne, hcolon, hops⟩ := h
  rw [setBytes_escape, if_neg hne, dropColon, if_neg hcolon, if_pos hops, String.ofList_toList]

/-- Another key adds at most what is left of it without its colon. -/
theorem setBytes_other (h : ¬ LiteralKey key)
    (hset : lib.setBytes body (escapeSjsonLiteralKey key) value = .ok body')
    {other : String} (hnone : body other = none) :
    body' other = none ∨ key.toList = ':' :: other.toList := by
  rw [setBytes_escape] at hset
  split_ifs at hset with hempty hplain
  · cases hset
    by_cases hother : other = String.ofList (dropColon key.toList)
    · by_cases hcolon : key.toList.head? = some ':'
      · obtain ⟨l, hl⟩ := head?_eq_some_iff.mp hcolon
        exact .inr (by simp [hother, hl, dropColon])
      · rw [dropColon, if_neg hcolon] at hplain
        exact absurd ⟨hempty, hcolon, hplain⟩ h
    · exact .inl ((update_of_ne hother ..).trans hnone)
  · exact .inl (lib.complex_none hset other hnone)

/-! ### Whole overrides -/

theorem applyOperationsLegacy_keeps {P : JsonObject ν → Prop} {entries : List (Σ _ : String, ν)}
    (hstep : ∀ entry ∈ entries, ∀ body body',
      lib.setBytes body (escapeSjsonLiteralKey entry.1) entry.2 = .ok body' →
      P body → P body') (hrun : applyOperationsLegacy lib body entries = .ok body') (h : P body) :
    P body' := by
  induction entries generalizing body with
  | nil =>
    cases hrun
    exact h
  | cons entry entries ih =>
    obtain ⟨hfirst, hrest⟩ := forall_mem_cons.mp hstep
    rw [applyOperationsLegacy, foldlM_cons] at hrun
    cases hset : lib.setBytes body (escapeSjsonLiteralKey entry.1) entry.2 with
    | error e =>
      rw [hset] at hrun
      cases hrun
    | ok next =>
      rw [hset] at hrun
      exact ih hrest hrun (hfirst body next hset h)

theorem applyOperationsLegacy_literal {order : List (Σ _ : String, ν)} (hnodup : order.NodupKeys)
    (hliteral : ∀ key ∈ order.keys, LiteralKey key) (body : JsonObject ν) :
    applyOperationsLegacy lib body order = .ok fun key => (order.dlookup key).or (body key) := by
  induction order generalizing body with
  | nil => rfl
  | cons entry order ih =>
    obtain ⟨key, value⟩ := entry
    obtain ⟨hnew, hrest⟩ := nodupKeys_cons.mp hnodup
    rw [keys_cons, forall_mem_cons] at hliteral
    have hrun := ih hrest hliteral.2 (update body key (some value))
    rw [applyOperationsLegacy, foldlM_cons, setBytes_literal hliteral.1]
    refine hrun.trans (congrArg _ (funext fun k => ?_))
    by_cases hk : k = key
    · subst hk
      rw [dlookup_cons_eq, dlookup_eq_none.mpr hnew, update_self]
      rfl
    · rw [dlookup_cons_ne _ _ hk, update_of_ne hk]

theorem sets_literal_keys_iff (lib : Sjson ν) (override : Dict String ν) :
    (∀ body order, order.Perm override.entries →
      applyOperationsLegacy lib body order = .ok fun key => (override.lookup key).or (body key)) ↔
    ∀ key ∈ override.keys, LiteralKey key := by
  constructor
  · intro hsets
    by_contra hnot
    push Not at hnot
    -- the longest of the keys that are not literal cannot come from another one
    let others := override.keys.toFinset.filter fun key => ¬ LiteralKey key
    have hothers : others.Nonempty := by
      obtain ⟨key, hkey, hother⟩ := hnot
      exact ⟨key, by simp [others, hkey, hother]⟩
    obtain ⟨key, hkey, hlongest⟩ := others.exists_max_image (·.toList.length) hothers
    simp only [others, Finset.mem_filter, mem_toFinset] at hkey hlongest
    obtain ⟨value, hvalue⟩ := Dict.mem_keys_iff.mp hkey.1
    have hrun := hsets (fun _ => none) override.entries (.refl _)
    have hnone : (fun k => (override.lookup k).or none) key = none := by
      refine applyOperationsLegacy_keeps (P := fun body => body key = none)
        (fun entry hentry body body' hset h => ?_)
        hrun rfl
      by_cases hliteral : LiteralKey entry.1
      · rw [setBytes_literal hliteral] at hset
        cases hset
        refine (update_of_ne ?_ ..).trans h
        rintro rfl
        exact hkey.2 hliteral
      · refine (setBytes_other hliteral hset h).resolve_right fun hlonger => ?_
        have hle := hlongest entry.1 ⟨mem_keys_of_mem hentry, hliteral⟩
        rw [hlonger, length_cons] at hle
        omega
    simp [hvalue] at hnone
  · intro hliteral body order hperm
    have hnodup : order.NodupKeys := (perm_nodupKeys hperm).mpr override.nodupKeys
    rw [applyOperationsLegacy_literal hnodup fun key hkey =>
      hliteral key ((hperm.map _).mem_iff.mp hkey)]
    refine congrArg _ (funext fun key => ?_)
    rw [perm_dlookup key hnodup hperm]
    rfl

/-- A key with a dot, and one with a wildcard. -/
def dottedOverride : Dict String Nat := ((∅ : Dict String Nat).insert "x*" 2).insert "a.b" 1

theorem sets_literal_keys_dotted :
    applyOperationsLegacy Sjson.flat (fun _ => none) [⟨"x*", 2⟩, ⟨"a.b", 1⟩] =
      .ok fun key => (dottedOverride.lookup key).or none := by
  have hliteral : ∀ key ∈ dottedOverride.keys, LiteralKey key :=
    forall_mem_cons.mpr
      ⟨by simp [LiteralKey, Plain], forall_mem_singleton.mpr (by simp [LiteralKey, Plain])⟩
  exact (sets_literal_keys_iff Sjson.flat dottedOverride).mpr hliteral _ _ (.swap ..)

/-- A key with a colon in front is set without it. -/
theorem colon_dropped : ∃ body' : JsonObject Nat,
    applyOperationsLegacy Sjson.flat (fun _ => none) [⟨":a", 1⟩] = .ok body' ∧
      body' ":a" = none ∧ body' "a" = some 1 :=
  ⟨update (fun _ => none) "a" (some 1), rfl, by decide, by decide⟩
