/-
The cache of compiled billing expressions, under calls that interleave.

Each locked section is one step: a lookup, an insert that first empties a full cache, an
invalidation.  `UsedVars` compiles an expression that it does not find, and then looks it up
again.  Of the other calls, only the inserts and the invalidations change the cache.

* `ExprLang.extractUsedVars`, `mem_extractUsedVars` — the walk over the nodes of a program finds the
  identifiers that occur in it, and nothing else;
* `UsedVarsCall.next` — the locked sections of `UsedVars`;
* `usedVars_of_entryStays` — in every run that does not empty the cache right before the second
  lookup, `UsedVars` returns the variables of its expression;
* `flushed_before_read` — a compilation that fills the cache, another one that empties it, and no
  variables.
-/
import AcuGateway.Lib.Dict
import AcuGateway.Lib.Run
import AcuGateway.Lib.Text

/-! ### The variables of a program -/

/-- The tree of a program: its identifiers, and the nodes of all other kinds. -/
inductive ExprNode
  | identifier (value : String)
  | other (children : List ExprNode)

namespace ExprNode

mutual

/-- The nodes of a tree as the library visits them, children first. -/
def walk : ExprNode → List ExprNode
  | .identifier value => [.identifier value]
  | .other children => walkAll children ++ [.other children]

def walkAll : List ExprNode → List ExprNode
  | [] => []
  | child :: children => child.walk ++ walkAll children

end

/-- An identifier occurs in a tree. -/
inductive Occurs (name : String) : ExprNode → Prop
  | here : Occurs name (.identifier name)
  | inside {child : ExprNode} {children : List ExprNode} (hchild : child ∈ children)
    (h : Occurs name child) : Occurs name (.other children)

variable {name : String}

mutual

theorem mem_walk_iff : (node : ExprNode) → .identifier name ∈ node.walk ↔ Occurs name node
  | .identifier value => by
    rw [walk, List.mem_singleton]
    exact ⟨fun h => h ▸ .here, fun h => by cases h; rfl⟩
  | .other children => by
    rw [walk, List.mem_append, List.mem_singleton, mem_walkAll_iff children]
    refine ⟨fun h => ?_, fun h => ?_⟩
    · obtain ⟨child, hchild, hoccurs⟩ := h.resolve_right nofun
      exact .inside hchild hoccurs
    · cases h with
      | inside hchild hoccurs => exact .inl ⟨_, hchild, hoccurs⟩

theorem mem_walkAll_iff : (children : List ExprNode) →
    (.identifier name ∈ walkAll children ↔ ∃ child ∈ children, Occurs name child)
  | [] => by simp [walkAll]
  | child :: children => by
    rw [walkAll, List.mem_append, mem_walk_iff child, mem_walkAll_iff children,
      List.exists_mem_cons_iff]

end

/-- Take the name of an identifier into the set. -/
def noteVar (vars : List String) : ExprNode → List String
  | .identifier value => vars.insert value
  | .other _ => vars

theorem mem_foldl_noteVar (l : List ExprNode) (vars : List String) :
    name ∈ l.foldl noteVar vars ↔ name ∈ vars ∨ .identifier name ∈ l := by
  induction l generalizing vars with
  | nil => simp
  | cons node l ih =>
    rw [List.foldl_cons, ih]
    cases node with
    | identifier value => simp [noteVar, or_assoc, or_left_comm]
    | other children => simp [noteVar]

end ExprNode

/-- What the cache calls of the expression language: the hash, the compiler, and the tree of a
program. -/
structure ExprLang (κ π : Type) where
  exprHashString : String → κ
  compile : String → Option π
  node : π → ExprNode

/-- The set of the identifiers, without repetition. -/
def ExprLang.extractUsedVars {κ π : Type} (lang : ExprLang κ π) (prog : π) : List String :=
  (lang.node prog).walk.foldl ExprNode.noteVar []

theorem ExprLang.mem_extractUsedVars {κ π : Type} (lang : ExprLang κ π) {prog : π} {name : String} :
    name ∈ lang.extractUsedVars prog ↔ ExprNode.Occurs name (lang.node prog) := by
  rw [extractUsedVars, ExprNode.mem_foldl_noteVar, ExprNode.mem_walk_iff]
  exact or_iff_right List.not_mem_nil

def defaultExprVersion : Nat := 1

def parseExprVersion (exprStr : String) : Nat × String :=
  if Text.hasPrefix exprStr "v1:" then (1, Text.cutPrefix exprStr "v1:")
  else (defaultExprVersion, exprStr)

/-! ### The cache -/

structure CachedEntry (π : Type) where
  prog : π
  usedVars : List String

def maxCacheSize : Nat := 256

section Steps

variable {κ π : Type} [DecidableEq κ] (lang : ExprLang κ π) (exprStr : String)

/-- The entry of an expression, unless it does not compile. -/
def ExprLang.entry : Option (CachedEntry π) :=
  (lang.compile (parseExprVersion exprStr).2).map fun prog => ⟨prog, lang.extractUsedVars prog⟩

/-- The second section of `compileFromCacheByHash`. -/
def insertEntry (cache : Dict κ (CachedEntry π)) (hash : κ) (entry : CachedEntry π) :
    Dict κ (CachedEntry π) :=
  (if maxCacheSize ≤ cache.keys.length then ∅ else cache).insert hash entry

inductive CachePhase
  | start
  /-- Not found by `UsedVars`, to be looked up by `compileFromCacheByHash`. -/
  | missed
  | compiling
  | compiled
  | returned (usedVars : Option (List String))
deriving DecidableEq

/-- The cache, and how far one call of `UsedVars` has come. -/
structure UsedVarsCall (κ π : Type) where
  cache : Dict κ (CachedEntry π)
  phase : CachePhase := .start

variable (s : UsedVarsCall κ π)

/-- The next section of `UsedVars`. -/
def UsedVarsCall.next : UsedVarsCall κ π :=
  let found := s.cache.lookup (lang.exprHashString exprStr)
  match s.phase with
  | .start =>
    if exprStr = "" then { s with phase := .returned none }
    else
      match found with
      | some entry => { s with phase := .returned (some entry.usedVars) }
      | none => { s with phase := .missed }
  | .missed => { s with phase := if found.isSome then .compiled else .compiling }
  | .compiling =>
    match lang.entry exprStr with
    | none => { s with phase := .returned none }
    | some entry => ⟨insertEntry s.cache (lang.exprHashString exprStr) entry, .compiled⟩
  | .compiled => { s with phase := .returned (found.map CachedEntry.usedVars) }
  | .returned _ => s

inductive CacheStep
  | next
  /-- Another call inserts the expression it has compiled. -/
  | insert (exprStr : String)
  | invalidateCache
deriving DecidableEq

def UsedVarsCall.step : CacheStep → UsedVarsCall κ π
  | .next => s.next lang exprStr
  | .insert other =>
    match lang.entry other with
    | none => s
    | some entry => { s with cache := insertEntry s.cache (lang.exprHashString other) entry }
  | .invalidateCache => { s with cache := ∅ }

/-- The cache is not emptied between the compilation and the second lookup, and no other expression
with this hash gets into it. -/
def EntryStays : CacheStep → Prop
  | .next => True
  | .insert other =>
    (lang.exprHashString exprStr = lang.exprHashString other → exprStr = other) ∧
      (s.phase = .compiled → s.cache.keys.length < maxCacheSize)
  | .invalidateCache => s.phase ≠ .compiled

/-- Under the hash of the expression there is at most its own entry, which is there until it has
been read; what was returned is read from it. -/
structure Faithful (exprStr : String) (s : UsedVarsCall κ π) : Prop where
  own : ∀ entry, s.cache.lookup (lang.exprHashString exprStr) = some entry →
    lang.entry exprStr = some entry
  kept : s.phase = .compiled → ∃ entry, s.cache.lookup (lang.exprHashString exprStr) = some entry
  answer : ∀ usedVars, s.phase = .returned usedVars →
    usedVars = (lang.entry exprStr).map CachedEntry.usedVars

/-! ### One step -/

open UsedVarsCall

variable {lang} {exprStr : String} {s : UsedVarsCall κ π}

/-- Inserting an entry drops all others or none. -/
theorem lookup_insertEntry (cache : Dict κ (CachedEntry π)) (hash k : κ) (entry : CachedEntry π) :
    (insertEntry cache hash entry).lookup k = if k = hash then some entry
      else if maxCacheSize ≤ cache.keys.length then none else cache.lookup k := by
  unfold insertEntry
  rw [Dict.lookup_insert_of]
  split_ifs <;> rfl

theorem Faithful.next (h : Faithful lang exprStr s) (hne : exprStr ≠ "") :
    Faithful lang exprStr (s.next lang exprStr) := by
  obtain ⟨hown, hkept, hanswer⟩ := h
  unfold UsedVarsCall.next
  cases hphase : s.phase with
  | start =>
    dsimp only
    rw [if_neg hne]
    cases hfound : s.cache.lookup (lang.exprHashString exprStr) with
    | none => exact ⟨hown, nofun, nofun⟩
    | some entry =>
      refine ⟨hown, nofun, fun usedVars heq => ?_⟩
      rw [hown entry hfound, ← CachePhase.returned.inj heq]
      rfl
  | missed =>
    refine ⟨hown, fun heq => ?_, fun usedVars heq => ?_⟩
    · -- compiling follows only if the expression compiles
      exact Option.isSome_iff_exists.mp (by_contra fun h => nomatch (if_neg h).symm.trans heq)
    · dsimp only at heq
      split_ifs at heq
  | compiling =>
    cases hentry : lang.entry exprStr with
    | none =>
      exact ⟨hown, nofun, fun usedVars heq => by rw [hentry, ← CachePhase.returned.inj heq]; rfl⟩
    | some entry =>
      have hfound : (insertEntry s.cache (lang.exprHashString exprStr) entry).lookup
          (lang.exprHashString exprStr) = some entry := AList.lookup_insert _
      exact ⟨fun e he => by rw [hentry, ← hfound, ← he], fun _ => ⟨entry, hfound⟩, nofun⟩
  | compiled =>
    obtain ⟨entry, hfound⟩ := hkept hphase
    refine ⟨hown, nofun, fun usedVars heq => ?_⟩
    rw [← CachePhase.returned.inj heq, hfound, hown entry hfound]
  | returned usedVars => exact ⟨hown, hkept, hanswer⟩

theorem Faithful.step (h : Faithful lang exprStr s) (hne : exprStr ≠ "") {a : CacheStep}
    (ha : EntryStays lang exprStr s a) : Faithful lang exprStr (s.step lang exprStr a) := by
  cases a with
  | next => exact h.next hne
  | invalidateCache => exact ⟨nofun, fun hphase => absurd hphase ha, h.answer⟩
  | insert other =>
    unfold UsedVarsCall.step
    dsimp only
    cases hother : lang.entry other with
    | none => exact h
    | some entry =>
      refine ⟨fun e => ?_, fun hphase => ?_, h.answer⟩
      · rw [lookup_insertEntry]
        split_ifs with heq hfull
        · rw [ha.1 heq, hother]
          exact id
        · exact nofun
        · exact h.own e
      · -- the cache has room, so that the entry stays
        rw [lookup_insertEntry, if_neg (not_le.mpr (ha.2 hphase))]
        split_ifs
        · exact ⟨entry, rfl⟩
        · exact h.kept hphase

/-! ### Runs -/

/-- How many sections a call has left, at most. -/
def CachePhase.left : CachePhase → Nat
  | .start => 4
  | .missed => 3
  | .compiling => 2
  | .compiled => 1
  | .returned _ => 0

theorem left_next : (s.next lang exprStr).phase.left ≤ s.phase.left - 1 := by
  unfold next
  cases hphase : s.phase with
  | returned usedVars =>
    dsimp only
    rw [hphase]
    exact Nat.zero_le _
  | _ =>
    dsimp only
    repeat' split
    all_goals simp [CachePhase.left]

theorem left_exec (l : List CacheStep) :
    (Run.exec (step lang exprStr) s l).phase.left ≤ s.phase.left - l.count .next := by
  induction l generalizing s with
  | nil => exact le_rfl
  | cons a l ih =>
    refine Nat.le_trans ih ?_
    -- other calls change the cache, not the phase
    cases a with
    | next =>
      have : (s.step lang exprStr .next).phase.left ≤ _ := left_next
      rw [List.count_cons_self]
      omega
    | insert other =>
      rw [List.count_cons_of_ne (show CacheStep.insert other ≠ .next from nofun), step]
      cases lang.entry other <;> exact le_rfl
    | invalidateCache =>
      rw [List.count_cons_of_ne (by decide)]
      exact le_rfl

/-- **The variables of an expression are its variables.**  Over every run of a call for a valid
expression, with compilations of any expressions and invalidations in between: what it returns is
the set of the identifiers of the expression, and it returns after four sections. -/
theorem usedVars_of_entryStays (lang : ExprLang κ π) (exprStr : String) (prog : π)
    (cache : Dict κ (CachedEntry π)) (l : List CacheStep) (hne : exprStr ≠ "")
    (hvalid : lang.compile (parseExprVersion exprStr).2 = some prog)
    (hcache : ∀ entry, cache.lookup (lang.exprHashString exprStr) = some entry →
      lang.entry exprStr = some entry)
    (hl : Run.Along (EntryStays lang exprStr) (step lang exprStr) ⟨cache, .start⟩ l) :
    (∀ usedVars, (Run.exec (step lang exprStr) ⟨cache, .start⟩ l).phase = .returned usedVars →
        ∃ vars, usedVars = some vars ∧ ∀ name, name ∈ vars ↔
          ExprNode.Occurs name (lang.node prog)) ∧
      (4 ≤ l.count .next → ∃ usedVars,
        (Run.exec (step lang exprStr) ⟨cache, .start⟩ l).phase = .returned usedVars) := by
  have hend := Run.exec_invariant_along (fun _ _ h ha => h.step hne ha)
    (show Faithful lang exprStr ⟨cache, .start⟩ from ⟨hcache, nofun, nofun⟩) hl
  have hleft := @left_exec _ _ _ lang exprStr ⟨cache, .start⟩ l
  refine ⟨fun usedVars hphase => ?_, fun hcount => ?_⟩
  · refine ⟨lang.extractUsedVars prog, ?_, fun name => lang.mem_extractUsedVars⟩
    rw [hend.answer usedVars hphase, ExprLang.entry, hvalid]
    rfl
  · cases hphase : (Run.exec (step lang exprStr) ⟨cache, .start⟩ l).phase with
    | returned usedVars => exact ⟨usedVars, rfl⟩
    | _ =>
      rw [hphase] at hleft
      simp only [CachePhase.left] at hleft
      omega

end Steps

/-- A language of single variables. -/
def oneVariable : ExprLang Nat String :=
  ⟨fun exprStr => if exprStr = "cr" then 0 else 1, some, fun prog => .other [.identifier prog]⟩

/-- Another expression is inserted into a cache that has room. -/
theorem usedVars_alone : oneVariable.compile (parseExprVersion "cr").2 = some "cr" ∧
      ∀ usedVars, (Run.exec (UsedVarsCall.step oneVariable "cr") ⟨∅, .start⟩
        [.next, .next, .next, .insert "p", .next]).phase = .returned usedVars →
        ∃ vars, usedVars = some vars ∧ ∀ name, name ∈ vars ↔
          ExprNode.Occurs name (.other [.identifier "cr"]) :=
  ⟨by decide +kernel,
    (usedVars_of_entryStays oneVariable "cr" "cr" ∅ [.next, .next, .next, .insert "p", .next]
    (by decide) (by decide +kernel) nofun
    ⟨trivial, trivial, trivial, ⟨by decide, fun _ => by decide +kernel⟩, trivial, trivial⟩).1⟩

/-- With 255 other expressions in the cache, the expression of the call fills it; the insert of the
next one empties it before the call looks up its own again. -/
theorem flushed_before_read : oneVariable.extractUsedVars "cr" = ["cr"] ∧
    (Run.exec (UsedVarsCall.step oneVariable "cr")
        ⟨(List.range 255).foldl (fun cache n => cache.insert (n + 2) ⟨"c", ["c"]⟩) ∅, .start⟩
        [.next, .next, .next, .insert "p", .next]).phase = .returned none := by
  decide +kernel
