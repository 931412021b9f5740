/-
Calls that run at the same time.

The calls share a state `σ`, and each has a state `τ` of its own: how far it has come and what it
has read.  A run is a list of steps, each of one call, in any order.  A call may hold locks
(`Locks`), and keeps the others from taking them.

* `Threads.Kept` — what the steps of one call do to the shared state, to the call itself and to the
  others;
* `Threads.exec_holds` — what the steps keep, a run keeps;
* `Locks.take_of_ne`, `Locks.release_of_ne` — the locks of the others stay.
-/
import AcuGateway.Lib.Run
import Mathlib.Logic.Function.Basic

universe u v w

/-! ### Calls -/

/-- A shared state, and the state of each call. -/
structure Threads (σ : Type u) (τ : Type v) where
  shared : σ
  thread : Nat → τ

namespace Threads

variable {σ : Type u} {τ : Type v} {α : Type w} (f : Nat → σ → τ → α → σ × τ) (c : Threads σ τ)

/-- The call `a.1` takes the step `a.2`. -/
def step (a : Nat × α) : Threads σ τ where
  shared := (f a.1 c.shared (c.thread a.1) a.2).1
  thread := Function.update c.thread a.1 (f a.1 c.shared (c.thread a.1) a.2).2

@[simp] theorem step_shared (a : Nat × α) :
    (step f c a).shared = (f a.1 c.shared (c.thread a.1) a.2).1 := rfl

@[simp] theorem step_thread_self (a : Nat × α) :
    (step f c a).thread a.1 = (f a.1 c.shared (c.thread a.1) a.2).2 := Function.update_self ..

variable {a : Nat × α}

theorem step_thread_of_ne {j : Nat} (h : j ≠ a.1) : (step f c a).thread j = c.thread j :=
  Function.update_of_ne h ..

variable {f : Nat → σ → τ → α → σ × τ} {P : Nat → σ → τ → α → Prop} {Inv : σ → Prop}
  {Own : Nat → σ → τ → Prop}

/-- A condition on a step, as one on the whole state. -/
def Allowed (P : Nat → σ → τ → α → Prop) (c : Threads σ τ) (a : Nat × α) : Prop :=
  P a.1 c.shared (c.thread a.1) a.2

instance [∀ i s t a, Decidable (P i s t a)] (c : Threads σ τ) (a : Nat × α) :
    Decidable (Allowed P c a) :=
  inferInstanceAs (Decidable (P a.1 c.shared (c.thread a.1) a.2))

/-- An invariant of the shared state, and what each call knows of it. -/
structure Holds (Inv : σ → Prop) (Own : Nat → σ → τ → Prop) (c : Threads σ τ) : Prop where
  inv : Inv c.shared
  own : ∀ i, Own i c.shared (c.thread i)

/-- The steps of a call keep the invariant and what every call knows. -/
structure Kept (f : Nat → σ → τ → α → σ × τ) (P : Nat → σ → τ → α → Prop) (Inv : σ → Prop)
    (Own : Nat → σ → τ → Prop) : Prop where
  inv : ∀ {i s t a}, Inv s → Own i s t → P i s t a → Inv (f i s t a).1
  own : ∀ {i s t a}, Inv s → Own i s t → P i s t a → Own i (f i s t a).1 (f i s t a).2
  others : ∀ {i j s t t' a}, j ≠ i → Inv s → Own i s t → P i s t a → Own j s t' →
    Own j (f i s t a).1 t'

theorem Kept.step_holds (h : Kept f P Inv Own) {c : Threads σ τ} (hc : Holds Inv Own c)
    (ha : Allowed P c a) : Holds Inv Own (step f c a) where
  inv := h.inv hc.inv (hc.own a.1) ha
  own := by
    intro j
    by_cases hj : j = a.1
    · subst hj
      rw [step_shared, step_thread_self]
      exact h.own hc.inv (hc.own a.1) ha
    · rw [step_shared, step_thread_of_ne f c hj]
      exact h.others hj hc.inv (hc.own a.1) ha (hc.own j)

/-- What the steps of the calls keep, a run keeps. -/
theorem Kept.exec_holds (h : Kept f P Inv Own) {c : Threads σ τ} (hc : Holds Inv Own c)
    {l : List (Nat × α)}
    (hl : Run.Along (Allowed P) (step f) c l) : Holds Inv Own (Run.exec (step f) c l) :=
  Run.exec_invariant_along (fun _ _ hc ha => h.step_holds hc ha) hc hl

end Threads

/-! ### Locks -/

/-- Which call holds the lock on a row. -/
def Locks (κ : Type u) := κ → Option Nat

namespace Locks

variable {κ : Type u}

/-- No other call holds the lock. -/
def Free (locks : Locks κ) (i : Nat) (k : κ) : Prop := ∀ j ∈ locks k, j = i
deriving Decidable

def none : Locks κ := fun _ => Option.none

def take [DecidableEq κ] (locks : Locks κ) (i : Nat) (k : κ) : Locks κ :=
  fun k' => if k' = k then some i else locks k'

/-- A call gives all its locks back. -/
def release (locks : Locks κ) (i : Nat) : Locks κ :=
  fun k => if locks k = some i then Option.none else locks k

variable [DecidableEq κ] {locks : Locks κ} {i j : Nat} {k : κ}

@[simp] theorem take_self (locks : Locks κ) (i : Nat) (k : κ) : locks.take i k k = some i :=
  if_pos rfl

/-- A lock that another call holds is not taken. -/
theorem take_of_ne {k' : κ} (hfree : locks.Free i k) (hj : j ≠ i) (h : locks k' = some j) :
    locks.take i k k' = some j := by
  have hne : k' ≠ k := by
    intro heq
    rw [heq] at h
    exact hj (hfree j h)
  rw [take, if_neg hne, h]

theorem take_mono {k' : κ} (h : locks k' = some i) : locks.take i k k' = some i := by
  by_cases heq : k' = k
  · rw [heq, take_self]
  · rw [take, if_neg heq, h]

omit [DecidableEq κ] in
theorem release_of_ne (hj : j ≠ i) (h : locks k = some j) : locks.release i k = some j := by
  rw [release, h, if_neg]
  intro heq
  exact hj (Option.some.inj heq)

omit [DecidableEq κ] in
/-- Two calls do not hold one lock. -/
theorem owner_unique (hi : locks k = some i) (hj : locks k = some j) : j = i := by
  rw [hi] at hj
  exact (Option.some.inj hj).symm

end Locks
