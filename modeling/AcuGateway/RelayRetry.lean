/-
The retries of a relayed request.

A request for the group `auto` goes through the groups of its user.  The loop counts the retries,
but the selection of a channel sets its counter back when it changes the group, and can hold up the
next increase.

* `relay` — the loop around `cacheGetRandomSatisfiedChannel`;
* `relay_bounded` — it ends, and its selections go up, first by group and then by retry;
* `in_order_iff` — no group is left as soon as its priorities are exhausted;
* `lowest_again` — two groups of two priorities.
-/
import AcuGateway.Lib.Draw

open List

/-- With the index of the group, which the context of the request keeps. -/
structure RetryParam where
  retry : Nat
  resetNextTry : Bool
  groupIndex : Nat

def RetryParam.increaseRetry (p : RetryParam) : RetryParam :=
  if p.resetNextTry then { p with resetNextTry := false } else { p with retry := p.retry + 1 }

/-- An error of the channel is always retried. -/
def shouldRetry (isChannelError : Bool) (retryTimes : Int) : Bool :=
  isChannelError || 0 < retryTimes

/-- The settings of a request, and what its attempts meet: whether a group has a channel for a
retry, and which errors are those of the channel. -/
structure RetryEnv where
  groups : Nat
  retryTimes : Nat
  crossGroupRetry : Bool
  hasChannel : Nat → Nat → Nat → Bool
  isChannelError : Nat → Bool

namespace RetryEnv

variable (env : RetryEnv)

/-- The search of attempt `k` from group `i` on, with `left` groups to go. -/
def searchGroups (k startGroupIndex : Nat) :
    Nat → Nat → RetryParam → RetryParam × Option (Nat × Nat)
  | 0, _, p => (p, none)
  | left + 1, i, p =>
    let priorityRetry := if startGroupIndex < i then 0 else p.retry
    if env.hasChannel k i priorityRetry then
      (if env.crossGroupRetry ∧ env.retryTimes ≤ priorityRetry then
        { groupIndex := i + 1, retry := 0, resetNextTry := true }
      else { p with groupIndex := i }, some (i, priorityRetry))
    else searchGroups k startGroupIndex left (i + 1) { p with groupIndex := i + 1, retry := 0 }

/-- The group and the retry within it for which a channel is found. -/
def cacheGetRandomSatisfiedChannel (k : Nat) (p : RetryParam) : RetryParam × Option (Nat × Nat) :=
  env.searchGroups k p.groupIndex (env.groups - p.groupIndex) p.groupIndex p

/-- The selections from attempt `k` on, each of which fails, if the fuel is enough. -/
def retries : Nat → Nat → RetryParam → Option (List (Nat × Nat))
  | 0, _, _ => none
  | fuel + 1, k, p =>
    if env.retryTimes < p.retry then some []
    else match env.cacheGetRandomSatisfiedChannel k p with
      | (_, none) => some []
      | (p', some selection) =>
        if shouldRetry (env.isChannelError k) (env.retryTimes - p'.retry) then
          (retries fuel (k + 1) p'.increaseRetry).map (selection :: ·)
        else some [selection]

/-- The first attempt has the channel of the context, where an index may be left. -/
def relay (fuel groupIndex : Nat) : Option (List (Nat × Nat)) :=
  if shouldRetry (env.isChannelError 0) env.retryTimes then
    env.retries fuel 1 (RetryParam.increaseRetry { retry := 0, resetNextTry := false, groupIndex })
  else some []

/-! ### The end of the loop -/

/-- A later group, or a later retry in the same group. -/
def Before (a b : Nat × Nat) : Prop := a.1 < b.1 ∨ a.1 = b.1 ∧ a.2 < b.2

/-- The counters with which the loop goes on after a selection. -/
def Next (a : Nat × Nat) (p : RetryParam) : Prop :=
  p = ⟨0, false, a.1 + 1⟩ ∨ p = ⟨a.2 + 1, false, a.1⟩

/-- The number of a selection, if each group has as many as it may. -/
def place (a : Nat × Nat) : Nat := a.1 * (env.retryTimes + 1) + a.2

variable {env} {p p' : RetryParam} {a b : Nat × Nat} {k : Nat}

theorem place_lt (ha : a.2 ≤ env.retryTimes) (h : Before a b) : env.place a < env.place b := by
  unfold place
  rcases h with hgroup | ⟨hsame, hretry⟩
  · have hmul := Nat.mul_le_mul_right (env.retryTimes + 1) (Nat.succ_le_of_lt hgroup)
    rw [Nat.succ_mul] at hmul
    omega
  · rw [hsame]
    omega

theorem searchGroups_found {start left i : Nat} (hstart : start ≤ i)
    (hretry : start < i → p.retry = 0)
    (hreset : p.resetNextTry = false) (h : env.searchGroups k start left i p = (p', some b)) :
    b.1 < i + left ∧ (b = (i, p.retry) ∨ i < b.1 ∧ b.2 = 0) ∧ Next b p'.increaseRetry := by
  induction left generalizing i p with
  | zero => cases h
  | succ left ih =>
    have hpriority : (if start < i then 0 else p.retry) = p.retry := by
      split
      · exact (hretry ‹_›).symm
      · rfl
    rw [searchGroups, hpriority] at h
    -- a group without a channel is passed over, and its retries start again
    by_cases hhas : env.hasChannel k i p.retry = true
    · rw [if_pos hhas] at h
      obtain ⟨rfl, hb⟩ := Prod.mk.inj h
      obtain rfl := Option.some.inj hb
      refine ⟨Nat.lt_add_of_pos_right (Nat.succ_pos left), .inl rfl, ?_⟩
      split
      · exact .inl rfl
      · exact .inr (by simp [RetryParam.increaseRetry, hreset])
    · rw [if_neg hhas] at h
      obtain ⟨hlt, hat, hnext⟩ :=
        ih (p := { p with groupIndex := i + 1, retry := 0 }) (Nat.le_succ_of_le hstart)
        (fun _ => rfl) hreset h
      refine ⟨by omega, .inr ?_, hnext⟩
      rcases hat with rfl | ⟨hgt, hzero⟩
      · exact ⟨Nat.lt_succ_self i, rfl⟩
      · exact ⟨Nat.lt_of_succ_lt hgt, hzero⟩

theorem found_next (h : Next a p) (hretry : p.retry ≤ env.retryTimes)
    (hfound : env.cacheGetRandomSatisfiedChannel k p = (p', some b)) :
    Before a b ∧ b.1 < env.groups ∧ b.2 ≤ env.retryTimes ∧ Next b p'.increaseRetry := by
  have hreset : p.resetNextTry = false := by rcases h with rfl | rfl <;> rfl
  obtain ⟨hlt, hat, hnext⟩ :=
    searchGroups_found (Nat.le_refl _) (fun h => absurd h (Nat.lt_irrefl _)) hreset hfound
  have hplace : (p.groupIndex < b.1 ∧ b.2 = 0) ∨ p.groupIndex = b.1 ∧ p.retry = b.2 := by
    rcases hat with rfl | hlater
    · exact .inr ⟨rfl, rfl⟩
    · exact .inl hlater
  refine ⟨?_, by omega, by omega, hnext⟩
  unfold Before
  rcases h with rfl | rfl <;> dsimp only at hplace <;> omega

variable {fuel : Nat}

theorem retries_bounded (h : Next a p) (ha : a.2 ≤ env.retryTimes) (hpos : fuel ≠ 0)
    (hfuel : env.groups * (env.retryTimes + 1) ≤ env.place a + fuel) :
    ∃ selections, env.retries fuel k p = some selections ∧
      selections.length ≤ env.groups * (env.retryTimes + 1) - env.place a ∧
        (a :: selections).IsChain Before := by
  induction fuel generalizing k p a with
  | zero => exact absurd rfl hpos
  | succ fuel ih =>
    rw [retries]
    by_cases hover : env.retryTimes < p.retry
    · exact ⟨[], if_pos hover, Nat.zero_le _, .singleton a⟩
    rw [if_neg hover]
    match hfound : env.cacheGetRandomSatisfiedChannel k p with
    | (_, none) => exact ⟨[], rfl, Nat.zero_le _, .singleton a⟩
    | (p', some b) =>
      -- each selection is later in the order of groups and retries, which is finite
      obtain ⟨hbefore, hgroup, hb, hnext⟩ := found_next h (Nat.le_of_not_lt hover) hfound
      have hplace := place_lt ha hbefore
      have hbelow : env.place b < env.groups * (env.retryTimes + 1) :=
        place_lt (b := (env.groups, 0)) hb (.inl hgroup)
      dsimp only
      by_cases hretry : shouldRetry (env.isChannelError k) (env.retryTimes - p'.retry) = true
      · obtain ⟨rest, hrest, hlength, hchain⟩ := ih (k := k + 1) hnext hb (by omega) (by omega)
        rw [if_pos hretry, hrest]
        refine ⟨b :: rest, rfl, ?_, .cons_cons hbefore hchain⟩
        rw [length_cons]
        omega
      · rw [if_neg hretry]
        refine ⟨[b], rfl, ?_, .cons_cons hbefore (.singleton b)⟩
        rw [length_singleton]
        omega

/-- The loop ends, and its selections go up from the one before it. -/
theorem relay_bounded (env : RetryEnv) (groupIndex : Nat) :
    ∃ selections, env.relay (env.groups * (env.retryTimes + 1) + 1) groupIndex = some selections ∧
      1 + selections.length ≤ env.groups * (env.retryTimes + 1) + 1 ∧
      ((groupIndex, 0) :: selections).IsChain Before := by
  rw [relay]
  split
  · have hnext : Next (groupIndex, 0) ⟨1, false, groupIndex⟩ := .inr rfl
    obtain ⟨selections, hrun, hlength, hchain⟩ :=
      retries_bounded (k := 1) hnext (Nat.zero_le _) (Nat.succ_ne_zero _)
      (Nat.le_succ_of_le (Nat.le_add_left _ _))
    exact ⟨selections, hrun, by omega, hchain⟩
  · exact ⟨[], rfl, by rw [length_nil]; omega, .singleton _⟩

/-! ### The order of the priorities -/

section Order

variable (groups : List (List Int)) (retryTimes : Nat)

/-- The priority of the channel that a group gives for a retry: after the last one it is the lowest
again. -/
def priorityAt (i retry : Nat) : Option Int := groups[i]?.bind (Draw.level · retry)

/-- Every group with its priorities, the highest one first. -/
def documented : List (Nat × Option Int) :=
  groups.zipIdx.flatMap fun entry => (Draw.levels entry.1).map fun priority =>
    (entry.2, some priority)

variable (isChannelError : Nat → Bool)

/-- Groups with channels of the given priorities. -/
def ofPriorities : RetryEnv :=
  ⟨groups.length, retryTimes, true, fun _ i retry => (priorityAt groups i retry).isSome,
    isChannelError⟩

/-- All selections for a request, of which the first one is made before the loop. -/
def visited (fuel : Nat) : Option (List (Nat × Option Int)) :=
  let env := ofPriorities groups retryTimes isChannelError
  match env.cacheGetRandomSatisfiedChannel 0 ⟨0, false, 0⟩ with
  | (_, none) => some []
  | (p, some first) => (env.relay fuel p.groupIndex).map fun selections =>
    (first :: selections).map fun a => (a.1, priorityAt groups a.1 a.2)

/-- Each priority is visited once, in the documented order. -/
def InOrder : Prop :=
  ∀ isChannelError, ∃ fuel, visited groups retryTimes isChannelError fuel = some (documented groups)

variable {groups retryTimes} {first : List Int} {rest : List (List Int)} {q : Nat}
  {isChannelError : Nat → Bool}

variable (hne : first ≠ [])

include hne

theorem found_first :
    (ofPriorities (first :: rest) retryTimes isChannelError).cacheGetRandomSatisfiedChannel k
      ⟨q, false, 0⟩ = (if retryTimes ≤ q then ⟨0, true, 1⟩ else ⟨q, false, 0⟩, some (0, q)) := by
  have hhas : ∀ retry, (priorityAt (first :: rest) 0 retry).isSome = true := by
    intro retry
    rw [Option.isSome_iff_ne_none]
    exact fun hnone => hne (Draw.level_eq_none.mp hnone)
  simp [cacheGetRandomSatisfiedChannel, ofPriorities, searchGroups, hhas]

/-- The first group is asked until its retries are used up. -/
theorem le_length_retries {selections : List (Nat × Nat)} (hq : q ≤ retryTimes)
    (h : (ofPriorities (first :: rest) retryTimes fun _ => true).retries fuel k ⟨q, false, 0⟩ =
      some selections) :
    retryTimes < q + selections.length := by
  induction fuel generalizing k q selections with
  | zero => cases h
  | succ fuel ih =>
    have hle : ¬ retryTimes < RetryParam.retry ⟨q, false, 0⟩ := Nat.not_lt.mpr hq
    rw [retries, ofPriorities, if_neg hle, ← ofPriorities, found_first hne] at h
    obtain ⟨rest, hrest, rfl⟩ := Option.map_eq_some_iff.mp h
    rw [length_cons]
    by_cases hlast : retryTimes ≤ q
    · omega
    · rw [if_neg hlast] at hrest
      have hmore := ih (Nat.lt_of_not_le hlast) hrest
      omega

/-- The first group alone is visited more often than there are priorities. -/
theorem not_inOrder (hretries : (documented (first :: rest)).length ≤ retryTimes) :
    ¬ InOrder (first :: rest) retryTimes := by
  intro h
  obtain ⟨fuel, hvisited⟩ := h fun _ => true
  rw [visited, found_first hne] at hvisited
  obtain ⟨selections, hrun, hall⟩ := Option.map_eq_some_iff.mp hvisited
  rw [← hall, length_map, length_cons] at hretries
  rw [if_neg (by omega)] at hrun
  have hmore := le_length_retries (q := 1) hne (by omega) hrun
  omega

end Order

theorem in_order_iff (groups : List (List Int)) (retryTimes : Nat)
    (hne : ∀ priorities ∈ groups, priorities ≠ [])
    (hretries : (documented groups).length ≤ retryTimes) :
    InOrder groups retryTimes ↔ groups = [] := by
  constructor
  · intro h
    match groups with
    | [] => rfl
    | first :: rest => exact absurd h (not_inOrder (hne first mem_cons_self) hretries)
  · rintro rfl isChannelError
    exact ⟨0, rfl⟩

theorem in_order_iff_two : (documented [[2, 1], [2, 1]]).length = 4 ∧
    (InOrder [[2, 1], [2, 1]] 4 ↔ ([[2, 1], [2, 1]] : List (List Int)) = []) :=
  ⟨rfl, in_order_iff _ 4 (by decide) (by decide)⟩

/-- Two groups of two priorities. -/
theorem lowest_again : ¬ InOrder [[2, 1], [2, 1]] 4 := not_inOrder (by decide) (by decide)

end RetryEnv
