/-
The keys of a channel, one after the other.

A channel with many keys that is polled remembers the position behind the last key.  The memory
cache copies this position when it is loaded again.

* `ChannelCache.polled` — what the calls between reloads return;
* `polled_eq` — the next keys around the list;
* `polling_fair` — as many calls as there are enabled keys return each of them once.
-/
import AcuGateway.ChannelCache
import Mathlib.Data.List.Rotate

open List

/-! ### Rotations -/

theorem map_mod_range (n s : Nat) : (range n).map (fun i => (s + i) % n) = (range n).rotate s := by
  refine ext_getElem (by simp) fun i hi _ => ?_
  simp [getElem_rotate, Nat.add_comm]

/-- What a filter leaves of a rotation. -/
theorem exists_filter_rotate {α : Type} (p : α → Bool) (l : List α) (s : Nat) :
    ∃ m, (l.rotate s).filter p = (l.filter p).rotate m := by
  refine ⟨((l.take (s % l.length)).filter p).length, ?_⟩
  rw [rotate_eq_drop_append_take_mod, filter_append, ← rotate_append_length_eq, ← filter_append,
    take_append_drop]

variable {rest : List Nat}

/-- Behind the first number that is left, it is the last one. -/
theorem filter_rotate_next {p : Nat → Bool} {n s b : Nat}
    (h : ((range n).rotate s).filter p = b :: rest) :
    ((range n).rotate ((b + 1) % n)).filter p = rest ++ [b] := by
  obtain ⟨before, after, hsplit, hbefore, hb, hafter⟩ := filter_eq_cons_iff.mp h
  have hlength := congrArg length hsplit
  rw [length_rotate, length_range, length_append, length_cons] at hlength
  -- the key found is as far from the start as keys were skipped
  have hat : some b = some ((before.length + s) % n) := by
    calc some b
      _ = ((range n).rotate s)[before.length]? := by simp [hsplit]
      _ = some ((before.length + s) % n) := by
        rw [getElem?_rotate (by rw [length_range]; omega), length_range,
          getElem?_range (Nat.mod_lt _ (by omega))]
  have hnext : (range n).rotate ((b + 1) % n) =
      (before ++ [b] ++ after).rotate (before ++ [b]).length := by
    rw [← append_cons, ← hsplit, rotate_rotate, ← rotate_mod _ (s + _), length_range,
      Option.some.inj hat, Nat.mod_add_mod, length_append, length_singleton, ← Nat.add_assoc,
      Nat.add_comm s]
  rw [hnext, rotate_append_length_eq, filter_append, hafter, filter_append,
    filter_eq_nil_iff.mpr hbefore, nil_append, filter_cons_of_pos hb, filter_nil]

namespace ChannelCache

/-! ### Calls and reloads -/

inductive PollAct
  | initChannelCache
  | getNextEnabledKey (random : Nat)

/-- The number of keys that are asked for. -/
def keyCalls : List PollAct → Nat
  | [] => 0
  | .initChannelCache :: acts => keyCalls acts
  | .getNextEnabledKey _ :: acts => keyCalls acts + 1

section Polling

variable (env : ChannelEnv) (channels : Table Channel.id) (abilities : List Ability) (id : Int)

/-- The keys that a channel of the cache gives. -/
def polled (cache : ChannelCache) : List PollAct → List (Except String (String × Nat))
  | [] => []
  | .initChannelCache :: acts =>
    match cache.initChannelCache channels abilities with
    | some cache => polled cache acts
    | none => []
  | .getNextEnabledKey random :: acts =>
    match cache.channels id with
    | some channel =>
      let result := cache.getNextEnabledKey env channel random
      result :: polled (cache.store id (afterKey env channel result)) acts
    | none => []

variable {env channels abilities id} {cache : ChannelCache} {row : Channel} {position : Int}

/-- A channel at a position. -/
def pollingAt (row : Channel) (position : Int) : Channel :=
  { row with channelInfo := { row.channelInfo with multiKeyPollingIndex := position } }

/-- The enabled positions from a place on, around the list. -/
def turn (env : ChannelEnv) (row : Channel) (position : Int) : List Nat :=
  ((range (row.getKeys env).length).rotate (pollStart position (row.getKeys env).length)).filter
    fun i =>
      keyStatus row i = .enabled

/-- A channel of the table that is polled for its keys. -/
structure Polled (channels : Table Channel.id) (id : Int) (row : Channel) : Prop where
  found : channels.find? id = some row
  multiKey : row.channelInfo.isMultiKey = true
  mode : row.channelInfo.multiKeyMode = .polling

/-- What a call returns for the key at a position. -/
def keyAt (env : ChannelEnv) (row : Channel) (i : Nat) : Except String (String × Nat) :=
  .ok ((row.getKeys env).getD i "", i)

variable {i : Nat}

/-- A call returns the first key of the turn. -/
theorem getNextEnabledKey_turn (h : Polled channels id row)
    (hcache : cache.channels id = some (pollingAt row position))
    (hturn : turn env row position = i :: rest) (random : Nat) :
    cache.getNextEnabledKey env (pollingAt row position) random = keyAt env row i := by
  have hmulti : (pollingAt row position).channelInfo.isMultiKey ≠ false := by
    simp [pollingAt, h.multiKey]
  have hkeys : (pollingAt row position).getKeys env ≠ [] := by
    intro hnil
    have hnil : row.getKeys env = [] := hnil
    simp [turn, hnil] at hturn
  -- the first key of the turn is the one that polling finds
  have hpoll : pollFrom env row (pollStart position (row.getKeys env).length) = some i := by
    rw [pollFrom, map_mod_range, ← head?_filter, ← turn, hturn]
    rfl
  have hnext : cache.nextKeyIndex env (pollingAt row position) random = .ok i := by
    have hmem : i ∈ turn env row position := hturn ▸ mem_cons_self
    rw [turn, mem_filter, mem_rotate] at hmem
    have hmem : i ∈ enabledKeys env (pollingAt row position) := mem_filter.mpr hmem
    obtain ⟨first, others, henabled⟩ := exists_cons_of_ne_nil (ne_nil_of_mem hmem)
    have hcached : cache.channels (pollingAt row position).id = some (pollingAt row position) := by
      rw [← hcache, ← Table.key_of_find? h.found, pollingAt]
    have hmode : (pollingAt row position).channelInfo.multiKeyMode = .polling := h.mode
    simp only [nextKeyIndex, henabled, hmode, hcached]
    exact congrArg (fun found => Except.ok (found.getD first)) hpoll
  rw [getNextEnabledKey, if_neg hmulti, if_neg hkeys, hnext]
  rfl

/-- The turn after that. -/
theorem turn_next (hturn : turn env row position = i :: rest) :
    turn env row ((i + 1) % (row.getKeys env).length : Nat) = rest ++ [i] := by
  have hpos : 0 < (row.getKeys env).length := by
    by_contra hnone
    simp [turn, Nat.eq_zero_of_not_pos hnone] at hturn
  have hstart : pollStart ((i + 1) % (row.getKeys env).length : Nat) (row.getKeys env).length =
      (i + 1) % (row.getKeys env).length := by
    have hlt := Nat.mod_lt (i + 1) hpos
    rw [pollStart, if_neg (by omega), Int.toNat_natCast]
  rw [turn, hstart]
  exact filter_rotate_next hturn

variable {old loaded : ChannelCache} (hinit : old.initChannelCache channels abilities = some loaded)

include hinit

/-- The position goes over into the new cache. -/
theorem reloaded (h : Polled channels id row)
    (hcache : cache.channels id = some (pollingAt row position)) :
    ∃ cache', cache.initChannelCache channels abilities = some cache' ∧
      cache'.channels id = some (pollingAt row position) := by
  unfold initChannelCache at hinit ⊢
  split_ifs at hinit with hgroups
  refine ⟨_, if_pos hgroups, ?_⟩
  dsimp only
  rw [h.found, hcache]
  exact congrArg some (if_pos ⟨⟨h.multiKey, h.mode⟩, h.multiKey, h.mode⟩)

theorem polled_eq (h : Polled channels id row)
    (hcache : cache.channels id = some (pollingAt row position))
    {acts : List PollAct} (hcalls : keyCalls acts ≤ (turn env row position).length) :
    polled env channels abilities id cache acts =
      ((turn env row position).take (keyCalls acts)).map (keyAt env row) := by
  induction acts generalizing cache position with
  | nil => rfl
  | cons act acts ih =>
    cases act with
    | initChannelCache =>
      obtain ⟨cache', hreload, hcache'⟩ := reloaded hinit h hcache
      rw [polled, hreload]
      exact ih hcache' hcalls
    | getNextEnabledKey random =>
      cases hturn : turn env row position with
      | nil =>
        rw [hturn] at hcalls
        cases hcalls
      | cons i rest =>
        rw [hturn, keyCalls, length_cons] at hcalls
        -- the next turn starts behind the key
        have hafter : afterKey env (pollingAt row position) (keyAt env row i) =
            pollingAt row ((i + 1) % (row.getKeys env).length : Nat) := if_pos ⟨h.multiKey, h.mode⟩
        have hcache' :
            (cache.store id (pollingAt row ((i + 1) % (row.getKeys env).length : Nat))).channels
                id = some _ :=
          Function.update_self ..
        have hrest := ih hcache' (by rw [turn_next hturn, length_append]; omega)
        rw [polled, hcache]
        dsimp only
        rw [getNextEnabledKey_turn h hcache hturn, hafter, hrest, turn_next hturn,
          take_append_of_le_length (Nat.le_of_succ_le_succ hcalls)]
        rfl

end Polling

/-- As many calls as there are enabled keys return each of them once, in the order around the list,
from any position on and with any reloads between the calls. -/
theorem polling_fair (env : ChannelEnv) {channels : Table Channel.id} {abilities : List Ability}
    {id : Int} {row : Channel} (h : Polled channels id row) {old loaded : ChannelCache}
    (hinit : old.initChannelCache channels abilities = some loaded)
    {cache : ChannelCache} {position : Int}
    (hcache : cache.channels id = some (pollingAt row position))
    {acts : List PollAct} (hcalls : keyCalls acts = (enabledKeys env row).length) :
    ∃ m, polled env channels abilities id cache acts =
      ((enabledKeys env row).rotate m).map (keyAt env row) := by
  obtain ⟨m, hturn⟩ :=
    exists_filter_rotate (fun i => keyStatus row i = .enabled) (range (row.getKeys env).length)
    (pollStart position (row.getKeys env).length)
  have hlength : (turn env row position).length = keyCalls acts := by
    rw [turn, hturn, length_rotate, hcalls, enabledKeys]
  refine ⟨m, ?_⟩
  rw [polled_eq hinit h hcache hlength.ge, ← hlength, take_length, turn, hturn, enabledKeys]

/-- Three keys, of which the second one is disabled. -/
def threeKeys (id : Int) : Channel :=
  exampleChannel id "m" "a\nb\nc"
    ⟨true, (∅ : Dict Nat ChannelStatus).insert 1 .autoDisabled, 2, .polling⟩

theorem polling_fair_reloaded :
    let channels : Table Channel.id := Table.empty.insert threeKeys fun _ => rfl
    let acts : List PollAct := [.getNextEnabledKey 0, .initChannelCache, .getNextEnabledKey 0]
    keyCalls acts = 2 ∧ ∃ m, polled plainEnv channels exampleAbilities 1
      (blank.store 1 (threeKeys 1)) acts =
      ((enabledKeys plainEnv (threeKeys 1)).rotate m).map (keyAt plainEnv (threeKeys 1)) := by
  intro channels acts
  have h : Polled channels 1 (threeKeys 1) := ⟨rfl, rfl, rfl⟩
  have hinit : blank.initChannelCache channels exampleAbilities = some _ := rfl
  have hcache : (blank.store 1 (threeKeys 1)).channels 1 = some (pollingAt (threeKeys 1) 2) := rfl
  exact ⟨rfl, polling_fair plainEnv h hinit hcache (by decide +kernel)⟩

end ChannelCache
