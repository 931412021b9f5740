/-
Guessing a second factor.

An attempt loads the row of the factor, and is turned away if that row says that the factor is
locked.  Otherwise the code is compared with the secret, and a wrong code is counted: a
compare-and-swap on the number of failures, tried five times, which stores a lock as soon as there
are too many.  Attempts run at the same time, and the row that an attempt has loaded may be out of
date when it compares its code.

* `TwoFA.step` — the statements of an attempt, and the passing of time between them;
* `TwoFA.Alone` — a code is compared while no other wrong code waits to be counted, and under the
  lock that was loaded;
* `guesses_bounded` — in every run of such steps there are at most `maxFailAttempts` wrong codes
  before a lock is stored, and none while it is in force;
* `overlapping_attempts` — two attempts that have loaded the row before either is counted.
-/
import AcuGateway.Lib.Threads

open List

/-! ### Rows -/

/-- Times are in nanoseconds. -/
structure TwoFARow where
  failedAttempts : Nat
  lockedUntil : Option Int
  lastUsedAt : Option Int

structure TwoFABackupCode where
  id : Int
  codeHash : String
  isUsed : Bool

/-- The secret of the factor as a test of codes, and the limits. -/
structure TwoFAEnv where
  maxFailAttempts : Nat
  /-- In seconds. -/
  lockoutDuration : Int
  /-- Whether a code of six digits is the one of the secret at a time. -/
  validateTOTP : String → Int → Bool
  /-- `ValidateBackupCode` and `NormalizeBackupCode`: the code as it was hashed, if it can be
  one. -/
  normalizeBackupCode : String → Option String
  validatePasswordAndHash : String → String → Bool

namespace TwoFA

/-- What an attempt presents. -/
inductive Code
  | totp (code : String)
  | backup (code : String)

/-- What happened: a code was compared with the secret, or a lock was stored. -/
inductive Event
  | compared (time : Int) (wrong : Bool)
  | locked (lockedUntil : Int)
deriving DecidableEq

/-- What the attempts share: the rows and the time; what happened, the latest first; the attempts
whose failure is not counted yet; and whether an attempt has succeeded. -/
structure World where
  row : TwoFARow
  codes : List TwoFABackupCode
  clock : Int
  events : List Event
  counting : List Nat
  succeeded : Bool

/-- Why an attempt is turned away. -/
inductive Refusal
  | locked (row : TwoFARow)
  | malformed

inductive Attempt
  | idle
  | loaded (row : TwoFARow) (code : Code)
  | unlocked (row : TwoFARow) (code : Code)
  | listed (row : TwoFARow) (code : String) (codes : List TwoFABackupCode)
  | marking (row : TwoFARow) (id : Int)
  | counting (retries : Nat)
  | selected (retries : Nat) (current : TwoFARow)
  | stamped (retries : Nat) (current : TwoFARow) (now : Int)
  | resetting (now : Int)
  | returned (result : Except Refusal Bool)

inductive Act
  | tick (duration : Nat)
  | load (code : Code)
  | check
  | list
  | verify
  | mark
  | select
  | stamp
  | update
  | reset

/-- `IsLocked` of a row that was loaded. -/
def IsLocked (row : TwoFARow) (now : Int) : Prop :=
  ∃ lockedUntil ∈ row.lockedUntil, now < lockedUntil
deriving Decidable

/-- A code without its blanks. -/
def cleanTOTPCode (code : String) : String := String.ofList (code.toList.filter (· ≠ ' '))

variable (env : TwoFAEnv)

/-- The row after a failure, and the lock if there is one to store. -/
def failedOnce (current : TwoFARow) (now : Int) : TwoFARow :=
  { current with
    failedAttempts := current.failedAttempts + 1
    lockedUntil :=
      if env.maxFailAttempts ≤ current.failedAttempts + 1 then
        some (now + env.lockoutDuration * 1000000000)
      else current.lockedUntil }

variable (w : World)

variable (i : Nat)

/-- A failure is about to be counted. -/
def World.failing (compared : Bool) : World :=
  { w with
    events := if compared then .compared w.clock true :: w.events else w.events
    counting := i :: w.counting }

/-- A failure is counted, or given up. -/
def World.counted : World := { w with counting := w.counting.erase i }

/-- The update of a failure that was counted. -/
def World.store (current : TwoFARow) (now : Int) : World :=
  { w with
    row := { w.row with
      failedAttempts := (failedOnce env current now).failedAttempts
      lockedUntil := (failedOnce env current now).lockedUntil }
    events :=
      if env.maxFailAttempts ≤ current.failedAttempts + 1 then
        .locked (now + env.lockoutDuration * 1000000000) :: w.events
      else w.events
    counting := w.counting.erase i }

def step (w : World) : Attempt → Act → World × Attempt
  | attempt, .tick duration => ({ w with clock := w.clock + duration }, attempt)
  | .idle, .load code => (w, .loaded w.row code)
  | .loaded row code, .check =>
    if IsLocked row w.clock then (w, .returned (.error (.locked row)))
    else (w, .unlocked row code)
  -- a code that has not six characters is not compared, but counted
  | .unlocked _ (.totp code), .verify =>
    if (cleanTOTPCode code).utf8ByteSize ≠ 6 then (w.failing i false, .counting 5)
    else if env.validateTOTP (cleanTOTPCode code) w.clock = false then
      (w.failing i true, .counting 5)
    else
      ({ w with events := .compared w.clock false :: w.events, succeeded := true },
        .resetting w.clock)
  | .unlocked row (.backup code), .list =>
    match env.normalizeBackupCode code with
    | none => (w, .returned (.error .malformed))
    | some code => (w, .listed row code (w.codes.filter fun backup => !backup.isUsed))
  | .listed row code codes, .verify =>
    match codes.find? fun backup => env.validatePasswordAndHash code backup.codeHash with
    | none => (w.failing i (codes ≠ []), .counting 5)
    | some backup =>
      ({ w with events := .compared w.clock false :: w.events }, .marking row backup.id)
  | .marking _ id, .mark =>
    if w.codes.any fun backup => backup.id = id ∧ backup.isUsed = false then
      ({ w with
          codes := w.codes.map fun backup => if backup.id = id then { backup with isUsed := true }
            else backup
          succeeded := true },
        .resetting w.clock)
    -- another attempt has used the code up
    else (w.failing i false, .counting 5)
  | .counting 0, .select => (w.counted i, .returned (.ok false))
  | .counting (retries + 1), .select => (w, .selected retries w.row)
  | .selected retries current, .stamp =>
    if IsLocked current w.clock then (w.counted i, .returned (.ok false))
    else (w, .stamped retries current w.clock)
  | .stamped retries current now, .update =>
    if w.row.failedAttempts = current.failedAttempts ∧ ¬ IsLocked w.row now then
      (w.store env i current now, .returned (.ok false))
    else (w, .counting retries)
  | .resetting now, .reset =>
    ({ w with row := { failedAttempts := 0, lockedUntil := none, lastUsedAt := some now } },
      .returned (.ok true))
  | attempt, _ => (w, attempt)

/-! ### What holds at all times -/

/-- The wrong codes since the latest lock. -/
def wrongSince : List Event → Nat
  | [] => 0
  | .locked _ :: _ => 0
  | .compared _ wrong :: events => wrongSince events + if wrong then 1 else 0

/-- No code was compared while a lock that had been stored before was in force. -/
def NoneWhileLocked : List Event → Prop
  | [] => True
  | .locked _ :: events => NoneWhileLocked events
  | .compared time _ :: events =>
    (∀ lockedUntil, .locked lockedUntil ∈ events → lockedUntil ≤ time) ∧ NoneWhileLocked events

/-- The row under which a step compares a code. -/
def verifies : Attempt → Act → Option TwoFARow
  | .unlocked row (.totp _), .verify => some row
  | .listed row _ _, .verify => some row
  | _, _ => none

/-- No other wrong code waits to be counted, and the lock is the one that was loaded. -/
def Alone (_ : Nat) (w : World) (attempt : Attempt) (a : Act) : Prop :=
  ∀ row ∈ verifies attempt a, w.counting = [] ∧ w.row.lockedUntil = row.lockedUntil
deriving Decidable

/-- As long as no attempt has succeeded: one failure at most waits to be counted, the wrong codes
are counted in the row or by the latest lock, and the locks before the latest have expired. -/
structure Counted (env : TwoFAEnv) (codes₀ : List TwoFABackupCode) (w : World) : Prop where
  few : w.counting.length ≤ 1
  low : wrongSince w.events ≤ w.row.failedAttempts + w.counting.length
  high : env.maxFailAttempts ≤ w.row.failedAttempts → wrongSince w.events ≤ w.counting.length
  expired : ∀ lockedUntil, .locked lockedUntil ∈ w.events →
    lockedUntil ≤ w.clock ∨ w.row.lockedUntil = some lockedUntil
  quiet : NoneWhileLocked w.events
  codes : w.codes = codes₀

variable (codes₀ : List TwoFABackupCode)

def Inv (w : World) : Prop :=
  w.succeeded = false → Counted env codes₀ w

/-- What an attempt knows.  Whoever counts a failure is the only one. -/
def Knows (i : Nat) (w : World) : Attempt → Prop
  | .unlocked row _ => ¬ IsLocked row w.clock
  | .listed row _ codes =>
    ¬ IsLocked row w.clock ∧ codes = codes₀.filter fun backup => !backup.isUsed
  | .marking _ id => ∃ backup ∈ codes₀, backup.id = id ∧ backup.isUsed = false
  | .counting retries => w.counting = [i] ∧ ¬ IsLocked w.row w.clock ∧ retries ≠ 0
  | .selected _ current => w.counting = [i] ∧ ¬ IsLocked w.row w.clock ∧ current = w.row
  | .stamped _ current now =>
    w.counting = [i] ∧ ¬ IsLocked w.row now ∧ current = w.row ∧ now ≤ w.clock
  | .resetting _ => False
  | _ => True

def Own (i : Nat) (w : World) (attempt : Attempt) : Prop :=
  w.succeeded = false → Knows codes₀ i w attempt

section Steps

variable {env : TwoFAEnv} {codes₀ : List TwoFABackupCode} {i j : Nat} {w w' : World}

variable {now : Int} {row : TwoFARow} {attempt : Attempt}

theorem isLocked_mono {later : Int} (hle : now ≤ later) (h : ¬ IsLocked row now) :
    ¬ IsLocked row later := by
  rintro ⟨lockedUntil, hmem, hlt⟩
  exact h ⟨lockedUntil, hmem, Int.lt_of_le_of_lt hle hlt⟩

variable {lockedUntil : Int}

theorem le_of_not_isLocked (h : ¬ IsLocked row now)
    (hlock : row.lockedUntil = some lockedUntil) : lockedUntil ≤ now := by
  by_contra hlt
  exact h ⟨lockedUntil, hlock, by omega⟩

/-- What a step of attempt `i` leaves to the others. -/
structure Frame (i : Nat) (w w' : World) : Prop where
  clock : w.clock ≤ w'.clock
  succeeded : w'.succeeded = false → w.succeeded = false
  row : w'.succeeded = false → w.counting = [] ∨ w.counting = [i] ∨ w'.row = w.row ∧
    w'.counting = w.counting

/-- What another attempt knows stays true. -/
theorem Own.frame (hj : j ≠ i) (hframe : Frame i w w') (h : Own codes₀ j w attempt) :
    Own codes₀ j w' attempt := by
  intro hnone
  have hknows := h (hframe.succeeded hnone)
  -- an attempt that counts is the only one, so the row and the others stay as they are
  have hcounting : w.counting = [j] → w'.row = w.row ∧ w'.counting = [j] := by
    intro hmine
    rcases hframe.row hnone with hempty | hother | ⟨hrow, hcount⟩
    · rw [hmine] at hempty
      cases hempty
    · rw [hmine] at hother
      exact absurd (List.cons.inj hother).1 hj
    · exact ⟨hrow, hcount.trans hmine⟩
  cases attempt with
  | unlocked row code => exact isLocked_mono hframe.clock hknows
  | listed row code codes => exact ⟨isLocked_mono hframe.clock hknows.1, hknows.2⟩
  | counting retries =>
    obtain ⟨hmine, hunlocked, hretries⟩ := hknows
    obtain ⟨hrow, hcount⟩ := hcounting hmine
    exact ⟨hcount, by rw [hrow]; exact isLocked_mono hframe.clock hunlocked, hretries⟩
  | selected retries current =>
    obtain ⟨hmine, hunlocked, hcurrent⟩ := hknows
    obtain ⟨hrow, hcount⟩ := hcounting hmine
    exact ⟨hcount,
      by rw [hrow]; exact isLocked_mono hframe.clock hunlocked, by rw [hrow]; exact hcurrent⟩
  | stamped retries current now =>
    obtain ⟨hmine, hunlocked, hcurrent, hnow⟩ := hknows
    obtain ⟨hrow, hcount⟩ := hcounting hmine
    exact ⟨hcount,
      by rw [hrow]; exact hunlocked, by rw [hrow]; exact hcurrent, Int.le_trans hnow hframe.clock⟩
  | marking row id => exact hknows
  | resetting now => exact hknows
  | idle | loaded | returned => trivial

/-- Time does not run back, and a success stays one. -/
theorem step_mono (a : Act) : w.clock ≤ (step env i w attempt a).1.clock ∧
      ((step env i w attempt a).1.succeeded = false → w.succeeded = false) := by
  unfold step
  split
  · exact ⟨by dsimp only; omega, id⟩
  all_goals (repeat' split) <;> exact ⟨Int.le_refl _, fun h => by first | exact h | cases h⟩

/-- What a step does, as long as no attempt has succeeded. -/
structure Spec (env : TwoFAEnv) (codes₀ : List TwoFABackupCode) (i : Nat) (w : World)
    (result : World × Attempt) : Prop where
  counted : result.1.succeeded = false → Counted env codes₀ result.1
  knows : result.1.succeeded = false → Knows codes₀ i result.1 result.2
  row : result.1.succeeded = false → w.counting = [] ∨ w.counting = [i] ∨
    result.1.row = w.row ∧ result.1.counting = w.counting

theorem spec_same (h : Counted env codes₀ w) (hknows : Knows codes₀ i w attempt) :
    Spec env codes₀ i w (w, attempt) :=
  ⟨fun _ => h, fun _ => hknows, fun _ => .inr (.inr ⟨rfl, rfl⟩)⟩

/-- After a success there is nothing to say. -/
theorem spec_succeeded {result : World × Attempt} (h : result.1.succeeded = true) :
    Spec env codes₀ i w result := by
  refine ⟨fun hnone => ?_, fun hnone => ?_, fun hnone => ?_⟩
  all_goals
    rw [h] at hnone
    cases hnone

section

variable (h : Counted env codes₀ w)

include h

theorem Counted.tick (duration : Nat) :
    Counted env codes₀ { w with clock := w.clock + duration } where
  few := h.few
  low := h.low
  high := h.high
  expired := by
    intro lockedUntil hmem
    refine (h.expired lockedUntil hmem).imp (fun hle => ?_) id
    show lockedUntil ≤ w.clock + duration
    omega
  quiet := h.quiet
  codes := h.codes

/-- A code is compared under the lock that is stored, and that lock is not in force. -/
theorem Counted.locks_expired (hsame : w.row.lockedUntil = row.lockedUntil)
    (hunlocked : ¬ IsLocked row w.clock) (hmem : .locked lockedUntil ∈ w.events) :
    lockedUntil ≤ w.clock := by
  rcases h.expired lockedUntil hmem with hle | hrow
  · exact hle
  · exact le_of_not_isLocked hunlocked (hsame.symm.trans hrow)

theorem spec_failing (hempty : w.counting = [])
    (hsame : w.row.lockedUntil = row.lockedUntil) (hunlocked : ¬ IsLocked row w.clock)
    (compared : Bool) :
    Spec env codes₀ i w (w.failing i compared, .counting 5) where
  counted := by
    intro hnone
    have hwrong : wrongSince (w.failing i compared).events ≤ wrongSince w.events + 1 := by
      cases compared
      · exact Nat.le_succ _
      · exact Nat.le_refl _
    -- no other failure is being counted
    have hone : (w.failing i compared).counting = [i] := by rw [World.failing, hempty]
    have hlow := h.low
    have hhigh := h.high
    rw [hempty, length_nil] at hlow hhigh
    refine ⟨?_, ?_, ?_, ?_, ?_, h.codes⟩
    · rw [hone]
      exact Nat.le_refl 1
    · rw [hone]
      show wrongSince (w.failing i compared).events ≤ w.row.failedAttempts + 1
      omega
    · intro hmax
      rw [hone]
      have := hhigh hmax
      show wrongSince (w.failing i compared).events ≤ 1
      omega
    · intro lockedUntil hmem
      refine h.expired lockedUntil ?_
      cases compared
      · exact hmem
      · exact (mem_cons.mp hmem).resolve_left (by simp)
    · cases compared
      · exact h.quiet
      · exact ⟨fun lockedUntil hmem => h.locks_expired hsame hunlocked hmem, h.quiet⟩
  knows := by
    intro _
    refine ⟨by rw [World.failing, hempty], ?_, by decide⟩
    show ¬ ∃ lockedUntil ∈ w.row.lockedUntil, w.clock < lockedUntil
    rw [hsame]
    exact hunlocked
  row _ := .inl hempty

theorem spec_store (hmine : w.counting = [i]) (hunlocked : ¬ IsLocked w.row now)
    (hnow : now ≤ w.clock) (result : Except Refusal Bool) :
    Spec env codes₀ i w (w.store env i w.row now, .returned result) where
  counted := by
    intro hnone
    have hlow := h.low
    rw [hmine, length_singleton] at hlow
    have hempty : (w.store env i w.row now).counting = [] := by
      show w.counting.erase i = []
      rw [hmine, erase_cons_head]
    by_cases hmax : env.maxFailAttempts ≤ w.row.failedAttempts + 1
    · have hevents : (w.store env i w.row now).events =
          .locked (now + env.lockoutDuration * 1000000000) :: w.events :=
        if_pos hmax
      refine ⟨by rw [hempty]; exact Nat.zero_le 1, ?_, ?_, ?_, ?_, h.codes⟩
      · rw [hevents]
        exact Nat.zero_le _
      · intro _
        rw [hevents]
        exact Nat.zero_le _
      · intro lockedUntil hmem
        rw [hevents] at hmem
        rcases mem_cons.mp hmem with heq | hmem
        · right
          cases heq
          exact if_pos hmax
        -- the lock that was stored before had expired
        · left
          rcases h.expired lockedUntil hmem with hle | hrow
          · exact hle
          · exact Int.le_trans (le_of_not_isLocked hunlocked hrow) hnow
      · rw [hevents]
        exact h.quiet
    · have hevents : (w.store env i w.row now).events = w.events := if_neg hmax
      refine ⟨by rw [hempty]; exact Nat.zero_le 1, ?_, ?_, ?_, ?_, h.codes⟩
      · rw [hevents, hempty]
        exact hlow
      · intro hmax'
        exact absurd hmax' hmax
      · intro lockedUntil hmem
        rw [hevents] at hmem
        refine (h.expired lockedUntil hmem).imp id fun hrow => ?_
        exact (if_neg hmax).trans hrow
      · rw [hevents]
        exact h.quiet
  knows _ := trivial
  row _ := .inr (.inl hmine)

theorem step_spec {a : Act} (hknows : Knows codes₀ i w attempt)
    (halone : Alone i w attempt a) : Spec env codes₀ i w (step env i w attempt a) := by
  unfold step
  split
  -- time passes
  · rename_i duration
    refine ⟨fun _ => h.tick duration, fun hnone => ?_, fun _ => .inr (.inr ⟨rfl, rfl⟩)⟩
    -- that is as good as the step of another attempt
    have hframe : Frame (i + 1) w { w with clock := w.clock + duration } :=
      ⟨by dsimp only; omega, id, fun _ => .inr (.inr ⟨rfl, rfl⟩)⟩
    exact Own.frame (Nat.succ_ne_self i).symm hframe (fun _ => hknows) hnone
  · exact spec_same h trivial
  · split_ifs with hlocked
    · exact spec_same h trivial
    · exact spec_same h hlocked
  -- a code is compared
  · obtain ⟨hempty, hsame⟩ := halone _ rfl
    split_ifs
    · exact spec_failing h hempty hsame hknows _
    · exact spec_failing h hempty hsame hknows _
    · exact spec_succeeded rfl
  · split
    · exact spec_same h trivial
    · exact spec_same h ⟨hknows, by rw [h.codes]⟩
  · rename_i row code codes
    obtain ⟨hempty, hsame⟩ := halone _ rfl
    split
    · exact spec_failing h hempty hsame hknows.1 _
    · rename_i backup hfound
      refine ⟨fun _ => ⟨h.few, h.low, h.high, ?_, ?_, h.codes⟩, fun _ => ?_, fun _ => .inl hempty⟩
      · intro lockedUntil hmem
        exact h.expired lockedUntil ((mem_cons.mp hmem).resolve_left (by simp))
      · exact ⟨fun lockedUntil hmem => h.locks_expired hsame hknows.1 hmem, h.quiet⟩
      · have hmem := mem_of_find?_eq_some hfound
        rw [hknows.2, mem_filter] at hmem
        exact ⟨backup, hmem.1, rfl, by simpa using hmem.2⟩
  -- a backup code that nobody has used is used up
  · split_ifs with hunused
    · exact spec_succeeded rfl
    · obtain ⟨backup, hmem, hid, hused⟩ := hknows
      refine absurd (any_eq_true.mpr ⟨backup, ?_, by simp [hid, hused]⟩) hunused
      rw [h.codes]
      exact hmem
  -- a failure is counted
  · exact absurd rfl hknows.2.2
  · exact spec_same h ⟨hknows.1, hknows.2.1, rfl⟩
  · obtain ⟨hmine, hunlocked, rfl⟩ := hknows
    rw [if_neg hunlocked]
    exact spec_same h ⟨hmine, hunlocked, rfl, Int.le_refl _⟩
  · obtain ⟨hmine, hunlocked, rfl, hnow⟩ := hknows
    rw [if_pos ⟨rfl, hunlocked⟩]
    exact spec_store h hmine hunlocked hnow _
  · exact hknows.elim
  · exact spec_same h hknows

end

theorem kept : Threads.Kept (step env) Alone (Inv env codes₀) (Own codes₀) where
  inv := by
    intro i w attempt a h hown halone hnone
    have hbefore := (step_mono a).2 hnone
    exact (step_spec (h hbefore) (hown hbefore) halone).counted hnone
  own := by
    intro i w attempt a h hown halone hnone
    have hbefore := (step_mono a).2 hnone
    exact (step_spec (h hbefore) (hown hbefore) halone).knows hnone
  others := by
    intro i j w attempt attempt' a hj h hown halone hother
    have hmono : w.clock ≤ (step env i w attempt a).1.clock ∧
        ((step env i w attempt a).1.succeeded = false → w.succeeded = false) := step_mono a
    refine Own.frame hj ⟨hmono.1, hmono.2, fun hnone => ?_⟩ hother
    exact (step_spec (h (hmono.2 hnone)) (hown (hmono.2 hnone)) halone).row hnone

/-- No attempt has begun; the lock of the row, if there is one, was stored before. -/
def start (row : TwoFARow) (codes : List TwoFABackupCode) (clock : Int) :
    Threads World Attempt where
  shared :=
    { row, codes, clock, events := row.lockedUntil.toList.map .locked, counting := [],
      succeeded := false }
  thread := fun _ => .idle

theorem start_holds (row : TwoFARow) (codes : List TwoFABackupCode) (clock : Int) :
    Threads.Holds (Inv env codes) (Own codes) (start row codes clock) where
  inv := by
    intro _
    cases hlock : row.lockedUntil with
    | none =>
      exact ⟨Nat.zero_le 1, by simp [start, hlock, wrongSince], by simp [start, hlock, wrongSince],
        by simp [start, hlock], by simp [start, hlock, NoneWhileLocked], rfl⟩
    | some lockedUntil =>
      exact ⟨Nat.zero_le 1, by simp [start, hlock, wrongSince], by simp [start, hlock, wrongSince],
        by simp [start, hlock], by simp [start, hlock, NoneWhileLocked], rfl⟩
  own := fun _ _ => trivial

/-- The state after a run. -/
def after (env : TwoFAEnv) (row : TwoFARow) (codes : List TwoFABackupCode) (clock : Int)
    (run : List (Nat × Act)) : World :=
  (Run.exec (Threads.step (step env)) (start row codes clock) run).shared

/-- At most `maxFailAttempts` wrong codes since the latest lock, or the start, and no code while a
lock was in force. -/
structure GuessesBounded (env : TwoFAEnv) (w : World) : Prop where
  wrong : wrongSince w.events ≤ env.maxFailAttempts
  locked : NoneWhileLocked w.events

theorem Counted.guessesBounded (hmax : 1 ≤ env.maxFailAttempts) (h : Counted env codes₀ w) :
    GuessesBounded env w := by
  refine ⟨?_, h.quiet⟩
  have hfew := h.few
  have hlow := h.low
  by_cases hhigh : env.maxFailAttempts ≤ w.row.failedAttempts
  · have := h.high hhigh
    omega
  · omega

end Steps

end TwoFA

/-- The state after any part of a run is the state after a run. -/
theorem guesses_bounded (env : TwoFAEnv) (hmax : 1 ≤ env.maxFailAttempts) (row : TwoFARow)
    (codes : List TwoFABackupCode) (clock : Int) (run : List (Nat × TwoFA.Act))
    (hrun : Run.Along (Threads.Allowed TwoFA.Alone) (Threads.step (TwoFA.step env))
      (TwoFA.start row codes clock) run)
    (hnone : (TwoFA.after env row codes clock run).succeeded = false) :
    TwoFA.GuessesBounded env (TwoFA.after env row codes clock run) :=
  ((TwoFA.kept.exec_holds (TwoFA.start_holds row codes clock) hrun).inv hnone).guessesBounded hmax

namespace TwoFA

/-- One failure locks the factor for five minutes. -/
def strictEnv : TwoFAEnv where
  maxFailAttempts := 1
  lockoutDuration := 300
  validateTOTP := fun code _ => code = "123456"
  normalizeBackupCode := some
  validatePasswordAndHash := fun code hash => code = hash

def freshRow : TwoFARow where
  failedAttempts := 0
  lockedUntil := none
  lastUsedAt := none

/-- An attempt with a wrong code, up to the comparison. -/
def guess (i : Nat) : List (Nat × Act) := [(i, .load (.totp "000000")), (i, .check), (i, .verify)]

/-- The failure is counted. -/
def count (i : Nat) : List (Nat × Act) := [(i, .select), (i, .stamp), (i, .update)]

end TwoFA

open TwoFA

theorem guesses_bounded_one_after_the_other : GuessesBounded TwoFA.strictEnv
      (TwoFA.after TwoFA.strictEnv freshRow [] 0 (guess 0 ++ TwoFA.count 0 ++ guess 1)) :=
  guesses_bounded TwoFA.strictEnv (by decide) freshRow [] 0 _ (by decide +kernel)
    (by decide +kernel)

/-- Three attempts load the row, one of them is counted before the last one compares its code. -/
theorem overlapping_attempts :
    (TwoFA.after TwoFA.strictEnv freshRow [] 0
        (guess 0 ++ guess 1 ++ (guess 2).take 2 ++ TwoFA.count 0 ++ [(2, .verify)])).events =
        [.compared 0 true, .locked 300000000000, .compared 0 true, .compared 0 true] ∧
      ¬ GuessesBounded TwoFA.strictEnv
        (TwoFA.after TwoFA.strictEnv freshRow [] 0 (guess 0 ++ guess 1)) ∧
      ¬ GuessesBounded TwoFA.strictEnv (TwoFA.after TwoFA.strictEnv freshRow [] 0
          (guess 0 ++ guess 1 ++ (guess 2).take 2 ++ TwoFA.count 0 ++ [(2, .verify)])) := by
  have hevents : (TwoFA.after TwoFA.strictEnv freshRow [] 0
      (guess 0 ++ guess 1 ++ (guess 2).take 2 ++ TwoFA.count 0 ++ [(2, .verify)])).events =
      [.compared 0 true, .locked 300000000000, .compared 0 true, .compared 0 true] := by
    decide +kernel
  have htwo : wrongSince (TwoFA.after TwoFA.strictEnv freshRow [] 0
      (guess 0 ++ guess 1)).events = 2 := by decide +kernel
  refine ⟨hevents, fun h => ?_, fun h => ?_⟩
  · have hwrong := h.wrong
    rw [htwo] at hwrong
    exact absurd hwrong (by decide)
  · have hlocked := h.locked
    rw [hevents] at hlocked
    have hlate := hlocked.1 300000000000 (by simp)
    exact absurd hlate (by decide)
