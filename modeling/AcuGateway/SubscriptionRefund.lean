/-
Refunds under database failures.

`RefundSubscriptionPreConsume` runs in a transaction of its own, but gives the
amount back through `PostConsumeUserSubscriptionDelta`, which opens another
transaction on the database.  Any statement and any commit may fail; a failed
transaction is rolled back, and the inner one is over when the outer one fails.

* `refundCalls_spec` — what any number of calls with any failures does: the
  amount is given back once for each call that commits its inner transaction
  while the record is open;
* `refund_once_iff` — the refund is exactly-once when that is at most one call;
* `refundWithRetry_spec` — the attempts of the retry loop are such calls;
* `refund_retried` — a retry after a failure of the outer transaction gives the
  amount back twice.
-/
import AcuGateway.SubscriptionLedger
import Mathlib.Algebra.Order.Ring.Int

open List Table
open Text (trimSpace)

/-- The database statements of one refund call. -/
inductive RefundStep
  | begin
  | selectRecord
  | innerBegin
  | selectSub
  | saveSub
  | innerCommit
  | saveRecord
  | commit
deriving DecidableEq

/-- The statements that fail in one call. -/
abbrev RefundFaults := List RefundStep

/-- The error of a failed statement. -/
def dbError : String := "driver: bad connection"

variable (faults : RefundFaults) (σ : Store)

/-- `PostConsumeUserSubscriptionDelta`, as the independent transaction it is. -/
def postConsumeUnder (userSubscriptionId delta : Int) (why : SubEvent) :
    Store × Except String Unit :=
  if userSubscriptionId ≤ 0 then (σ, .error "invalid userSubscriptionId")
  else if delta = 0 then (σ, .ok ())
  else if .innerBegin ∈ faults then (σ, .error dbError)
  else if .selectSub ∈ faults then (σ, .error dbError)
  else
    match σ.subs.find? userSubscriptionId with
    | none => (σ, .error recordNotFound)
    | some sub =>
      match applyDelta sub delta with
      | .error e => (σ, .error e)
      | .ok sub' =>
        if .saveSub ∈ faults then (σ, .error dbError)
        else if .innerCommit ∈ faults then (σ, .error dbError)
        else (σ.saveSub sub' [why], .ok ())

/-- The end of the outer transaction: save the record and commit. -/
def closeRecord (record : SubscriptionPreConsumeRecord) : Store × Except String Unit :=
  if .saveRecord ∈ faults then (σ, .error dbError)
  else if .commit ∈ faults then (σ, .error dbError)
  else (markRefunded σ record, .ok ())

/-- `RefundSubscriptionPreConsume`.  What the inner transaction has committed
stays when the outer one fails. -/
def refundUnder (requestId : String) : Store × Except String Unit :=
  if trimSpace requestId = "" then (σ, .error "requestId is empty")
  else if .begin ∈ faults then (σ, .error dbError)
  else if .selectRecord ∈ faults then (σ, .error dbError)
  else
    match σ.findRecord requestId with
    | none => (σ, .error recordNotFound)
    | some record =>
      if record.status = .refunded then
        if .commit ∈ faults then (σ, .error dbError) else (σ, .ok ())
      else if record.preConsumed ≤ 0 then closeRecord faults σ record
      else
        match postConsumeUnder faults σ record.userSubscriptionId (-record.preConsumed)
            (.refunded record.userSubscriptionId requestId record.preConsumed) with
        | (σ', .error e) => (σ', .error e)
        | (σ', .ok _) => closeRecord faults σ' record

/-- Any number of calls; the flag says whether one of them returned success. -/
def refundCalls (σ : Store) (requestId : String) : List RefundFaults → Store × Bool
  | [] => (σ, false)
  | faults :: rest =>
    let call := refundUnder faults σ requestId
    let later := refundCalls call.1 requestId rest
    (later.1, call.2.isOk || later.2)

/-- `refundWithRetry`: up to three attempts, until one succeeds. -/
def refundWithRetry (requestId : String) (first second third : RefundFaults) :
    Store × Except String Unit :=
  match refundUnder first σ requestId with
  | (σ₁, .ok _) => (σ₁, .ok ())
  | (σ₁, .error _) =>
    match refundUnder second σ₁ requestId with
    | (σ₂, .ok _) => (σ₂, .ok ())
    | (σ₂, .error _) => refundUnder third σ₂ requestId

/-! ### One call -/

/-- The outer transaction fails before the inner one begins. -/
def openFails : Prop := .begin ∈ faults ∨ .selectRecord ∈ faults
deriving Decidable

/-- The inner transaction fails. -/
def innerFails : Prop :=
  .innerBegin ∈ faults ∨ .selectSub ∈ faults ∨ .saveSub ∈ faults ∨ .innerCommit ∈ faults
deriving Decidable

/-- The outer transaction fails after the inner one is over. -/
def closeFails : Prop := .saveRecord ∈ faults ∨ .commit ∈ faults
deriving Decidable

/-- The inner transaction of the call commits. -/
def givesBack : Bool := ¬ openFails faults ∧ ¬ innerFails faults

/-- Both transactions of the call commit. -/
def completes : Bool := givesBack faults ∧ ¬ closeFails faults

/-- An open record of amount `p` on a subscription of which `used` is used. -/
structure OpenRecord (σ : Store) (requestId : String) (record : SubscriptionPreConsumeRecord)
    (sub : UserSubscription) : Prop where
  request_ne : trimSpace requestId ≠ ""
  found : σ.findRecord requestId = some record
  isOpen : record.status ≠ .refunded
  pos : 0 < record.preConsumed
  word : record.preConsumed < 9223372036854775808
  subFound : σ.subs.find? record.userSubscriptionId = some sub
  bound : 0 < sub.amountTotal → sub.amountUsed ≤ sub.amountTotal
  nonneg : 0 ≤ sub.amountUsed
  used_word : sub.amountUsed < 9223372036854775808

variable {σ : Store} {requestId : String} {record : SubscriptionPreConsumeRecord}
  {sub : UserSubscription}

section Call

variable {faults : RefundFaults}

/-- The row that the inner transaction saves. -/
def givenBack (sub : UserSubscription) (p : Int) : UserSubscription :=
  { sub with amountUsed := max (sub.amountUsed - p) 0 }

theorem givenBack_amountUsed (p : Int) :
    (givenBack sub p).amountUsed = max (sub.amountUsed - p) 0 := rfl

theorem OpenRecord.applyDelta (h : OpenRecord σ requestId record sub) :
    applyDelta sub (-record.preConsumed) = .ok (givenBack sub record.preConsumed) := by
  have hpos := h.pos
  have hword := h.word
  have hnonneg := h.nonneg
  have hused := h.used_word
  have hsum : wrap64 (sub.amountUsed + -record.preConsumed) = sub.amountUsed - record.preConsumed :=
    wrap64_eq_self ⟨by omega, by omega⟩
  rw [applyDelta_ok, hsum, givenBack]
  intro hlimited
  have hle := h.bound hlimited
  rw [hsum]
  omega

/-- The store after the inner transaction of the call has committed. -/
def afterGiveBack (σ : Store) (requestId : String) (record : SubscriptionPreConsumeRecord)
    (sub : UserSubscription) : Store :=
  σ.saveSub (givenBack sub record.preConsumed)
    [.refunded record.userSubscriptionId requestId record.preConsumed]

theorem findRecord_afterGiveBack :
    (afterGiveBack σ requestId record sub).findRecord requestId = σ.findRecord requestId := rfl

theorem postConsumeUnder_open (h : OpenRecord σ requestId record sub) :
    (innerFails faults → postConsumeUnder faults σ record.userSubscriptionId
      (-record.preConsumed) (.refunded record.userSubscriptionId requestId record.preConsumed) =
        (σ, .error dbError)) ∧
    (¬ innerFails faults → postConsumeUnder faults σ record.userSubscriptionId
      (-record.preConsumed) (.refunded record.userSubscriptionId requestId record.preConsumed) =
        (afterGiveBack σ requestId record sub, .ok ())) := by
  have hid := pos_of_find? h.subFound
  have hpos := h.pos
  unfold postConsumeUnder innerFails
  rw [if_neg (not_le.mpr hid), if_neg (show ¬ -record.preConsumed = 0 by omega), h.subFound]
  dsimp only
  rw [h.applyDelta]
  dsimp only
  split_ifs with h1 h2 h3 h4
  · exact ⟨fun _ => rfl, fun hno => absurd (.inl h1) hno⟩
  · exact ⟨fun _ => rfl, fun hno => absurd (.inr (.inl h2)) hno⟩
  · exact ⟨fun _ => rfl, fun hno => absurd (.inr (.inr (.inl h3))) hno⟩
  · exact ⟨fun _ => rfl, fun hno => absurd (.inr (.inr (.inr h4))) hno⟩
  · exact ⟨fun hyes => by simp [h1, h2, h3, h4] at hyes, fun _ => rfl⟩

theorem closeRecord_eq : closeRecord faults σ record =
      if closeFails faults then (σ, .error dbError) else (markRefunded σ record, .ok ()) := by
  unfold closeRecord closeFails
  by_cases h1 : RefundStep.saveRecord ∈ faults
  · simp [h1]
  · simp [h1]

/-- **One call** on an open record: it does nothing, gives the amount back and
fails, or gives it back and closes the record. -/
theorem refundUnder_open (h : OpenRecord σ requestId record sub) :
    (givesBack faults = false ∧ refundUnder faults σ requestId = (σ, .error dbError)) ∨
      (givesBack faults = true ∧ completes faults = false ∧ refundUnder faults σ requestId =
        (afterGiveBack σ requestId record sub, .error dbError)) ∨
      (completes faults = true ∧ refundUnder faults σ requestId =
        (markRefunded (afterGiveBack σ requestId record sub) record, .ok ())) := by
  have hpos := h.pos
  unfold refundUnder
  rw [if_neg h.request_ne, h.found]
  dsimp only
  rw [if_neg h.isOpen, if_neg (not_le.mpr hpos)]
  -- the statements in the order in which they are run
  by_cases hopen : openFails faults
  · left
    refine ⟨by simp [givesBack, hopen], ?_⟩
    rcases hopen with hbegin | hselect
    · rw [if_pos hbegin]
    · rw [if_pos hselect, ite_self]
  · obtain ⟨hbegin, hselect⟩ := not_or.mp hopen
    rw [if_neg hbegin, if_neg hselect]
    by_cases hinner : innerFails faults
    · left
      rw [(postConsumeUnder_open h).1 hinner]
      exact ⟨by simp [givesBack, hinner], rfl⟩
    · right
      have hgives : givesBack faults = true := by simp [givesBack, hopen, hinner]
      rw [(postConsumeUnder_open h).2 hinner]
      dsimp only
      rw [closeRecord_eq]
      by_cases hclose : closeFails faults
      · rw [if_pos hclose]
        exact .inl ⟨hgives, by simp [completes, hclose], rfl⟩
      · rw [if_neg hclose]
        exact .inr ⟨by simp [completes, hgives, hclose], rfl⟩

variable (hfound : σ.findRecord requestId = some record)

include hfound

/-- A call on a closed record changes nothing. -/
theorem refundUnder_closed (hclosed : record.status = .refunded) :
    (refundUnder faults σ requestId).1 = σ := by
  unfold refundUnder
  rw [hfound]
  dsimp only
  rw [if_pos hclosed]
  split_ifs <;> rfl

theorem refundCalls_closed (hclosed : record.status = .refunded) (calls : List RefundFaults) :
    (refundCalls σ requestId calls).1 = σ := by
  induction calls with
  | nil => rfl
  | cons faults rest ih =>
    simp only [refundCalls]
    rw [refundUnder_closed hfound hclosed, ih]

end Call

/-! ### Any number of calls -/

/-- How often the amount is given back: once for each call that commits its inner
transaction, up to the first call that completes. -/
def timesGivenBack : List RefundFaults → Nat
  | [] => 0
  | faults :: rest =>
    if completes faults then 1
    else if givesBack faults then timesGivenBack rest + 1
    else timesGivenBack rest

theorem OpenRecord.next (h : OpenRecord σ requestId record sub) :
    OpenRecord (afterGiveBack σ requestId record sub) requestId record
      (givenBack sub record.preConsumed) := by
  have hpos := h.pos
  have hnonneg := h.nonneg
  have hused := h.used_word
  have hid := key_of_find? h.subFound
  have hfound : (afterGiveBack σ requestId record sub).findRecord requestId = some record := by
    rw [findRecord_afterGiveBack, h.found]
  refine ⟨h.request_ne, hfound, h.isOpen, h.pos, h.word, ?_, fun hlimited => ?_, ?_, ?_⟩
  · -- the row that was saved is the one of the record
    have hself : (givenBack sub record.preConsumed).id = record.userSubscriptionId := hid
    rw [← hself]
    exact find?_save_self (hself ▸ h.subFound)
  · have hle := h.bound hlimited
    have htotal : (givenBack sub record.preConsumed).amountTotal = sub.amountTotal := rfl
    rw [givenBack_amountUsed, htotal]
    omega
  · rw [givenBack_amountUsed]
    omega
  · rw [givenBack_amountUsed]
    omega

theorem usedOf_markRefunded (id : Int) : usedOf (markRefunded σ record) id = usedOf σ id := rfl

theorem usedOf_open (h : OpenRecord σ requestId record sub) :
    usedOf σ record.userSubscriptionId = sub.amountUsed := by
  rw [usedOf, h.subFound]
  rfl

/-- A record that was marked is found as refunded. -/
theorem findRecord_markRefunded (h : σ.findRecord requestId = some record) :
    (markRefunded σ record).findRecord requestId = some { record with status := .refunded } := by
  have hmem : record ∈ σ.records.rows := mem_of_find?_eq_some h
  have hsame : ∀ x ∈ σ.records.rows, x.id = record.id → x = record :=
    fun x hx hid => eq_of_key_eq hx hmem hid
  have hfind := find?_rows_save (t := σ.records) (r := { record with status := .refunded })
    (p := fun r => r.requestId = requestId) fun x hx hid => by rw [hsame x hx hid]
  have hrecord : σ.records.rows.find? (fun r => r.requestId = requestId) = some record := h
  rw [hrecord] at hfind
  simpa [markRefunded, Store.findRecord] using hfind

/-- **Any number of calls** on an open record. -/
theorem refundCalls_spec (h : OpenRecord σ requestId record sub) (calls : List RefundFaults) :
    usedOf (refundCalls σ requestId calls).1 record.userSubscriptionId =
        max (sub.amountUsed - timesGivenBack calls * record.preConsumed) 0 ∧
      (refundCalls σ requestId calls).2 = calls.any completes := by
  have hpos := h.pos
  induction calls generalizing σ sub with
  | nil =>
    refine ⟨?_, rfl⟩
    simp only [refundCalls, timesGivenBack, Nat.cast_zero, zero_mul, sub_zero]
    rw [usedOf_open h, max_eq_left h.nonneg]
  | cons faults rest ih =>
    have hcons : refundCalls σ requestId (faults :: rest) =
        ((refundCalls (refundUnder faults σ requestId).1 requestId rest).1,
          (refundUnder faults σ requestId).2.isOk ||
            (refundCalls (refundUnder faults σ requestId).1 requestId rest).2) := rfl
    rw [hcons, timesGivenBack, any_cons]
    rcases @refundUnder_open _ _ _ _ faults h with
      ⟨hgives, hcall⟩ | ⟨hgives, hcompletes, hcall⟩ | ⟨hcompletes, hcall⟩
    · -- nothing happened
      have hcompletes : completes faults = false := by simp [completes, hgives]
      rw [hcall, hcompletes, hgives]
      exact ih h
    · -- the amount is given back, the record stays open
      obtain ⟨hused, hok⟩ := ih h.next
      rw [hcall, hcompletes, hgives]
      refine ⟨?_, by simp [hok, Except.isOk, Except.toBool]⟩
      have hk : 0 ≤ (timesGivenBack rest : Int) * record.preConsumed :=
        mul_nonneg (Int.natCast_nonneg _) (le_of_lt hpos)
      rw [hused, givenBack_amountUsed]
      simp only [Bool.false_eq_true, if_false, if_true, Nat.cast_add, Nat.cast_one, add_mul,
        one_mul]
      omega
    · -- the record is closed
      have hclosed := findRecord_markRefunded h.next.found
      rw [hcall, hcompletes]
      refine ⟨?_, by simp [Except.isOk, Except.toBool]⟩
      dsimp only
      rw [refundCalls_closed hclosed rfl, usedOf_markRefunded, usedOf_open h.next,
        givenBack_amountUsed]
      simp

/-- The amount is given back at most once, and exactly once when a call returned
success. -/
def RefundedOnce (σ : Store) (requestId : String) (record : SubscriptionPreConsumeRecord)
    (calls : List RefundFaults) : Prop :=
  usedOf σ record.userSubscriptionId -
      usedOf (refundCalls σ requestId calls).1 record.userSubscriptionId ≤ record.preConsumed ∧
    ((refundCalls σ requestId calls).2 = true →
      usedOf (refundCalls σ requestId calls).1 record.userSubscriptionId =
        usedOf σ record.userSubscriptionId - record.preConsumed)
deriving Decidable

/-- A list with a call that completes gives the amount back. -/
theorem timesGivenBack_pos {calls : List RefundFaults} (h : calls.any completes = true) :
    0 < timesGivenBack calls := by
  induction calls with
  | nil => cases h
  | cons faults rest ih =>
    unfold timesGivenBack
    split_ifs with hcompletes
    · omega
    · omega
    · rw [any_cons, Bool.or_eq_true] at h
      exact ih (h.resolve_left hcompletes)

/-- **Exactly once** holds exactly for the failures that let at most one call give
the amount back, as long as the amount is still there to be given back. -/
theorem refund_once_iff (h : OpenRecord σ requestId record sub) (calls : List RefundFaults) :
    RefundedOnce σ requestId record calls ↔
      (timesGivenBack calls ≤ 1 ∨ sub.amountUsed ≤ record.preConsumed) ∧
        (calls.any completes = true → record.preConsumed ≤ sub.amountUsed) := by
  have hpos := h.pos
  have hnonneg := h.nonneg
  obtain ⟨hused, hok⟩ := refundCalls_spec h calls
  have hdone := @timesGivenBack_pos calls
  unfold RefundedOnce
  rw [hused, hok, usedOf_open h]
  clear hused
  have hamount (k : Nat) : k = 0 ∧ k * record.preConsumed = 0 ∨
      k = 1 ∧ k * record.preConsumed = record.preConsumed ∨
      2 ≤ k ∧ 2 * record.preConsumed ≤ k * record.preConsumed := by
    obtain rfl | rfl | hk : k = 0 ∨ k = 1 ∨ 2 ≤ k := by omega
    · simp
    · simp
    · exact .inr (.inr ⟨hk, mul_le_mul_of_nonneg_right (by omega) hpos.le⟩)
  by_cases hany : calls.any completes = true
  · have hk := hdone hany
    generalize timesGivenBack calls = k at hk ⊢
    simp only [hany, true_implies]
    -- giving back twice is noticed unless the counter was already at 0 after once
    have := hamount k
    omega
  · generalize timesGivenBack calls = k
    rw [Bool.not_eq_true] at hany
    simp only [hany, Bool.false_eq_true, false_implies, and_true]
    have := hamount k
    omega

/-! ### The retry loop -/

/-- The retry loop makes one, two or three calls. -/
theorem refundWithRetry_calls (σ : Store) (requestId : String) (first second third : RefundFaults) :
    ∃ calls, calls <+: [first, second, third] ∧ calls ≠ [] ∧
      (refundWithRetry σ requestId first second third).1 = (refundCalls σ requestId calls).1 ∧
      (refundWithRetry σ requestId first second third).2.isOk =
        (refundCalls σ requestId calls).2 := by
  unfold refundWithRetry
  rcases h₁ : refundUnder first σ requestId with ⟨σ₁, e₁ | _⟩
  · rcases h₂ : refundUnder second σ₁ requestId with ⟨σ₂, e₂ | _⟩
    · -- the last attempt is made whatever it returns
      refine ⟨[first, second, third], prefix_rfl, by simp, ?_, ?_⟩
      · simp [refundCalls, h₁, h₂]
      · simp [refundCalls, h₁, h₂, Except.isOk, Except.toBool]
    · refine ⟨[first, second], ⟨[third], rfl⟩, by simp, ?_, ?_⟩
      · simp [refundCalls, h₁, h₂]
      · simp [refundCalls, h₁, h₂, Except.isOk, Except.toBool]
  · refine ⟨[first], ⟨[second, third], rfl⟩, by simp, ?_, ?_⟩
    · simp [refundCalls, h₁]
    · simp [refundCalls, h₁, Except.isOk, Except.toBool]

/-- **The retry loop** on an open record gives the amount back once for each of
its attempts that commits the inner transaction while the record is open, and
returns success when one of them completes. -/
theorem refundWithRetry_spec (h : OpenRecord σ requestId record sub)
    (first second third : RefundFaults) :
    ∃ calls, calls <+: [first, second, third] ∧ calls ≠ [] ∧
      usedOf (refundWithRetry σ requestId first second third).1 record.userSubscriptionId =
        max (sub.amountUsed - timesGivenBack calls * record.preConsumed) 0 ∧
      (refundWithRetry σ requestId first second third).2.isOk = calls.any completes := by
  obtain ⟨calls, hcalls, hne, hstore, hok⟩ := refundWithRetry_calls σ requestId first second third
  obtain ⟨hused, hany⟩ := refundCalls_spec h calls
  refine ⟨calls, hcalls, hne, ?_, ?_⟩
  · rw [hstore, hused]
  · rw [hok, hany]

/-- A subscription of which thirty units are used, ten of them by the open
record of request `a`. -/
def thirtyUsed : Store :=
  { users := empty
    tokens := empty
    plans := empty
    subs := empty.insert
      (fun id => { id, userId := 1, planId := 1, amountTotal := 100, amountUsed := 30,
                   startTime := 1000, endTime := 90000, status := .active, source := "order",
                   lastResetTime := 0, nextResetTime := 0, upgradeGroup := "",
                   prevUserGroup := "", downgradeGroup := "", allowWalletOverflow := true })
      fun _ => rfl
    records := empty.insert (fun id => ⟨id, "a", 1, 1, 10, .consumed⟩) fun _ => rfl
    log := [] }

theorem openRecord_thirtyUsed :
    ∃ sub, sub.amountUsed = 30 ∧ OpenRecord thirtyUsed "a" ⟨1, "a", 1, 1, 10, .consumed⟩ sub :=
  ⟨_, rfl, by decide, rfl, by decide, by decide, by decide, rfl, by decide, by decide, by decide⟩

/-- A call that fails before the inner transaction, and one that completes. -/
theorem refund_once_after_failed_begin :
    RefundedOnce thirtyUsed "a" ⟨1, "a", 1, 1, 10, .consumed⟩ [[.begin], []] := by
  obtain ⟨sub, hused, hopen⟩ := openRecord_thirtyUsed
  refine (refund_once_iff hopen _).mpr ⟨.inl (by decide), fun _ => ?_⟩
  rw [hused]
  decide

/-- The record cannot be saved in the first call; the second call completes, and
ten units are given back twice. -/
theorem refund_retried :
    ¬ RefundedOnce thirtyUsed "a" ⟨1, "a", 1, 1, 10, .consumed⟩ [[.saveRecord], []] := by
  decide +kernel
