/-
Usage reports that are delivered in any order and any number of times.

Reports are charged in serialised transactions.  Between them, marks are set on
records, and the rest of the system may write users and tokens as it likes.

* `reports_run` — the records are those that were there, followed by the reports
  that were charged in the run, in order;
* `charged_effect`, `DeliveredOnce` — what a delivery does in any state;
* `usage_charged_once` — each logical request is charged at most once, exactly and
  entirely, and known reports are answered without a charge.
-/
import AcuGateway.Lib.Run
import AcuGateway.UsageCharge

open List

/-! ### Runs -/

/-- A report is delivered, a record is marked, or users and tokens are written by
another part of the system. -/
inductive UsageStep
  | report (input : ACUUsageChargeInput) (now : Int)
  | mark (id now : Int)
  | elsewhere (users : Users) (tokens : Tokens)

namespace UsageDB

variable (db : UsageDB)

def step : UsageStep → UsageDB
  | .report input now => (applyACUUsageCharge db input now).after db
  | .mark id now => markACUUsageFinalized db id now
  | .elsewhere users tokens => { db with users, tokens }

/-- The report that a step charges. -/
def chargedBy : UsageStep → Option ACUUsageChargeInput
  | .report input now =>
    match applyACUUsageCharge db input now with
    | .commit (_, false) _ => some input
    | _ => none
  | _ => none

/-- The reports that a run charges, in order. -/
def chargedReports : UsageDB → List UsageStep → List ACUUsageChargeInput
  | _, [] => []
  | db, call :: calls => (db.chargedBy call).toList ++ chargedReports (db.step call) calls

/-- The reports on record. -/
def reports : List ACUUsageChargeInput := db.finalizes.rows.map fun r => r.toACUUsageChargeInput

end UsageDB

open UsageDB

variable {db db' : UsageDB} {input : ACUUsageChargeInput} {now : Int} {record : ACUUsageFinalize}

/-- A delivery that does not charge changes nothing. -/
theorem after_uncharged
    (h : ∀ record db', applyACUUsageCharge db input now ≠ .commit (record, false) db') :
    (applyACUUsageCharge db input now).after db = db := by
  have hdelivery := applyACUUsageCharge_delivery db input now
  generalize applyACUUsageCharge db input now = outcome at h hdelivery
  cases hdelivery with
  | known hr hkey => exact answerKnown_after _ _ _
  | otherKey hr hlogical hkeys => rfl
  | unpaid hfree hunpaid => rfl
  | charged hfree hwallet htoken => exact absurd rfl (h _ _)

theorem chargedBy_eq_some (h : applyACUUsageCharge db input now = .commit (record, false) db') :
    db.chargedBy (.report input now) = some input := by
  rw [chargedBy, h]

/-- A report is charged, or its delivery changes nothing. -/
theorem report_cases :
    (∃ record db', applyACUUsageCharge db input now = .commit (record, false) db') ∨
      db.chargedBy (.report input now) = none ∧ db.step (.report input now) = db := by
  by_cases h : ∃ record db', applyACUUsageCharge db input now = .commit (record, false) db'
  · exact .inl h
  · have hnot : ∀ record db', applyACUUsageCharge db input now ≠ .commit (record, false) db' :=
      fun record db' heq => h ⟨record, db', heq⟩
    refine .inr ⟨?_, after_uncharged hnot⟩
    rw [chargedBy]
    split
    · rename_i heq
      exact absurd heq (hnot _ _)
    · rfl

/-- A charge puts the report on record. -/
theorem reports_charged (h : applyACUUsageCharge db input now = .commit (record, false) db') :
    db'.reports = db.reports ++ [input] := by
  obtain ⟨hfree, users, tokens, -, -, rfl⟩ := applyACUUsageCharge_charged h
  exact map_append

/-- One step appends the report that it charges. -/
theorem reports_step (call : UsageStep) :
    (db.step call).reports = db.reports ++ (db.chargedBy call).toList := by
  cases call with
  | report input now =>
    rcases report_cases with ⟨record, db', h⟩ | ⟨hnone, hsame⟩
    · rw [chargedBy_eq_some h, step, h]
      exact reports_charged h
    · rw [hnone, hsame]
      exact (append_nil _).symm
  | mark id now =>
    have hcolumn := Table.map_column_update
      (fun r : ACUUsageFinalize => r.toACUUsageChargeInput) db.finalizes.rows (fun r => r.id = id)
      (fun r => { r with status := .finalized, updatedAt := now }) fun _ _ => rfl
    exact hcolumn.trans (append_nil _).symm
  | elsewhere users tokens => exact (append_nil _).symm

/-- The records after a run. -/
theorem reports_run (db : UsageDB) (calls : List UsageStep) :
    (Run.exec step db calls).reports = db.reports ++ db.chargedReports calls := by
  induction calls generalizing db with
  | nil => exact (append_nil _).symm
  | cons call calls ih =>
    rw [Run.exec_cons, ih, reports_step, append_assoc]
    rfl

theorem logical_nodup (db : UsageDB) :
    (db.reports.map fun report => report.logicalRequestId).Nodup := by
  unfold reports
  rw [map_map]
  exact db.logical_unique

/-! ### Deliveries -/

/-- A charge: the user pays the report and has one more request, the token pays it
unless it is unlimited, neither is left with less than nothing, no one else pays,
and the report is on record. -/
structure ChargeEffect (db db' : UsageDB) (input : ACUUsageChargeInput) (now : Int) : Prop where
  wallet : ∃ u, db.users.find? input.userId = some u ∧
    Replaces db.users db'.users input.userId (u.charge input.finalQuota) ∧
    0 ≤ (u.charge input.finalQuota).quota
  token : ∃ t, db.tokens.find? input.tokenId = some t ∧
    Replaces db.tokens db'.tokens input.tokenId (t.charge input.finalQuota now) ∧
    (t.unlimitedQuota = false → 0 ≤ (t.charge input.finalQuota now).remainQuota)
  record : db'.reports = db.reports ++ [input]

/-- A delivery charges entirely or changes nothing; a report on record is answered
with its record, and one that contradicts the records is refused. -/
structure DeliveredOnce (db : UsageDB) (input : ACUUsageChargeInput) (now : Int) : Prop where
  charged : ∀ record db', applyACUUsageCharge db input now = .commit (record, false) db' →
    ChargeEffect db db' input now
  uncharged : (∀ record db', applyACUUsageCharge db input now ≠ .commit (record, false) db') →
    (applyACUUsageCharge db input now).after db = db
  redelivered : ∀ r ∈ db.finalizes.rows, sameACUFinalizePayload r input = true →
    applyACUUsageCharge db input now = .commit (r, true) db
  otherPayload : ∀ r ∈ db.finalizes.rows, r.reportIdempotencyKey = input.reportIdempotencyKey →
    sameACUFinalizePayload r input = false → ∃ e, applyACUUsageCharge db input now = .rollback e
  otherKey : ∀ r ∈ db.finalizes.rows, r.logicalRequestId = input.logicalRequestId →
    r.reportIdempotencyKey ≠ input.reportIdempotencyKey →
      ∃ e, applyACUUsageCharge db input now = .rollback e

section Deliveries

variable {r : ACUUsageFinalize}

theorem charged_effect (h : applyACUUsageCharge db input now = .commit (record, false) db') :
    ChargeEffect db db' input now := by
  obtain ⟨hfree, users, tokens, hwallet, htoken, rfl⟩ := applyACUUsageCharge_charged h
  obtain ⟨u, hu, hcovers, hreplaces⟩ := chargeACUWallet_ok hwallet
  obtain ⟨t, ht, htcovers, htreplaces⟩ := chargeACUToken_ok htoken
  refine ⟨⟨u, hu, hreplaces, ?_⟩, ⟨t, ht, htreplaces, ?_⟩, reports_charged h⟩
  · exact Int.sub_nonneg.mpr hcovers.2
  · intro hlimited
    have hremain := htcovers.2.2 hlimited
    show 0 ≤ if t.unlimitedQuota then t.remainQuota else t.remainQuota - input.finalQuota
    rw [hlimited, if_neg Bool.false_ne_true]
    omega

theorem reportKey_of_same (h : sameACUFinalizePayload r input = true) :
    r.reportIdempotencyKey = input.reportIdempotencyKey := (of_decide_eq_true h).2.1

theorem otherPayload_refused (hr : r ∈ db.finalizes.rows)
    (hkey : r.reportIdempotencyKey = input.reportIdempotencyKey)
    (hother : sameACUFinalizePayload r input = false) :
    applyACUUsageCharge db input now =
      .rollback "ACU finalize idempotency key payload mismatch" := by
  rw [applyACUUsageCharge_known hr hkey, answerKnown_other hother]

/-- A logical request on record is refused under another key, also when that key is
on record for another request. -/
theorem otherKey_refused (hr : r ∈ db.finalizes.rows)
    (hlogical : r.logicalRequestId = input.logicalRequestId)
    (hkey : r.reportIdempotencyKey ≠ input.reportIdempotencyKey) :
    ∃ e, applyACUUsageCharge db input now = .rollback e := by
  have hdelivery := applyACUUsageCharge_delivery db input now
  generalize applyACUUsageCharge db input now = outcome at hdelivery
  cases hdelivery with
  | known hx hxkey =>
    rename_i x
    have hother : sameACUFinalizePayload x input = false := by
      refine decide_eq_false ?_
      rintro ⟨-, -, hxlogical, -⟩
      -- one record for one logical request
      have hxr := inj_on_of_nodup_map db.logical_unique hx hr (hxlogical.trans hlogical.symm)
      exact hkey (hxr ▸ hxkey)
    exact ⟨_, answerKnown_other hother⟩
  | otherKey hx hxlogical hkeys => exact ⟨_, rfl⟩
  | unpaid hfree hunpaid => exact ⟨_, rfl⟩
  | charged hfree hwallet htoken => exact absurd hlogical (hfree r hr).2

theorem deliveredOnce : DeliveredOnce db input now where
  charged _ _ h := charged_effect h
  uncharged := after_uncharged
  redelivered r hr hsame := by
    rw [applyACUUsageCharge_known hr (reportKey_of_same hsame)]
    exact if_pos hsame
  otherPayload r hr hkey hother := ⟨_, otherPayload_refused hr hkey hother⟩
  otherKey r hr hlogical hkey := otherKey_refused hr hlogical hkey

end Deliveries

/-! ### Exactly once -/

/-- **Usage is charged once.**  In every run from every state, no two charged
reports are for one logical request, and none is for a logical request that had
been on record; every charged report is on record at the end and is answered as
processed if it is delivered again; and a further delivery of any report charges
entirely or changes nothing, answers what is on record, and refuses what
contradicts it. -/
theorem usage_charged_once (db : UsageDB) (calls : List UsageStep) :
    ((db.chargedReports calls).map fun report => report.logicalRequestId).Nodup ∧
    (∀ report ∈ db.chargedReports calls, ∀ r ∈ db.finalizes.rows, report.logicalRequestId ≠
      r.logicalRequestId) ∧
    (∀ report ∈ db.chargedReports calls,
      ∃ r ∈ (Run.exec step db calls).finalizes.rows, r.toACUUsageChargeInput = report ∧
        ∀ now, applyACUUsageCharge (Run.exec step db calls) report now =
          .commit (r, true) (Run.exec step db calls)) ∧
    ∀ input now, DeliveredOnce (Run.exec step db calls) input now := by
  have hreports := reports_run db calls
  have hnodup := logical_nodup (Run.exec step db calls)
  rw [hreports, map_append, nodup_append] at hnodup
  obtain ⟨-, hcharged, hdisjoint⟩ := hnodup
  refine ⟨hcharged, ?_, ?_, fun input now => deliveredOnce⟩
  · intro report hmem r hr
    have hold : r.logicalRequestId ∈ db.reports.map fun report => report.logicalRequestId :=
      mem_map.mpr ⟨r.toACUUsageChargeInput, mem_map.mpr ⟨r, hr, rfl⟩, rfl⟩
    exact (hdisjoint _ hold _ (mem_map.mpr ⟨report, hmem, rfl⟩)).symm
  · intro report hmem
    have hfinal : report ∈ (Run.exec step db calls).reports := by
      rw [hreports]
      exact mem_append_right _ hmem
    obtain ⟨r, hr, rfl⟩ := mem_map.mp hfinal
    have hsame : sameACUFinalizePayload r r.toACUUsageChargeInput = true :=
      decide_eq_true ⟨rfl, rfl, rfl, rfl, rfl, rfl⟩
    exact ⟨r, hr, rfl, fun now => deliveredOnce.redelivered r hr hsame⟩
