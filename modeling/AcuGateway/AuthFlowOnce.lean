/-
One-time tokens and assertions are honoured once.

A flow is consumed by a conditional update, so the row itself tells whether it was consumed.  That
an assertion was claimed is known only as long as its row exists, and a clean-up may delete the row
a day after the claim.  An assertion that has expired by then is turned away by its expiry; but the
expiry is checked before the row is inserted, and a claim that is held up in between may find the
row of an earlier claim deleted.

* `AuthFlows.Inv` — what the rows say about the consumptions and claims so far;
* `AuthFlows.Frame` — a call leaves the rows and claims that others have locked;
* `AuthFlows.InTime` — the row of a claim is inserted before the assertion expires;
* `honoured_once` — in every run of such steps;
* `claim_held_up` — an assertion that is claimed twice.
-/
import AcuGateway.AuthFlow

open List

namespace AuthFlows

variable {env : AuthFlowEnv} {i j : Nat} {w w' : World}

/-! ### What holds at all times -/

/-- The claims of an assertion, the first one first. -/
def claimsOf (w : World) (purpose assertion : String) : List Claim :=
  w.claimed.filter fun claim => claim.purpose = purpose ∧ claim.assertion = assertion

/-- Two versions of a row. -/
def SameFlow (a b : AuthFlow) : Prop := b = { a with consumedAt := b.consumedAt }

/-- The flow that was consumed had been created with this token, and for what the caller named. -/
structure IssuedFor (issued : List Issue) (consumption : Consumption) (issue : Issue) : Prop where
  mem : issue ∈ issued
  id : issue.row.id = consumption.flowId
  token : issue.token = some consumption.token
  matched : consumption.wanted.MatchedBy issue.row
  unexpired : consumption.at_ < issue.row.expiresAt

/-- A row is one that was inserted, possibly consumed since. -/
def Descends (issued : List Issue) (row : AuthFlow) : Prop :=
  ∃ issue ∈ issued, SameFlow issue.row row ∧ (row.consumedAt = none → issue.row.consumedAt = none)

/-- The first claim of an assertion that expires within a day is the only one, and its row is there
as long as the assertion has not expired. -/
def ClaimedOnce (env : AuthFlowEnv) (w : World) (purpose assertion : String) : Prop :=
  ∀ first rest, claimsOf w purpose assertion = first :: rest →
    env.expiry purpose assertion ≤ first.at_ + authFlowDefaultCleanupRetention →
    rest = [] ∧ (env.expiry purpose assertion < w.clock ∨
      ∃ row ∈ w.flows.rows, row.tokenHash = env.assertionHash purpose assertion ∧
        row.consumedAt = some first.at_ ∧ row.expiresAt = env.expiry purpose assertion)

variable {purpose assertion : String}

/-- Time passes, and the rows of claims stay. -/
theorem ClaimedOnce.mono (h : ClaimedOnce env w purpose assertion)
    (hclaims : claimsOf w' purpose assertion = claimsOf w purpose assertion)
    (hclock : w.clock ≤ w'.clock)
    (hrows : ∀ row ∈ w.flows.rows, ∀ at_, row.consumedAt = some at_ → row ∈ w'.flows.rows) :
    ClaimedOnce env w' purpose assertion := by
  intro first rest hfirst hexpiry
  obtain ⟨hrest, hrow⟩ := h first rest (hclaims ▸ hfirst) hexpiry
  refine ⟨hrest, hrow.imp (fun hpast => Int.lt_of_lt_of_le hpast hclock) ?_⟩
  rintro ⟨row, hmem, hhash, hconsumed, hexpires⟩
  exact ⟨row, hrows row hmem _ hconsumed, hhash, hconsumed, hexpires⟩

structure Inv (env : AuthFlowEnv) (w : World) : Prop where
  rows : ∀ row ∈ w.flows.rows, Descends w.issued row
  past : ∀ flows ∈ w.past, ∀ row ∈ flows.rows, Descends w.issued row
  ids : ∀ a ∈ w.issued, ∀ b ∈ w.issued, a.row.id = b.row.id → a = b
  below : ∀ issue ∈ w.issued, issue.row.id < w.flows.seq
  tokens : ∀ issue ∈ w.issued, issue.row.consumedAt = none →
    ∃ token, issue.token = some token ∧ issue.row.tokenHash = env.tokenHash token
  once : (w.consumed.map Consumption.flowId).Nodup
  unconsumed : ∀ row ∈ w.flows.rows, row.consumedAt = none →
    ∀ consumption ∈ w.consumed, consumption.flowId ≠ row.id
  matched : ∀ consumption ∈ w.consumed, ∃ issue, IssuedFor w.issued consumption issue
  claims : ∀ purpose assertion, ClaimedOnce env w purpose assertion

/-! ### What a call knows -/

/-- A flow that was read under a token. -/
structure Known (env : AuthFlowEnv) (w : World) (flow : AuthFlow) (token : String)
    (wanted : AuthFlowMatch) : Prop where
  descends : Descends w.issued flow
  hash : flow.tokenHash = env.tokenHash token
  matched : wanted.MatchedBy flow

/-- A transaction that has consumed a flow holds its row. -/
structure HoldsFlow (i : Nat) (w : World) (consumption : Consumption) : Prop where
  row : ∃ row ∈ w.flows.rows, isConsumable consumption.flowId consumption.at_ row = true ∧
    w.locks row.tokenHash = some i
  issue : ∃ issue, IssuedFor w.issued consumption issue

/-- A transaction that has claimed an assertion holds its index entry; the assertion was not claimed
before, or is one that lasts. -/
structure HoldsClaim (env : AuthFlowEnv) (i : Nat) (w : World) (claim : Claim) : Prop where
  lock : w.locks (env.assertionHash claim.purpose claim.assertion) = some i
  absent : ∀ row ∈ w.flows.rows, row.tokenHash ≠ env.assertionHash claim.purpose claim.assertion
  first : ∀ first rest, claimsOf w claim.purpose claim.assertion = first :: rest →
    first.at_ + authFlowDefaultCleanupRetention < env.expiry claim.purpose claim.assertion

structure OwnTx (env : AuthFlowEnv) (i : Nat) (w : World) (tx : Pending) : Prop where
  consumed : ∀ consumption ∈ tx.consumed, HoldsFlow i w consumption
  claims : ∀ claim ∈ tx.claims, HoldsClaim env i w claim
  distinct : (tx.claims.map fun claim => env.assertionHash claim.purpose claim.assertion).Nodup

def Own (env : AuthFlowEnv) (i : Nat) (w : World) : Call → Prop
  | .found flow token wanted => Known env w flow token wanted
  | .checked flow token wanted _ => Known env w flow token wanted
  | .acting tx => OwnTx env i w tx
  | .claiming tx _ _ _ => OwnTx env i w tx
  | .sweeping now => now ≤ w.clock
  | _ => True

/-- A step of a call leaves what the others have locked: the rows and index entries of a token hash,
and the claims under it. -/
structure Frame (env : AuthFlowEnv) (i : Nat) (w w' : World) : Prop where
  locks : ∀ j hash, j ≠ i → w.locks hash = some j → w'.locks hash = some j
  rows : ∀ j row, j ≠ i → w.locks row.tokenHash = some j →
    (row ∈ w'.flows.rows ↔ row ∈ w.flows.rows)
  claims : ∀ j purpose assertion, j ≠ i → w.locks (env.assertionHash purpose assertion) = some j →
    claimsOf w' purpose assertion = claimsOf w purpose assertion
  issued : ∀ issue ∈ w.issued, issue ∈ w'.issued
  clock : w.clock ≤ w'.clock

variable {locks : Locks String}

namespace Frame

theorem of_locks (h : ∀ j hash, j ≠ i → w.locks hash = some j → locks hash = some j) :
    Frame env i w { w with locks } :=
  ⟨h, fun _ _ _ _ => Iff.rfl, fun _ _ _ _ _ => rfl, fun _ h => h, Int.le_refl _⟩

theorem refl : Frame env i w w := of_locks fun _ _ _ h => h

theorem trans {w'' : World} (h : Frame env i w w') (h' : Frame env i w' w'') :
    Frame env i w w'' where
  locks j hash hj hlock := h'.locks j hash hj (h.locks j hash hj hlock)
  rows j row hj hlock := (h'.rows j row hj (h.locks j _ hj hlock)).trans (h.rows j row hj hlock)
  claims j purpose assertion hj hlock :=
    (h'.claims j purpose assertion hj (h.locks j _ hj hlock)).trans
      (h.claims j purpose assertion hj hlock)
  issued issue hissue := h'.issued issue (h.issued issue hissue)
  clock := Int.le_trans h.clock h'.clock

end Frame

variable {issued issued' : List Issue} {consumption : Consumption} {call : Call} {flow : AuthFlow}
  {wanted : AuthFlowMatch} {tx : Pending}

variable {row : AuthFlow}

theorem Descends.mono (hissued : ∀ issue ∈ issued, issue ∈ issued')
    (h : Descends issued row) : Descends issued' row := by
  obtain ⟨issue, hissue, hsame, hnone⟩ := h
  exact ⟨issue, hissued issue hissue, hsame, hnone⟩

variable {issue : Issue}

theorem IssuedFor.mono (hissued : ∀ issue ∈ issued, issue ∈ issued')
    (h : IssuedFor issued consumption issue) :
    IssuedFor issued' consumption issue :=
  ⟨hissued issue h.mem, h.id, h.token, h.matched, h.unexpired⟩

theorem HoldsFlow.frame (hj : j ≠ i) (hframe : Frame env i w w')
    (h : HoldsFlow j w consumption) : HoldsFlow j w' consumption := by
  obtain ⟨⟨row, hrow, hconsumable, hlock⟩, issue, hissue⟩ := h
  refine ⟨⟨row, (hframe.rows j row hj hlock).mpr hrow, hconsumable, hframe.locks j _ hj hlock⟩,
    issue, ?_⟩
  exact hissue.mono hframe.issued

variable {claim : Claim}

theorem HoldsClaim.frame (hj : j ≠ i) (hframe : Frame env i w w') (h : HoldsClaim env j w claim) :
    HoldsClaim env j w' claim where
  lock := hframe.locks j _ hj h.lock
  absent := by
    intro row hrow heq
    have hlock : w.locks row.tokenHash = some j := by rw [heq]; exact h.lock
    exact h.absent row ((hframe.rows j row hj hlock).mp hrow) heq
  first := by
    rw [hframe.claims j _ _ hj h.lock]
    exact h.first

/-- What another call knows stays true. -/
theorem Own.frame (hj : j ≠ i) (hframe : Frame env i w w') (h : Own env j w call) :
    Own env j w' call := by
  have hknown : ∀ {flow token wanted}, Known env w flow token wanted →
      Known env w' flow token wanted :=
    fun hk => ⟨hk.descends.mono hframe.issued, hk.hash, hk.matched⟩
  have htx : ∀ {tx}, OwnTx env j w tx → OwnTx env j w' tx := fun ht =>
    ⟨fun k hk => (ht.consumed k hk).frame hj hframe, fun c hc => (ht.claims c hc).frame hj hframe,
      ht.distinct⟩
  cases call with
  | found flow token wanted => exact hknown h
  | checked flow token wanted now => exact hknown h
  | acting tx => exact htx h
  | claiming tx purpose assertion now => exact htx h
  | sweeping now => exact Int.le_trans h hframe.clock
  | idle | creating | begun | returned => trivial

/-! ### Consuming a flow -/

variable {now : Int}

theorem mem_honourConsumption :
    row ∈ (w.honourConsumption consumption).flows.rows ↔ ∃ r ∈ w.flows.rows,
      row = if isConsumable consumption.flowId consumption.at_ r then
        { r with consumedAt := some consumption.at_ } else r := by
  rw [World.honourConsumption, Table.mem_update]

/-- A row that is consumed, or belongs to another flow, stays. -/
theorem mem_honourConsumption_of_not
    (hnot : isConsumable consumption.flowId consumption.at_ row = false)
    (hrow : row ∈ w.flows.rows) : row ∈ (w.honourConsumption consumption).flows.rows :=
  mem_honourConsumption.mpr ⟨row, hrow, by rw [hnot]; rfl⟩

theorem isConsumable_of_consumed {id : Int} {at_ : Int} (h : row.consumedAt = some at_) :
    isConsumable id now row = false :=
  decide_eq_false fun hc => by rw [h] at hc; cases hc.2.1

/-- The only row that is consumed is the one the transaction holds. -/
theorem HoldsFlow.lock_of_consumable (hk : HoldsFlow i w consumption) (hrow : row ∈ w.flows.rows)
    (hc : isConsumable consumption.flowId consumption.at_ row = true) :
    w.locks row.tokenHash = some i := by
  obtain ⟨held, hheld, hconsumable, hlock⟩ := hk.row
  have hid : row.id = held.id :=
    (of_decide_eq_true hc).1.trans (of_decide_eq_true hconsumable).1.symm
  rw [Table.eq_of_key_eq hrow hheld hid]
  exact hlock

theorem Inv.honourConsumption (h : Inv env w) (hk : HoldsFlow i w consumption) :
    Inv env (w.honourConsumption consumption) where
  rows := by
    intro row hrow
    obtain ⟨r, hr, rfl⟩ := mem_honourConsumption.mp hrow
    obtain ⟨issue, hissue, hsame, hnone⟩ := h.rows r hr
    split
    · refine ⟨issue, hissue, ?_, fun hn => by cases hn⟩
      rw [SameFlow] at hsame ⊢
      rw [hsame]
    · exact ⟨issue, hissue, hsame, hnone⟩
  past := h.past
  ids := h.ids
  below := h.below
  tokens := h.tokens
  once := by
    -- the row that is held is not consumed, so no consumption names it
    obtain ⟨held, hheld, hconsumable, -⟩ := hk.row
    obtain ⟨hid, hnone, -⟩ := of_decide_eq_true hconsumable
    show ((w.consumed ++ [consumption]).map Consumption.flowId).Nodup
    refine Table.nodup_column_concat h.once fun k hmem => ?_
    rw [← hid]
    exact h.unconsumed held hheld hnone k hmem
  unconsumed := by
    intro row hrow hnone k hmem
    obtain ⟨r, hr, rfl⟩ := mem_honourConsumption.mp hrow
    split at hnone
    · cases hnone
    · rename_i hnot
      rw [if_neg hnot]
      refine forall_mem_append.mpr
        ⟨h.unconsumed r hr hnone, forall_mem_singleton.mpr fun hid => ?_⟩ k hmem
      -- the row of this consumption is the one that was consumable
      obtain ⟨held, hheld, hconsumable, -⟩ := hk.row
      have heq : r = held :=
        Table.eq_of_key_eq hr hheld (hid.symm.trans (of_decide_eq_true hconsumable).1.symm)
      rw [heq] at hnot
      exact hnot hconsumable
  matched := forall_mem_append.mpr ⟨h.matched, forall_mem_singleton.mpr hk.issue⟩
  claims purpose assertion :=
    (h.claims purpose assertion).mono rfl (Int.le_refl _) fun _ hrow _ hconsumed =>
      mem_honourConsumption_of_not (isConsumable_of_consumed hconsumed) hrow

theorem HoldsFlow.frame_honour (hk : HoldsFlow i w consumption) :
    Frame env i w (w.honourConsumption consumption) where
  locks _ _ _ h := h
  rows := by
    intro j row hj hlock
    constructor
    · intro hrow
      obtain ⟨r, hr, rfl⟩ := mem_honourConsumption.mp hrow
      split at hlock
      · rename_i hc
        exact absurd (Locks.owner_unique (hk.lock_of_consumable hr hc) hlock) hj
      · rename_i hnot
        rwa [if_neg hnot]
    · intro hrow
      refine mem_honourConsumption_of_not ?_ hrow
      by_contra hc
      exact hj (Locks.owner_unique (hk.lock_of_consumable hrow (by simpa using hc)) hlock)
  claims _ _ _ _ _ := rfl
  issued _ h := h
  clock := Int.le_refl _

/-- A claim of the same transaction is not affected. -/
theorem HoldsClaim.honourConsumption (h : HoldsClaim env i w claim) :
    HoldsClaim env i (w.honourConsumption consumption) claim where
  lock := h.lock
  absent := by
    intro row hrow
    obtain ⟨r, hr, rfl⟩ := mem_honourConsumption.mp hrow
    split
    · exact h.absent r hr
    · exact h.absent r hr
  first := h.first

/-! ### New rows -/

variable {token : String}

section Insert

section

variable (h : Inv env w)

include h

/-- One more row is issued, under the next id. -/
theorem ids_concat (hid : issue.row.id = w.flows.seq) :
    (∀ a ∈ w.issued ++ [issue], ∀ b ∈ w.issued ++ [issue], a.row.id = b.row.id → a = b) ∧
      ∀ a ∈ w.issued ++ [issue], a.row.id < w.flows.seq + 1 := by
  refine ⟨fun a ha b hb heq => ?_, fun a ha => ?_⟩
  · -- a new id is above all the earlier ones
    rcases mem_append.mp ha with ha | ha <;> rcases mem_append.mp hb with hb | hb
    · exact h.ids a ha b hb heq
    · have := h.below a ha
      rw [mem_singleton.mp hb] at heq
      omega
    · have := h.below b hb
      rw [mem_singleton.mp ha] at heq
      omega
    · rw [mem_singleton.mp ha, mem_singleton.mp hb]
  · rcases mem_append.mp ha with ha | ha
    · have := h.below a ha
      omega
    · rw [mem_singleton.mp ha]
      omega

/-- The rows that are there descend from what was issued, also when a row was added. -/
theorem rows_concat (issue : Issue) :
    ∀ row ∈ w.flows.rows ++ [issue.row], Descends (w.issued ++ [issue]) row := by
  refine forall_mem_append.mpr ⟨fun row hrow => ?_, forall_mem_singleton.mpr ?_⟩
  · exact (h.rows row hrow).mono fun a ha => mem_append_left _ ha
  · exact ⟨issue, mem_append_right _ (mem_singleton_self _), rfl, fun hn => hn⟩

theorem past_mono : ∀ flows ∈ w.past, ∀ row ∈ flows.rows, Descends (w.issued ++ [issue]) row :=
  fun flows hflows row hrow => (h.past flows hflows row hrow).mono fun _ ha => mem_append_left _ ha

theorem matched_mono :
    ∀ consumption ∈ w.consumed, ∃ a, IssuedFor (w.issued ++ [issue]) consumption a := by
  intro consumption hmem
  obtain ⟨earlier, hearlier⟩ := h.matched consumption hmem
  exact ⟨earlier, hearlier.mono fun _ hb => mem_append_left _ hb⟩

/-- A consumption is of a row with a smaller id. -/
theorem consumed_ne_seq (hmem : consumption ∈ w.consumed) : consumption.flowId ≠ w.flows.seq := by
  obtain ⟨issue, hissue⟩ := h.matched consumption hmem
  have := h.below issue hissue.mem
  rw [hissue.id] at this
  omega

end

theorem claimsOf_honourClaim : claimsOf (w.honourClaim env claim) purpose assertion =
      if claim.purpose = purpose ∧ claim.assertion = assertion then
        claimsOf w purpose assertion ++ [claim]
      else claimsOf w purpose assertion := by
  show (w.claimed ++ [claim]).filter _ = _
  rw [filter_append]
  by_cases hpair : claim.purpose = purpose ∧ claim.assertion = assertion
  · rw [if_pos hpair, filter_cons_of_pos (by simpa using hpair)]
    rfl
  · rw [if_neg hpair, filter_cons_of_neg (by simpa using hpair), filter_nil, append_nil]
    rfl

variable {input : AuthFlowCreate}

theorem Inv.honourClaim (h : Inv env w) (hclaim : HoldsClaim env i w claim) :
    Inv env (w.honourClaim env claim) where
  rows := rows_concat h ⟨env.newAssertion claim.purpose claim.assertion claim.at_ w.flows.seq, none⟩
  past := past_mono h
  ids := (ids_concat h rfl).1
  below := (ids_concat h rfl).2
  tokens := forall_mem_append.mpr ⟨h.tokens, forall_mem_singleton.mpr nofun⟩
  once := h.once
  unconsumed := forall_mem_append.mpr ⟨h.unconsumed, forall_mem_singleton.mpr nofun⟩
  matched := matched_mono h
  claims := by
    intro purpose assertion
    by_cases hpair : claim.purpose = purpose ∧ claim.assertion = assertion
    · intro first rest hclaims hexpiry
      rw [claimsOf_honourClaim, if_pos hpair] at hclaims
      obtain ⟨rfl, rfl⟩ := hpair
      cases hold : claimsOf w claim.purpose claim.assertion with
      | nil =>
        rw [hold, nil_append] at hclaims
        obtain ⟨rfl, hrest⟩ := List.cons.inj hclaims
        exact ⟨hrest.symm, .inr ⟨_, mem_append_right _ (mem_singleton_self _), rfl, rfl, rfl⟩⟩
      | cons earlier others =>
        -- the assertion was claimed before, so it is one that lasts
        rw [hold, cons_append] at hclaims
        have hlasts := hclaim.first earlier others hold
        rw [(List.cons.inj hclaims).1] at hlasts
        omega
    · refine (h.claims purpose assertion).mono ?_ (Int.le_refl _) fun _ hrow _ _ =>
        mem_append_left _ hrow
      rw [claimsOf_honourClaim, if_neg hpair]

/-- A new row belongs to the one who could insert it. -/
theorem mem_concat_locked (hfree : w.locks.Free i flow.tokenHash) (j : Nat) (row : AuthFlow)
    (hj : j ≠ i) (hlock : w.locks row.tokenHash = some j) :
    row ∈ w.flows.rows ++ [flow] ↔ row ∈ w.flows.rows := by
  refine ⟨fun hrow => ?_, fun hrow => mem_append_left _ hrow⟩
  rcases mem_append.mp hrow with hrow | hrow
  · exact hrow
  · rw [mem_singleton.mp hrow] at hlock
    exact absurd (hfree j hlock) hj

theorem HoldsClaim.frame_honour (hclaim : HoldsClaim env i w claim) :
    Frame env i w (w.honourClaim env claim) where
  locks _ _ _ h := h
  rows := mem_concat_locked fun _ hlock => Locks.owner_unique hclaim.lock hlock
  claims := by
    intro j purpose assertion hj hlock
    rw [claimsOf_honourClaim, if_neg]
    rintro ⟨rfl, rfl⟩
    exact hj (Locks.owner_unique hclaim.lock hlock)
  issued issue hissue := mem_append_left _ hissue
  clock := Int.le_refl _

/-- Another claim of the same transaction is not affected. -/
theorem HoldsClaim.honourClaim {other : Claim} (h : HoldsClaim env i w other)
    (hne : env.assertionHash claim.purpose claim.assertion ≠
      env.assertionHash other.purpose other.assertion) :
    HoldsClaim env i (w.honourClaim env claim) other where
  lock := h.lock
  absent := forall_mem_append.mpr ⟨h.absent, forall_mem_singleton.mpr hne⟩
  first := by
    rw [claimsOf_honourClaim, if_neg]
    · exact h.first
    · rintro ⟨hpurpose, hassertion⟩
      rw [hpurpose, hassertion] at hne
      exact hne rfl

/-- All claims of a transaction. -/
theorem honourClaims {claims : List Claim} (h : Inv env w)
    (hclaims : ∀ claim ∈ claims, HoldsClaim env i w claim)
    (hdistinct : (claims.map fun claim => env.assertionHash claim.purpose claim.assertion).Nodup) :
    Inv env (claims.foldl (World.honourClaim env) w) ∧
      Frame env i w (claims.foldl (World.honourClaim env) w) := by
  induction claims generalizing w with
  | nil => exact ⟨h, .refl⟩
  | cons claim claims ih =>
    obtain ⟨hclaim, hclaims⟩ := forall_mem_cons.mp hclaims
    obtain ⟨hnotin, hdistinct⟩ := nodup_cons.mp hdistinct
    have hothers : ∀ other ∈ claims, HoldsClaim env i (w.honourClaim env claim) other := by
      intro other hother
      refine (hclaims other hother).honourClaim fun heq => hnotin ?_
      exact mem_map.mpr ⟨other, hother, heq.symm⟩
    obtain ⟨hinv, hframe⟩ := ih (h.honourClaim hclaim) hothers hdistinct
    exact ⟨hinv, hclaim.frame_honour.trans hframe⟩

/-- What a transaction commits. -/
theorem Inv.honour (h : Inv env w) (htx : OwnTx env i w tx) :
    Inv env (w.honour env tx) ∧ Frame env i w (w.honour env tx) := by
  rw [World.honour]
  cases hconsumed : tx.consumed with
  | none => exact honourClaims h htx.claims htx.distinct
  | some consumption =>
    have hflow := htx.consumed consumption hconsumed
    obtain ⟨hinv, hframe⟩ := honourClaims (h.honourConsumption hflow)
      (fun claim hclaim => (htx.claims claim hclaim).honourConsumption) htx.distinct
    exact ⟨hinv, hflow.frame_honour.trans hframe⟩

theorem Inv.insertFlow (h : Inv env w) : Inv env (w.insertFlow env token input) where
  rows := rows_concat h ⟨env.newFlow input token w.flows.seq, some token⟩
  past := forall_mem_append.mpr ⟨past_mono h, forall_mem_singleton.mpr fun row hrow =>
    (h.rows row hrow).mono fun _ ha => mem_append_left _ ha⟩
  ids := (ids_concat h rfl).1
  below := (ids_concat h rfl).2
  tokens := forall_mem_append.mpr ⟨h.tokens, forall_mem_singleton.mpr fun _ => ⟨token, rfl, rfl⟩⟩
  once := h.once
  unconsumed := forall_mem_append.mpr
    ⟨h.unconsumed, forall_mem_singleton.mpr fun _ _ hmem => consumed_ne_seq h hmem⟩
  matched := matched_mono h
  claims purpose assertion :=
    (h.claims purpose assertion).mono rfl (Int.le_refl _) fun _ hrow _ _ => mem_append_left _ hrow

theorem frame_insertFlow (hfree : w.locks.Free i (env.tokenHash token)) :
    Frame env i w (w.insertFlow env token input) where
  locks _ _ _ h := h
  rows := mem_concat_locked hfree
  claims _ _ _ _ _ := rfl
  issued _ hissue := mem_append_left _ hissue
  clock := Int.le_refl _

end Insert

/-! ### Cleaning up -/

theorem mem_deleteWhere :
    row ∈ (w.flows.deleteWhere (isStale now)).rows ↔
      row ∈ w.flows.rows ∧ isStale now row = false := by
  simp [Table.deleteWhere]

/-- The row of an assertion that expires within a day of its claim is deleted only after its
expiry. -/
theorem expired_of_stale {first expiry : Int} (hconsumed : row.consumedAt = some first)
    (hexpires : row.expiresAt = expiry) (hday : expiry ≤ first + authFlowDefaultCleanupRetention)
    (hstale : isStale now row = true) : expiry < now := by
  unfold authFlowDefaultCleanupRetention at hday
  rcases of_decide_eq_true hstale with hold | ⟨consumedAt, hmem, hold⟩
  · unfold authFlowDefaultCleanupRetention at hold
    omega
  · unfold authFlowDefaultCleanupRetention at hold
    rw [hconsumed, Option.mem_some_iff] at hmem
    omega

theorem Inv.delete (h : Inv env w) (hnow : now ≤ w.clock) :
    Inv env { w with flows := w.flows.deleteWhere (isStale now), past := w.past ++ [w.flows] } where
  rows row hrow := h.rows row (mem_deleteWhere.mp hrow).1
  past := forall_mem_append.mpr ⟨h.past, forall_mem_singleton.mpr h.rows⟩
  ids := h.ids
  below := h.below
  tokens := h.tokens
  once := h.once
  unconsumed row hrow := h.unconsumed row (mem_deleteWhere.mp hrow).1
  matched := h.matched
  claims := by
    intro purpose assertion first rest hclaims hexpiry
    obtain ⟨hrest, hrow⟩ := h.claims purpose assertion first rest hclaims hexpiry
    refine ⟨hrest, ?_⟩
    rcases hrow with hclock | ⟨row, hmem, hhash, hconsumed, hexpires⟩
    · exact .inl hclock
    · -- a row that is deleted is that of an assertion that has expired
      cases hstale : isStale now row with
      | false => exact .inr ⟨row, mem_deleteWhere.mpr ⟨hmem, hstale⟩, hhash, hconsumed, hexpires⟩
      | true =>
        exact .inl (Int.lt_of_lt_of_le (expired_of_stale hconsumed hexpires hexpiry hstale) hnow)

theorem frame_delete
    (hfree : ¬ ∃ flow ∈ w.flows.rows, isStale now flow = true ∧ ¬ w.locks.Free i flow.tokenHash) :
    Frame env i w
      { w with flows := w.flows.deleteWhere (isStale now), past := w.past ++ [w.flows] } where
  locks _ _ _ h := h
  rows := by
    intro j row hj hlock
    refine ⟨fun hrow => (mem_deleteWhere.mp hrow).1, fun hrow => mem_deleteWhere.mpr ⟨hrow, ?_⟩⟩
    by_contra hstale
    refine hfree ⟨row, hrow, by simpa using hstale, fun hf => ?_⟩
    exact hj (hf j hlock)
  claims _ _ _ _ _ := rfl
  issued _ h := h
  clock := Int.le_refl _

/-! ### Steps -/

/-- The assertion whose row a step inserts. -/
def claimInserted : Call → Act → Option (String × String)
  | .claiming _ purpose assertion _, .insertClaim => some (purpose, assertion)
  | _, _ => none

/-- The row of a claim is inserted before the assertion expires, though the expiry was checked
earlier. -/
def InTime (env : AuthFlowEnv) (_ : Nat) (w : World) (call : Call) (a : Act) : Prop :=
  ∀ claim ∈ claimInserted call a, w.clock ≤ env.expiry claim.1 claim.2
deriving Decidable

/-- What a step does. -/
structure Spec (env : AuthFlowEnv) (i : Nat) (w : World) (result : World × Call) : Prop where
  inv : Inv env result.1
  own : Own env i result.1 result.2
  frame : Frame env i w result.1

theorem Inv.of_locks (h : Inv env w) : Inv env { w with locks } :=
  ⟨h.rows, h.past, h.ids, h.below, h.tokens, h.once, h.unconsumed, h.matched, h.claims⟩

theorem le_tick (clock : Int) (duration : Nat) : clock ≤ clock + duration := by omega

theorem Inv.tick (h : Inv env w) (duration : Nat) :
    Inv env { w with clock := w.clock + duration } :=
  { h with
    claims := fun purpose assertion =>
      (h.claims purpose assertion).mono rfl (le_tick w.clock duration) fun _ hrow _ _ => hrow }

theorem frame_tick (duration : Nat) : Frame env i w { w with clock := w.clock + duration } where
  locks _ _ _ h := h
  rows _ _ _ _ := Iff.rfl
  claims _ _ _ _ _ := rfl
  issued _ h := h
  clock := le_tick w.clock duration

section

variable (h : Inv env w)

include h

theorem spec_same (hown : Own env i w call) : Spec env i w (w, call) := ⟨h, hown, .refl⟩

theorem spec_rollback (err : String) : Spec env i w (rollback i w err) :=
  ⟨h.of_locks, trivial, .of_locks fun _ _ hj hlock => Locks.release_of_ne hj hlock⟩

/-- A lock is taken; what the call knew stays true. -/
theorem spec_take {hash : String} (hfree : w.locks.Free i hash)
    (hown : Own env i { w with locks := w.locks.take i hash } call) :
    Spec env i w ({ w with locks := w.locks.take i hash }, call) :=
  ⟨h.of_locks, hown, .of_locks fun _ _ hj hlock => Locks.take_of_ne hfree hj hlock⟩

/-- What is read, is known. -/
theorem known_of_read {version : Nat} (hread : ((w.seen env version).rows.find? fun flow =>
      flow.tokenHash = env.tokenHash token ∧ wanted.MatchedBy flow) = some flow) :
    Known env w flow token wanted := by
  have hspec := find?_some hread
  obtain ⟨hhash, hmatched⟩ := of_decide_eq_true hspec
  refine ⟨?_, hhash, hmatched⟩
  have hmem := mem_of_find?_eq_some hread
  rw [World.seen] at hmem
  -- an earlier version of the rows has only what was issued, too
  split at hmem
  · exact h.rows flow hmem
  · rw [getD_eq_getElem?_getD] at hmem
    cases hversion : w.past[version]? with
    | none =>
      rw [hversion] at hmem
      exact h.rows flow hmem
    | some flows =>
      rw [hversion] at hmem
      exact h.past flows (mem_of_getElem? hversion) flow hmem

/-- The row that a consumption updates is the flow that was read, and was created with its token. -/
theorem holdsFlow_of_update (hinj : Function.Injective env.tokenHash)
    (hknown : Known env w flow token wanted)
    (haffected : w.flows.affected (isConsumable flow.id now) = 1) :
    HoldsFlow i { w with locks := w.locks.take i flow.tokenHash }
      ⟨flow.id, token, wanted, now⟩ := by
  obtain ⟨row, hrow, hconsumable⟩ :=
    countP_pos_iff.mp (Nat.lt_of_lt_of_eq Nat.one_pos haffected.symm)
  obtain ⟨hid, hnone, hexpires⟩ := of_decide_eq_true hconsumable
  obtain ⟨issue, hissue, hsame, hunconsumed⟩ := h.rows row hrow
  obtain ⟨issue', hissue', hsame', -⟩ := hknown.descends
  -- the row and the flow that was read descend from one issue: they have one id
  have hrowid : row.id = issue.row.id := by rw [hsame]
  have hflowid : flow.id = issue'.row.id := by rw [hsame']
  have heq : issue' = issue := h.ids _ hissue' _ hissue (by rw [← hrowid, ← hflowid, hid])
  subst heq
  have hhash : row.tokenHash = flow.tokenHash := by rw [hsame, hsame']
  obtain ⟨token', htoken, hissuehash⟩ := h.tokens issue' hissue (hunconsumed hnone)
  have htokens : token' = token := by
    apply hinj
    rw [← hissuehash, ← hknown.hash, hsame']
  refine ⟨⟨row, hrow, hconsumable, ?_⟩, issue', hissue, hflowid.symm, ?_, ?_, ?_⟩
  · show w.locks.take i flow.tokenHash row.tokenHash = _
    rw [hhash, Locks.take_self]
  · rw [htoken, htokens]
  · have hmatched := hknown.matched
    rw [hsame'] at hmatched
    exact hmatched
  · rw [hsame] at hexpires
    exact hexpires

/-- A claim finds no row: either the assertion was not claimed before, or it is one that lasts. -/
theorem holdsClaim_of_insert
    (habsent : ¬ (w.flows.rows.any fun flow => flow.tokenHash =
      env.assertionHash purpose assertion) = true)
    (hintime : w.clock ≤ env.expiry purpose assertion) :
    HoldsClaim env i { w with locks := w.locks.take i (env.assertionHash purpose assertion) }
      ⟨purpose, assertion, now⟩ := by
  have hnone : ∀ row ∈ w.flows.rows, row.tokenHash ≠ env.assertionHash purpose assertion := by
    intro row hrow heq
    exact habsent (any_eq_true.mpr ⟨row, hrow, by simpa using heq⟩)
  refine ⟨Locks.take_self _ _ _, hnone, ?_⟩
  intro first rest hclaims
  by_contra hday
  obtain ⟨-, hclock | ⟨row, hrow, hhash, -⟩⟩ :=
    h.claims purpose assertion first rest hclaims (by simpa using hday)
  · omega
  · exact hnone row hrow hhash

end

theorem OwnTx.take (h : OwnTx env i w tx) (hash : String) :
    OwnTx env i { w with locks := w.locks.take i hash } tx where
  consumed := by
    intro consumption hmem
    obtain ⟨⟨row, hrow, hconsumable, hlock⟩, hissue⟩ := h.consumed consumption hmem
    exact ⟨⟨row, hrow, hconsumable, Locks.take_mono hlock⟩, hissue⟩
  claims := by
    intro claim hmem
    have hclaim := h.claims claim hmem
    exact ⟨Locks.take_mono hclaim.lock, hclaim.absent, hclaim.first⟩
  distinct := h.distinct

theorem OwnTx.insertClaim (h : OwnTx env i w tx) (hclaim : HoldsClaim env i w claim)
    (hnew : ¬ (tx.claims.any fun other => env.assertionHash other.purpose other.assertion =
      env.assertionHash claim.purpose claim.assertion) = true) :
    OwnTx env i w { tx with claims := tx.claims ++ [claim] } where
  consumed := h.consumed
  claims := forall_mem_append.mpr ⟨h.claims, forall_mem_singleton.mpr hclaim⟩
  distinct := by
    refine Table.nodup_column_concat h.distinct fun other hmem heq => hnew ?_
    exact any_eq_true.mpr ⟨other, hmem, by simpa using heq⟩

theorem spec_commit (h : Inv env w) (htx : OwnTx env i w tx) : Spec env i w
      ({ w.honour env tx with past := w.past ++ [w.flows], locks := w.locks.release i },
        .returned (.ok ())) := by
  obtain ⟨hinv, hframe⟩ := h.honour htx
  refine ⟨{ hinv with past := ?_ }, trivial, { hframe with locks := ?_ }⟩
  · refine forall_mem_append.mpr
      ⟨fun flows hflows row hrow => ?_, forall_mem_singleton.mpr fun row hrow => ?_⟩
    · exact (h.past flows hflows row hrow).mono hframe.issued
    · exact (h.rows row hrow).mono hframe.issued
  · exact fun _ _ hj hlock => Locks.release_of_ne hj hlock

theorem step_spec (hinj : Function.Injective env.tokenHash) {a : Act} (h : Inv env w)
    (hown : Own env i w call) (hintime : InTime env i w call a) :
    Spec env i w (step env i w call a) := by
  unfold step
  split
  -- time passes; that is as good as the step of another call
  · exact ⟨h.tick _, hown.frame (Nat.succ_ne_self i).symm (frame_tick _ : Frame env (i + 1) w _),
      frame_tick _⟩
  -- a flow is created
  · split_ifs
    · exact spec_same h trivial
    · exact spec_same h trivial
  · split_ifs with hfree hduplicate
    · exact spec_same h trivial
    · exact ⟨h.insertFlow, trivial, frame_insertFlow hfree⟩
    · exact spec_same h hown
  -- a flow is read, checked and consumed
  · split_ifs
    · exact spec_same h trivial
    · exact spec_same h trivial
  · split
    · exact spec_rollback h _
    rename_i flow hread
    have hknown := known_of_read h hread
    split_ifs with hlocking hfree
    · exact spec_take h hfree ⟨hknown.descends, hknown.hash, hknown.matched⟩
    · exact spec_same h hown
    · exact spec_same h hknown
  · split_ifs
    · exact spec_rollback h _
    · exact spec_rollback h _
    · exact spec_same h hown
  · split_ifs with hfree haffected
    · exact spec_rollback h _
    · refine spec_take h hfree ⟨?_, fun claim hmem => (not_mem_nil hmem).elim, nodup_nil⟩
      rintro consumption ⟨⟩
      exact holdsFlow_of_update h hinj hown (not_not.mp haffected)
    · exact spec_same h hown
  -- an assertion is claimed
  · refine spec_same h ⟨?_, fun claim hmem => (not_mem_nil hmem).elim, nodup_nil⟩
    intro consumption hmem
    cases hmem
  · dsimp only
    split_ifs
    · exact spec_same h hown
    · exact spec_same h hown
  · split_ifs with hfree hpresent
    · exact spec_same h hown
    · obtain ⟨habsent, hnew⟩ := not_or.mp hpresent
      refine spec_take h hfree ?_
      exact OwnTx.insertClaim (OwnTx.take hown _)
        (holdsClaim_of_insert h habsent (hintime _ rfl)) hnew
    · exact spec_same h hown
  · exact spec_commit h hown
  -- rows are deleted
  · exact spec_same h (Int.le_refl w.clock)
  · split_ifs with hlocked
    · exact spec_same h hown
    · exact ⟨h.delete hown, trivial, frame_delete hlocked⟩
  all_goals first | exact spec_rollback h _ | exact spec_same h hown

theorem kept (hinj : Function.Injective env.tokenHash) :
    Threads.Kept (step env) (InTime env) (Inv env) (Own env) where
  inv h hown hintime := (step_spec hinj h hown hintime).inv
  own h hown hintime := (step_spec hinj h hown hintime).own
  others hj h hown hintime hother := hother.frame hj (step_spec hinj h hown hintime).frame

/-! ### Runs -/

/-- No call has begun, at time 0. -/
def start : Threads World Call where
  shared :=
    { flows := .empty, past := [], locks := .none, clock := 0, issued := [], consumed := [],
      claimed := [] }
  thread := fun _ => .idle

theorem start_holds : Threads.Holds (Inv env) (Own env) start where
  inv := by
    refine ⟨nofun, nofun, nofun, nofun, nofun, nodup_nil, nofun, nofun, fun purpose assertion => ?_⟩
    intro first rest hclaims
    cases hclaims
  own := fun _ => trivial

/-- The state after a run. -/
def after (env : AuthFlowEnv) (run : List (Nat × Act)) : World :=
  (Run.exec (Threads.step (step env)) start run).shared

/-- A flow is consumed at most once, before its expiry, with the token it was created with and for
what the caller named; as long as no token is created twice, no token is consumed twice; and an
assertion that expires within a day of its first claim is claimed once. -/
structure HonouredOnce (env : AuthFlowEnv) (w : World) : Prop where
  flows : (w.consumed.map Consumption.flowId).Nodup
  matched : ∀ consumption ∈ w.consumed, ∃ issue, IssuedFor w.issued consumption issue
  tokens : (∀ a ∈ w.issued, ∀ b ∈ w.issued, ∀ token, a.token = some token → b.token = some token →
    a = b) → (w.consumed.map Consumption.token).Nodup
  claims : ∀ purpose assertion first rest, claimsOf w purpose assertion = first :: rest →
    env.expiry purpose assertion ≤ first.at_ + authFlowDefaultCleanupRetention → rest = []

theorem Inv.honouredOnce (h : Inv env w) : HonouredOnce env w where
  flows := h.once
  matched := h.matched
  tokens := by
    intro hfresh
    refine List.Nodup.map_on (fun a ha b hb heq => ?_) (List.Nodup.of_map _ h.once)
    obtain ⟨issue, hissue⟩ := h.matched a ha
    obtain ⟨issue', hissue'⟩ := h.matched b hb
    have hsame : issue = issue' :=
      hfresh _ hissue.mem _ hissue'.mem a.token hissue.token (by rw [hissue'.token, heq])
    refine inj_on_of_nodup_map h.once ha hb ?_
    rw [← hissue.id, ← hissue'.id, hsame]
  claims purpose assertion first rest hclaims hexpiry :=
    (h.claims purpose assertion first rest hclaims hexpiry).1

end AuthFlows

open AuthFlows

theorem honoured_once (env : AuthFlowEnv) (hinj : Function.Injective env.tokenHash)
    (run : List (Nat × AuthFlows.Act))
    (hrun : Run.Along (Threads.Allowed (AuthFlows.InTime env)) (Threads.step (step env))
      start run) :
    AuthFlows.HonouredOnce env (after env run) :=
  ((kept hinj).exec_holds start_holds hrun).inv.honouredOnce

namespace AuthFlows

/-- Hashes are the tokens themselves, and every assertion expires at the end of the first day. -/
def dayEnv : AuthFlowEnv where
  tokenHash := id
  expiry := fun _ _ => 86400000000000
  locking := false

/-- An assertion is claimed, and claimed again by a call that read the clock before a clean-up and
inserts its row after it. -/
def heldUp : List (Nat × Act) :=
  [(0, .openTx), (0, .claim "telegram_assertion" "a"), (0, .insertClaim), (0, .commit),
    (1, .openTx), (1, .tick 86399999999999), (1, .claim "telegram_assertion" "a"), (2, .tick 2),
    (2, .sweep), (2, .delete),
    (1, .insertClaim), (1, .commit)]

end AuthFlows

/-- The second call is turned away if it inserts its row in time. -/
theorem honoured_once_in_time :
    AuthFlows.HonouredOnce dayEnv (after dayEnv (heldUp.take 7 ++ [(1, .insertClaim)])) :=
  honoured_once dayEnv (fun _ _ h => h) _ (by decide +kernel)

/-- An assertion that expires a day after its claim is claimed twice. -/
theorem claim_held_up : claimsOf (after dayEnv heldUp) "telegram_assertion" "a" =
        [⟨"telegram_assertion", "a", 0⟩, ⟨"telegram_assertion", "a", 86399999999999⟩] ∧
      ¬ AuthFlows.HonouredOnce dayEnv (after dayEnv heldUp) := by
  have htwice : claimsOf (after dayEnv heldUp) "telegram_assertion" "a" =
      [⟨"telegram_assertion", "a", 0⟩, ⟨"telegram_assertion", "a", 86399999999999⟩] := by
        decide +kernel
  refine ⟨htwice, fun h => ?_⟩
  have hone := h.claims _ _ _ _ htwice (by decide)
  cases hone
