import EgoRs.Effects.PostgresEffectStore

/-! # Leases of the Postgres Effect Store

Any number of workers call the store, each statement in one step with a
clock reading that may be old. A worker holds an effect from the statement
that gave it a claim until the lease is over or the worker gives it up.

The owner column names the last worker that was given a claim, so whoever
was replaced is refused. It is NULL again after `mark_retryable`, though, and
then `mark_in_flight` takes anybody. And `claim_due` returns rows of dead
workers that are in flight, which `mark_in_flight` never takes.
-/

namespace EgoRs.Effects

open Framework

/-! ## Claims in a history -/

/-- The statement gave its worker a claim on `id`. -/
def Statement.grants (statement : Statement) (answer : Answer) (id : EffectId) : Bool :=
  match statement, answer with
  | .claimDue _ _, .claimed copies => copies.any fun copy => decide (copy.id = id)
  | .markInFlight other, .result (.ok ()) => decide (other = id)
  | _, _ => false

/-- The statement settled `id` or put it off, and its worker gave up the claim. -/
def Statement.yields (statement : Statement) (answer : Answer) (id : EffectId) : Bool :=
  match statement, answer with
  | .markSucceeded _ other, .result (.ok ()) => decide (other = id)
  | .markRetryable other _ _, .result (.ok ()) => decide (other = id)
  | .markTerminal _ other _, .result (.ok ()) => decide (other = id)
  | _, _ => false

/-- The worker that was given a claim on `id`, and its expiry. -/
def granted (lease : WorkerId → Int) (t : SharedEvent) (id : EffectId) :
    Option (WorkerId × Timestamp) :=
  match t.input with
  | .call worker back statement =>
    if statement.grants t.output id then some (worker, t.pre.clock - back + lease worker) else none
  | _ => none

/-- The worker that gave up its claim on `id`. -/
def gaveUp (t : SharedEvent) (id : EffectId) : Option WorkerId :=
  match t.input with
  | .call worker _ statement => if statement.yields t.output id then some worker else none
  | _ => none

/-- The expiry of the worker's claim on `id`, unless it gave it up. -/
def leaseOf (lease : WorkerId → Int) (h : SharedHistory) (worker : WorkerId) (id : EffectId) :
    Option Timestamp :=
  h.foldl (fun held t =>
    if gaveUp t id = some worker then none
    else
      match granted lease t id with
      | some (other, expiry) => if other = worker then some expiry else held
      | none => held) none

/-- The workers that were given a claim on `id`, in order. -/
def grantees (lease : WorkerId → Int) (h : SharedHistory) (id : EffectId) : List WorkerId :=
  h.filterMap fun t => (granted lease t id).map Prod.fst

def replaced (lease : WorkerId → Int) (h : SharedHistory) (worker : WorkerId) (id : EffectId) :
    Bool :=
  decide (worker ∈ grantees lease h id ∧ (grantees lease h id).getLast? ≠ some worker)

/-- The effect a `mark_*` statement is about. -/
def Statement.marks : Statement → Option EffectId
  | .markInFlight id => some id
  | .markSucceeded _ id => some id
  | .markRetryable id _ _ => some id
  | .markTerminal _ id _ => some id
  | _ => none

/-- The row is `Succeeded` or `TerminalFailed`. -/
def EffectRow.settled {κ : Type} (row : EffectRow κ) : Prop :=
  row.record.state = .succeeded ∨ row.record.state = .terminalFailed

/-- **Leases are exclusive.** -/
structure LeaseExclusive (lease : WorkerId → Int) (h : SharedHistory) (s : Shared) : Prop where
  /-- No two workers hold an effect. -/
  exclusive : ∀ id worker worker' expiry expiry', leaseOf lease h worker id = some expiry →
    s.clock < expiry → leaseOf lease h worker' id = some expiry' → s.clock < expiry' →
    worker = worker'
  /-- A replaced worker is refused. -/
  passed : ∀ n (t : SharedEvent) worker back statement id, h[n]? = some t →
    t.input = .call worker back statement → statement.marks = some id →
    replaced lease (h.take n) worker id = true →
    (∃ e, t.output = .result (.error e)) ∧ t.post.tables = t.pre.tables
  /-- What is settled changes no more. -/
  settled : ∀ t ∈ h, ∀ id row, t.pre.tables.states.lookup id = some row → row.settled →
    t.post.tables.states.lookup id = some row ∨
      (∃ cutoff batch order, t.input = .retention cutoff batch order) ∧
        t.post.tables.states.lookup id = none

/-- A replaced worker does not call `mark_in_flight` on a row without an owner. -/
def startsOwn (lease : WorkerId → Int) (h : SharedHistory) (t : SharedEvent) : Bool :=
  match t.input with
  | .call worker _ (.markInFlight id) =>
    match t.pre.tables.states.lookup id with
    | some row => decide (row.claim.owner ≠ none) || !replaced lease h worker id
    | none => true
  | _ => true

/-! ## What a step does to a row -/

/-- What a step can do to a row, by the claim it gives and by who gives one up. -/
inductive RowSteps (now : Timestamp) (retention : Prop) : Option (WorkerId × Timestamp) →
    Option WorkerId → Option (EffectRow Claim) → Option (EffectRow Claim) → Prop where
  | kept (row : Option (EffectRow Claim)) : RowSteps now retention none none row row
  | inserted (row : EffectRow Claim) (unclaimed : row.claim.owner = none) :
      RowSteps now retention none none none (some row)
  | granted (worker : WorkerId) (expiry : Timestamp) (row row' : EffectRow Claim)
      (free : row.claim.owner = none ∨ row.claim.owner = some worker ∨
        ∃ old, row.claim.expiresAt = some old ∧ old < now)
      (owner : row'.claim.owner = some worker) (expires : row'.claim.expiresAt = some expiry)
      (unsettled : ¬ row.settled) (unsettled' : ¬ row'.settled) :
      RowSteps now retention (some (worker, expiry)) none (some row) (some row')
  | finished (worker : WorkerId) (row row' : EffectRow Claim)
      (owner : row.claim.owner = some worker)
      (owner' : row'.claim.owner = none ∨ row'.claim.owner = some worker)
      (unsettled : ¬ row.settled) :
      RowSteps now retention none (some worker) (some row) (some row')
  | recovered (row row' : EffectRow Claim) (claim : row'.claim = row.claim)
      (unsettled : ¬ row.settled) (unsettled' : ¬ row'.settled) :
      RowSteps now retention none none (some row) (some row')
  | purged (row : EffectRow Claim) (settled : row.settled) (deletes : retention) :
      RowSteps now retention none none (some row) none

/-- What a statement does to the row of `id`. -/
def RowRuns (store : PostgresEffectStore) (now : Timestamp) (retention : Prop)
    (statement : Statement) (answer : Answer) (id : EffectId) :
    Option (EffectRow Claim) → Option (EffectRow Claim) → Prop :=
  RowSteps now retention
    (if statement.grants answer id then some (store.workerId, now + store.lease) else none)
    (if statement.yields answer id then some store.workerId else none)

section
variable {store : PostgresEffectStore} {now : Timestamp} {tables : EffectTables Claim}
  {statement : Statement} {id : EffectId} {retention : Prop}

theorem RowRuns.intro {answer : Answer} {grants yields : Bool}
    {row row' : Option (EffectRow Claim)} (hgrants : statement.grants answer id = grants)
    (hyields : statement.yields answer id = yields)
    (hs : RowSteps now retention
      (if grants then some (store.workerId, now + store.lease) else none)
      (if yields then some store.workerId else none) row row') :
    RowRuns store now retention statement answer id row row' := by
  subst hgrants hyields
  exact hs

theorem RowRuns.kept {answer : Answer} (hgrants : statement.grants answer id = false)
    (hyields : statement.yields answer id = false) (row : Option (EffectRow Claim)) :
    RowRuns store now retention statement answer id row row :=
  .intro hgrants hyields (.kept row)

theorem not_settled_of_mem {row : EffectRow Claim} {allowed : List EffectState}
    (h : row.record.state ∈ allowed) (hsucceeded : EffectState.succeeded ∉ allowed)
    (hfailed : EffectState.terminalFailed ∉ allowed) : ¬ row.settled := by
  rintro (hs | hs)
  · exact hsucceeded (hs ▸ h)
  · exact hfailed (hs ▸ h)

theorem not_settled_of_due {row : EffectRow Claim} (h : row.record.due now = true) :
    ¬ row.settled := by
  simp only [EffectRecord.due, Bool.and_eq_true, decide_eq_true_eq] at h
  rintro (hs | hs) <;> simp [hs] at h

theorem Claim.expired_iff {claim : Claim} :
    claim.expired now = true ↔ ∃ old, claim.expiresAt = some old ∧ old < now := by
  unfold Claim.expired
  cases claim.expiresAt <;> simp

theorem owner_of_mayFinish {claim : Claim} (h : (store.rules now).mayFinish claim = true) :
    claim.owner = some store.workerId := by
  simp only [PostgresEffectStore.rules, Bool.and_eq_true, decide_eq_true_eq] at h
  exact h.1

/-- **A mark changes the row it is about**, which its worker owns or nobody does, or
it is refused and changes nothing. -/
theorem marks_cases (store : PostgresEffectStore) (now : Timestamp) (retention : Prop)
    (tables : EffectTables Claim) {statement : Statement} {other : EffectId}
    (hmarks : statement.marks = some other) :
    (∃ row row', tables.states.lookup other = some row ∧
        RowRuns store now retention statement (.result (.ok ())) other (some row) (some row') ∧
        (row.claim.owner = some store.workerId ∨
          row.claim.owner = none ∧ statement = .markInFlight other) ∧
        statement.run store now tables = (tables.put other row', .result (.ok ()))) ∨
      ∃ e, statement.run store now tables = (tables, .result (.error e)) := by
  -- the answer is that of a transition
  have hrun : ∀ o o' : EffectTables Claim × Except EffectStoreError Unit, o = o' →
      (o.1, Answer.result o.2) = (o'.1, .result o'.2) := by
    rintro o o' rfl
    rfl
  cases statement with
  | markInFlight =>
    cases hmarks
    obtain ⟨row, hat, hstate, hguard, heq⟩ | ⟨e, heq, -⟩ :=
      EffectTables.transition_cases (store.rules now) tables other [.pending, .retryableFailed]
        .inFlight (store.rules now).mayStart
        fun row => { row with claim := (store.rules now).start row.claim }
    · simp only [PostgresEffectStore.rules, Bool.and_eq_true, Bool.or_eq_true,
        decide_eq_true_eq] at hguard
      refine .inl ⟨row, _, hat, ?_, ?_, hrun _ _ heq⟩
      · refine .intro (decide_eq_true rfl) rfl (.granted _ _ row _ ?_ rfl rfl
          (not_settled_of_mem hstate (by simp) (by simp)) ?_)
        · obtain hnone | hown := hguard.1
          · exact .inl hnone
          · exact .inr (.inl hown)
        · rintro (h | h) <;> cases h
      · obtain hnone | hown := hguard.1
        · exact .inr ⟨hnone, rfl⟩
        · exact .inl hown
    · exact .inr ⟨e, hrun _ _ heq⟩
  | markSucceeded wall =>
    cases hmarks
    obtain ⟨row, hat, hstate, hguard, heq⟩ | ⟨e, heq, -⟩ :=
      EffectTables.transition_cases (store.rules now) tables other [.inFlight]
        .succeeded (store.rules now).mayFinish fun row => { row with settledAt := some wall }
    · have howner := owner_of_mayFinish hguard
      refine .inl ⟨row, _, hat, ?_, .inl howner, hrun _ _ heq⟩
      exact .intro rfl (decide_eq_true rfl) (.finished _ row _ howner (.inr howner)
        (not_settled_of_mem hstate (by simp) (by simp)))
    · exact .inr ⟨e, hrun _ _ heq⟩
  | markRetryable _ attempt nextAt =>
    cases hmarks
    obtain ⟨row, hat, hstate, hguard, heq⟩ | ⟨e, heq, -⟩ :=
      EffectTables.transition_cases (store.rules now) tables other [.inFlight]
        .retryableFailed (store.rules now).mayFinish fun row =>
          { row with
            record := { row.record with attempt := attempt, nextAt := some nextAt }
            claim := (store.rules now).retry row.claim }
    · have howner := owner_of_mayFinish hguard
      refine .inl ⟨row, _, hat, ?_, .inl howner, hrun _ _ heq⟩
      exact .intro rfl (decide_eq_true rfl) (.finished _ row _ howner (.inl rfl)
        (not_settled_of_mem hstate (by simp) (by simp)))
    · exact .inr ⟨e, hrun _ _ heq⟩
  | markTerminal wall _ reason =>
    cases hmarks
    obtain ⟨row, hat, hstate, hguard, heq⟩ | ⟨e, heq, -⟩ :=
      EffectTables.transition_cases (store.rules now) tables other [.inFlight, .retryableFailed]
        .terminalFailed (store.rules now).mayFinish fun row =>
          { row with
            record := { row.record with terminalReason := some reason }
            settledAt := some wall }
    · have howner := owner_of_mayFinish hguard
      refine .inl ⟨row, _, hat, ?_, .inl howner, hrun _ _ heq⟩
      exact .intro rfl (decide_eq_true rfl) (.finished _ row _ howner (.inr howner)
        (not_settled_of_mem hstate (by simp) (by simp)))
    · exact .inr ⟨e, hrun _ _ heq⟩
  | accept | claimDue | recoverInFlight => cases hmarks

theorem rowRuns_marks {other : EffectId} (hmarks : statement.marks = some other) (id : EffectId) :
    RowRuns store now retention statement (statement.run store now tables).2 id
      (tables.states.lookup id) ((statement.run store now tables).1.states.lookup id) := by
  obtain ⟨row, row', hat, hown, -, hrun⟩ | ⟨e, hrun⟩ :=
    marks_cases store now retention tables hmarks
  · rw [hrun]
    by_cases hid : id = other
    · subst hid
      rw [EffectTables.lookup_put_self, hat]
      exact hown
    · rw [EffectTables.lookup_put_ne tables row' hid]
      refine .kept ?_ ?_ _
      · cases statement <;> first | rfl | (cases hmarks; exact decide_eq_false (Ne.symm hid))
      · cases statement <;> first | rfl | (cases hmarks; exact decide_eq_false (Ne.symm hid))
  · rw [hrun]
    refine .kept ?_ ?_ _
    · cases statement <;> rfl
    · cases statement <;> rfl

theorem rowRuns_claimDue (limit : Nat) (scan : Scan) (id : EffectId) :
    RowRuns store now retention (.claimDue limit scan)
      ((Statement.claimDue limit scan).run store now tables).2 id (tables.states.lookup id)
      (((Statement.claimDue limit scan).run store now tables).1.states.lookup id) := by
  have hlookup := EffectTables.lookup_claimDue (store.rules now) tables now limit scan id
  show RowRuns store now retention (.claimDue limit scan)
    (.claimed (tables.claimDue (store.rules now) now limit scan).2) id (tables.states.lookup id)
    ((tables.claimDue (store.rules now) now limit scan).1.states.lookup id)
  rw [hlookup]
  by_cases hid : id ∈ tables.selectDue (store.rules now) limit scan
  · obtain ⟨row, hat, hclaimable⟩ := EffectTables.mem_selectDue hid
    have hgrant : (Statement.claimDue limit scan).grants
        (.claimed (tables.claimDue (store.rules now) now limit scan).2) id = true := by
      obtain ⟨copy, hcopy, hcid⟩ := EffectTables.claimDue_of_selected (store.rules now) now hid
      exact List.any_eq_true.mpr ⟨copy, hcopy, decide_eq_true hcid⟩
    simp only [hat, Option.map_some, if_pos hid]
    -- a row that is due and free, or one in flight whose lease is over
    simp only [PostgresEffectStore.rules, Bool.or_eq_true, Bool.and_eq_true, decide_eq_true_eq,
      Claim.expired_iff] at hclaimable
    obtain ⟨hdue, hfree⟩ | ⟨hflight, hover⟩ := hclaimable
    · have hunsettled := not_settled_of_due hdue
      refine .intro hgrant rfl (.granted _ _ row _ ?_ rfl rfl hunsettled hunsettled)
      obtain hnone | hover := hfree
      · exact .inl hnone
      · exact .inr (.inr hover)
    · have hunsettled : ¬ row.settled := by
        rintro (h | h) <;> rw [hflight] at h <;> cases h
      exact .intro hgrant rfl
        (.granted _ _ row _ (.inr (.inr hover)) rfl rfl hunsettled hunsettled)
  · have hsame : (tables.states.lookup id).map (fun row =>
        if id ∈ tables.selectDue (store.rules now) limit scan then
          { row with claim := (store.rules now).stamp row.claim }
        else row) = tables.states.lookup id := by
      simp [hid]
    rw [hsame]
    refine .kept ?_ rfl _
    apply List.any_eq_false.mpr
    intro copy hcopy hcid
    have hmem := (EffectTables.mem_claimDue hcopy).1
    rw [of_decide_eq_true hcid] at hmem
    exact hid hmem

/-- **Every statement does one of these to a row.** -/
theorem rowRuns_run (store : PostgresEffectStore) (now : Timestamp) (retention : Prop)
    (tables : EffectTables Claim) (statement : Statement) (id : EffectId) :
    RowRuns store now retention statement (statement.run store now tables).2 id
      (tables.states.lookup id) ((statement.run store now tables).1.states.lookup id) := by
  cases statement with
  | accept effect =>
    obtain ⟨hnew, row, -, -, hclaim, -, -, heq⟩ | ⟨heq, -⟩ :=
      EffectTables.accept_cases (store.rules now) tables effect
    · have hrun : (Statement.accept effect).run store now tables =
          (tables.put effect.id row, .result (.ok ())) := by
        simp only [Statement.run, PostgresEffectStore.accept, heq]
      rw [hrun]
      by_cases hid : id = effect.id
      · subst hid
        rw [hnew, EffectTables.lookup_put_self]
        exact RowSteps.inserted row (by rw [hclaim]; rfl)
      · rw [EffectTables.lookup_put_ne tables row hid]
        exact RowSteps.kept _
    · have hrun : ((Statement.accept effect).run store now tables).1 = tables := heq
      rw [hrun]
      exact RowSteps.kept _
  | claimDue limit scan => exact rowRuns_claimDue limit scan id
  | recoverInFlight =>
    show RowRuns store now retention .recoverInFlight .none id (tables.states.lookup id)
      ((tables.recoverInFlight (store.rules now) now).states.lookup id)
    unfold EffectTables.recoverInFlight
    simp only [Table.lookup_updateWhere]
    cases hat : tables.states.lookup id with
    | none => exact RowSteps.kept _
    | some row =>
      simp only [Option.map_some]
      split
      · rename_i hrecover
        simp only [Bool.and_eq_true, decide_eq_true_eq] at hrecover
        refine RowSteps.recovered row _ rfl ?_ ?_
        · rintro (h | h) <;> rw [hrecover.1] at h <;> cases h
        · rintro (h | h) <;> cases h
      · exact RowSteps.kept _
  | _ => exact rowRuns_marks rfl id

end

theorem rowSteps_step (lease : WorkerId → Int) (s : Shared) (input : SharedInput) (id : EffectId) :
    ∃ now ≤ s.clock, RowSteps now (∃ cutoff batch order, input = .retention cutoff batch order)
      (granted lease ((effectTable lease).fire s input) id)
      (gaveUp ((effectTable lease).fire s input) id) (s.tables.states.lookup id)
      (((effectTable lease).fire s input).post.tables.states.lookup id) := by
  cases input with
  | advance => exact ⟨s.clock, le_refl _, .kept _⟩
  | call worker back statement =>
    refine ⟨s.clock - back, Int.sub_le_self _ (Int.natCast_nonneg back), ?_⟩
    exact rowRuns_run ⟨worker, lease worker⟩ _ _ _ statement id
  | retention cutoff batch order =>
    refine ⟨s.clock, le_refl _, ?_⟩
    show RowSteps s.clock _ none none (s.tables.states.lookup id)
      ((runRetention s.tables cutoff batch order).states.lookup id)
    unfold runRetention
    simp only [Table.lookup_deleteWhere]
    cases hat : s.tables.states.lookup id with
    | none => exact .kept _
    | some row =>
      simp only [Option.filter_some]
      split
      · exact .kept _
      · rename_i hpurged
        refine .purged row ?_ ⟨cutoff, batch, order, rfl⟩
        simp only [EffectRow.purgeable, Bool.not_eq_true', Bool.not_eq_false, Bool.and_eq_true,
          decide_eq_true_eq] at hpurged
        exact hpurged.2.1

/-! ## Every state of a run -/

section
variable {lease : WorkerId → Int} {h : SharedHistory} {s : Shared}

theorem leaseOf_snoc (t : SharedEvent) (worker : WorkerId) (id : EffectId) :
    leaseOf lease (h ++ [t]) worker id =
      if gaveUp t id = some worker then none
      else
        match granted lease t id with
        | some (other, expiry) => if other = worker then some expiry else leaseOf lease h worker id
        | none => leaseOf lease h worker id := by
  unfold leaseOf
  rw [List.foldl_append]
  rfl

theorem grantees_snoc (t : SharedEvent) (id : EffectId) : grantees lease (h ++ [t]) id =
      grantees lease h id ++ ((granted lease t id).map Prod.fst).toList := by
  unfold grantees
  rw [List.filterMap_append]
  cases hg : granted lease t id <;> simp [hg]

/-- **The owner column and the history agree.** -/
structure Leases (lease : WorkerId → Int) (h : SharedHistory) (s : Shared) : Prop where
  /-- The owner is the last one that was given a claim. -/
  owner : ∀ id row worker, s.tables.states.lookup id = some row →
    row.claim.owner = some worker → (grantees lease h id).getLast? = some worker
  /-- Who holds the effect is its owner. -/
  held : ∀ id worker expiry, leaseOf lease h worker id = some expiry → s.clock < expiry →
    ∃ row, s.tables.states.lookup id = some row ∧ row.claim.owner = some worker ∧
      row.claim.expiresAt = some expiry ∧ ¬ row.settled

variable {t : SharedEvent} {worker : WorkerId} {back : Nat} {statement : Statement} {id : EffectId}

theorem Leases.owner_step (hl : Leases lease h s) (input : SharedInput) :
    ∀ id row worker, ((effectTable lease).fire s input).post.tables.states.lookup id = some row →
      row.claim.owner = some worker →
      (grantees lease (h ++ [(effectTable lease).fire s input]) id).getLast? = some worker := by
  intro id row worker hat howner
  obtain ⟨now, -, hs⟩ := rowSteps_step lease s input id
  rw [hat] at hs
  rw [grantees_snoc]
  generalize granted lease ((effectTable lease).fire s input) id = grant at hs ⊢
  generalize gaveUp ((effectTable lease).fire s input) id = yield at hs
  generalize hrow : s.tables.states.lookup id = before at hs
  cases hs with
  | kept => simpa using hl.owner id row worker hrow howner
  | inserted _ unclaimed =>
    rw [unclaimed] at howner
    cases howner
  | granted _ _ _ _ _ owner =>
    rw [owner] at howner
    simpa using howner
  | finished _ row₀ _ owner owner' =>
    obtain hnone | hsome := owner'
    · rw [hnone] at howner
      cases howner
    · rw [hsome] at howner
      simpa using hl.owner id row₀ worker hrow (owner.trans howner)
  | recovered row₀ _ claim =>
    rw [claim] at howner
    simpa using hl.owner id row₀ worker hrow howner

theorem Leases.held_step (hl : Leases lease h s) (input : SharedInput) : ∀ id worker expiry,
      leaseOf lease (h ++ [(effectTable lease).fire s input]) worker id = some expiry →
      ((effectTable lease).fire s input).post.clock < expiry →
      ∃ row, ((effectTable lease).fire s input).post.tables.states.lookup id = some row ∧
        row.claim.owner = some worker ∧ row.claim.expiresAt = some expiry ∧ ¬ row.settled := by
  intro id worker expiry hlease hlive
  have hclock : s.clock < expiry := by
    refine lt_of_le_of_lt ?_ hlive
    cases input with
    | advance time =>
      exact Int.le_add_of_nonneg_right (Int.natCast_nonneg time)
    | call | retention => exact le_refl _
  obtain ⟨now, hnow, hs⟩ := rowSteps_step lease s input id
  rw [leaseOf_snoc] at hlease
  -- who held the effect before the step owned its row
  have hheld : leaseOf lease h worker id = some expiry → ∀ row,
      s.tables.states.lookup id = row → ∃ row₀, row = some row₀ ∧ row₀.claim.owner = some worker ∧
        row₀.claim.expiresAt = some expiry ∧ ¬ row₀.settled := by
    rintro hbefore row rfl
    exact hl.held id worker expiry hbefore hclock
  generalize granted lease ((effectTable lease).fire s input) id = grant at hs hlease
  generalize gaveUp ((effectTable lease).fire s input) id = yield at hs hlease
  generalize ((effectTable lease).fire s input).post.tables.states.lookup id = after at hs ⊢
  generalize s.tables.states.lookup id = before at hs hheld
  cases hs with
  | kept => exact hheld (by simpa using hlease) _ rfl
  | inserted =>
    obtain ⟨row₀, hat, -⟩ := hheld (by simpa using hlease) _ rfl
    cases hat
  | purged _ settled =>
    -- nobody holds a settled effect
    obtain ⟨row₀, hat, -, -, hunsettled⟩ := hheld (by simpa using hlease) _ rfl
    cases hat
    exact absurd settled hunsettled
  | granted _ _ _ row' free owner expires _ unsettled' =>
    simp only [reduceCtorEq, if_false] at hlease
    split at hlease
    · rename_i hsame
      subst hsame
      cases hlease
      exact ⟨row', rfl, owner, expires, unsettled'⟩
    · -- the one that held it would have kept it
      rename_i hne
      obtain ⟨row₀, hat, howner, hexpires, -⟩ := hheld hlease _ rfl
      cases hat
      obtain hnone | hown | ⟨old, hold, hover⟩ := free
      · rw [hnone] at howner
        cases howner
      · rw [hown] at howner
        cases howner
        exact absurd rfl hne
      · rw [hold] at hexpires
        cases hexpires
        exact absurd (lt_of_lt_of_le hover hnow) (lt_asymm hclock)
  | finished _ _ _ owner =>
    split at hlease
    · cases hlease
    · rename_i hne
      obtain ⟨row₀, hat, howner, -⟩ := hheld hlease _ rfl
      cases hat
      rw [owner] at howner
      exact absurd howner hne
  | recovered _ row' claim _ unsettled' =>
    obtain ⟨row₀, hat, howner, hexpires, -⟩ := hheld (by simpa using hlease) _ rfl
    cases hat
    exact ⟨row', rfl, by rw [claim]; exact howner, by rw [claim]; exact hexpires, unsettled'⟩

theorem leases_run (he : (effectTable lease).Run h s) : Leases lease h s := by
  refine he.invariant (P := Leases lease) ?_ ?_
  · refine ⟨?_, ?_⟩
    · intro id row worker hat
      cases hat
    · intro id worker expiry hlease
      cases hlease
  · intro h s input _ hl
    exact ⟨hl.owner_step input, hl.held_step input⟩

/-- A replaced worker's mark is refused. -/
theorem Leases.refused (hl : Leases lease h s) (hmarks : statement.marks = some id)
    (hreplaced : replaced lease h worker id = true)
    (hown : startsOwn lease h ((effectTable lease).fire s (.call worker back statement)) = true) :
    ∃ e, statement.run ⟨worker, lease worker⟩ (s.clock - back) s.tables =
      (s.tables, .result (.error e)) := by
  obtain ⟨row, row', hat, -, howner | ⟨hnone, rfl⟩, -⟩ | hrefused :=
    marks_cases ⟨worker, lease worker⟩ (s.clock - back) False s.tables hmarks
  · -- the owner of a row is not a replaced worker
    exact absurd (hl.owner id row worker hat howner) (of_decide_eq_true hreplaced).2
  · simp [startsOwn, hat, hnone, hreplaced] at hown
  · exact hrefused

/-- What is settled stays, or is deleted by the retention. -/
theorem settled_step (lease : WorkerId → Int) (s : Shared) (input : SharedInput)
    {row : EffectRow Claim} (hat : s.tables.states.lookup id = some row) (hsettled : row.settled) :
    ((effectTable lease).fire s input).post.tables.states.lookup id = some row ∨
      (∃ cutoff batch order, input = .retention cutoff batch order) ∧
        ((effectTable lease).fire s input).post.tables.states.lookup id = none := by
  obtain ⟨now, -, hs⟩ := rowSteps_step lease s input id
  rw [hat] at hs
  generalize granted lease ((effectTable lease).fire s input) id = grant at hs
  generalize gaveUp ((effectTable lease).fire s input) id = yield at hs
  generalize ((effectTable lease).fire s input).post.tables.states.lookup id = after at hs ⊢
  cases hs with
  | kept => exact .inl rfl
  | purged _ _ deletes => exact .inr ⟨deletes, rfl⟩
  | granted _ _ _ _ _ _ _ unsettled | finished _ _ _ _ _ unsettled
  | recovered _ _ _ unsettled => exact absurd hsettled unsettled

end

/-! ## Lease exclusivity -/

/-- **Leases are exclusive** in every run in which a replaced worker does not start
an effect that has no owner. -/
theorem lease_exclusive {lease : WorkerId → Int} {h : SharedHistory} {s : Shared}
    (he : (effectTable lease).Exec (effectTable lease).init h s)
    (hown : Along (fun h t => startsOwn lease h t = true) h) : LeaseExclusive lease h s where
  exclusive := by
    intro id worker worker' expiry expiry' hheld hlive hheld' hlive'
    have hl := leases_run he
    obtain ⟨row, hat, howner, -⟩ := hl.held id worker expiry hheld hlive
    obtain ⟨row', hat', howner', -⟩ := hl.held id worker' expiry' hheld' hlive'
    obtain rfl := Option.mem_unique hat hat'
    rw [howner] at howner'
    exact Option.some.inj howner'
  passed := by
    intro n t worker back statement id hn hinput hmarks hreplaced
    obtain ⟨hbefore, hfire, -⟩ := he.split_position hn
    rw [hinput] at hfire
    have hstarts : startsOwn lease (h.take n) t = true := by
      apply hown (h.take n) t (h.drop (n + 1))
      obtain ⟨hlt, hget⟩ := List.getElem?_eq_some_iff.mp hn
      rw [← hget, ← List.drop_eq_getElem_cons hlt, List.take_append_drop]
    rw [hfire] at hstarts
    obtain ⟨e, hrun⟩ := (leases_run hbefore).refused hmarks hreplaced hstarts
    have hstep : ((effectTable lease).fire t.pre (.call worker back statement)).post.tables =
        (statement.run ⟨worker, lease worker⟩ (t.pre.clock - back) t.pre.tables).1 := rfl
    have hanswer : ((effectTable lease).fire t.pre (.call worker back statement)).output =
        (statement.run ⟨worker, lease worker⟩ (t.pre.clock - back) t.pre.tables).2 := rfl
    rw [← hfire, hrun] at hstep hanswer
    exact ⟨⟨e, hanswer⟩, hstep⟩
  settled := by
    intro t ht id row hat hsettled
    obtain ⟨n, hn⟩ := List.mem_iff_getElem?.mp ht
    obtain ⟨-, hfire, -⟩ := he.split_position hn
    rw [hfire]
    exact settled_step lease t.pre t.input hat hsettled

def tenEach : WorkerId → Int := fun _ => 10

/-- A SELECT that finds the rows as they are stored, none of them locked. -/
def plainScan : Scan := ⟨.stored, false, fun _ => false⟩

def sampleEffect : AcceptedEffect := ⟨⟨"a"⟩, sampleTenant, 0, sampleMail⟩

/-- Worker `u` claims an effect and stalls; worker `v` takes it over, and `u` is
refused. -/
def takenOver : List SharedInput :=
  [.call ⟨"u"⟩ 0 (.accept sampleEffect), .call ⟨"u"⟩ 0 (.claimDue 32 plainScan), .advance 11,
    .call ⟨"v"⟩ 0 (.claimDue 32 plainScan), .call ⟨"v"⟩ 0 (.markInFlight ⟨"a"⟩),
    .call ⟨"u"⟩ 0 (.markInFlight ⟨"a"⟩), .call ⟨"v"⟩ 0 (.markSucceeded 11 ⟨"a"⟩),
    .retention 20 10 .stored]

theorem lease_exclusive_taken_over :
    replaced tenEach ((effectTable tenEach).trace (effectTable tenEach).init takenOver) ⟨"u"⟩
        ⟨"a"⟩ = true ∧
      LeaseExclusive tenEach ((effectTable tenEach).trace (effectTable tenEach).init takenOver)
        ((effectTable tenEach).after (effectTable tenEach).init takenOver) :=
  ⟨by decide, lease_exclusive (Machine.exec_trace _ _ _) (.of_positions (by decide))⟩

/-- Worker `u` claims an effect and stalls; worker `v` takes it over, fails and puts
it off; then `u` goes on. -/
def startedAfterAll : List SharedInput :=
  [.call ⟨"u"⟩ 0 (.accept sampleEffect), .call ⟨"u"⟩ 0 (.claimDue 32 plainScan), .advance 11,
    .call ⟨"v"⟩ 0 (.claimDue 32 plainScan), .call ⟨"v"⟩ 0 (.markInFlight ⟨"a"⟩),
    .call ⟨"v"⟩ 0 (.markRetryable ⟨"a"⟩ 1 50), .call ⟨"u"⟩ 0 (.markInFlight ⟨"a"⟩)]

/-- The old worker's `mark_in_flight` goes through. -/
theorem replaced_worker_starts :
    ¬ LeaseExclusive tenEach
      ((effectTable tenEach).trace (effectTable tenEach).init startedAfterAll)
      ((effectTable tenEach).after (effectTable tenEach).init startedAfterAll) := by
  intro hexclusive
  obtain ⟨⟨e, hanswer⟩, -⟩ := hexclusive.passed 6 _ ⟨"u"⟩ 0 (.markInFlight ⟨"a"⟩) ⟨"a"⟩ rfl rfl rfl
    (by decide)
  cases hanswer

/-! ## Claimed effects and their dispatch -/

/-- `mark_in_flight` moves the effect. -/
def Dispatches (store : PostgresEffectStore) (now : Timestamp) (tables : EffectTables Claim)
    (id : EffectId) : Prop :=
  (store.markInFlight now tables id).2 = .ok () ∧
    (store.markInFlight now tables id).1.stateOf id = some .inFlight

/-- **A claimed effect can be dispatched** under the new lease just if it was not in
flight already. -/
theorem claimed_dispatches_iff {store : PostgresEffectStore} {now : Timestamp}
    {tables : EffectTables Claim} {limit : Nat} {scan : Scan} {copy : StoredEffect}
    (_ : limit < negativeFrom) (hcopy : copy ∈ (store.claimDue now tables limit scan).2)
    {later : Timestamp} (hlease : later < now + store.lease) :
    Dispatches store later (store.claimDue now tables limit scan).1 copy.id ↔
      copy.state = .pending ∨ copy.state = .retryableFailed := by
  obtain ⟨hselected, row, hat, -, hstored⟩ := EffectTables.mem_claimDue hcopy
  have hstate : copy.state = row.record.state := congrArg StoredEffect.state hstored
  have hlookup : (store.claimDue now tables limit scan).1.states.lookup copy.id =
      some { row with claim := (store.rules now).stamp row.claim } := by
    have h := EffectTables.lookup_claimDue (store.rules now) tables now limit scan copy.id
    rw [hat] at h
    simpa [PostgresEffectStore.claimDue, hselected] using h
  rw [hstate]
  generalize (store.claimDue now tables limit scan).1 = claimed at hlookup ⊢
  obtain ⟨row', hat', hallowed, -, heq⟩ | ⟨e, heq, -, hrefused⟩ :=
    EffectTables.transition_cases (store.rules later) claimed copy.id [.pending, .retryableFailed]
      .inFlight (store.rules later).mayStart
      fun row => { row with claim := (store.rules later).start row.claim }
  · obtain rfl := Option.mem_unique hlookup hat'
    have hmark : store.markInFlight later claimed copy.id = _ := heq
    refine ⟨fun _ => by simpa using hallowed, fun _ => ?_⟩
    unfold Dispatches EffectTables.stateOf
    rw [hmark]
    refine ⟨rfl, ?_⟩
    simp only [EffectTables.lookup_put_self, Option.map_some]
  · have hmark : store.markInFlight later claimed copy.id = _ := heq
    constructor
    · rintro ⟨hok, -⟩
      rw [hmark] at hok
      cases hok
    · -- the new claim is the worker's own, and its lease is not over
      intro hopen
      have hguard := hrefused _ hlookup (by simpa using hopen)
      simp [PostgresEffectStore.rules, Claim.live, hlease] at hguard

/-- The tables after `u` has accepted an effect. -/
def acceptedTables : EffectTables Claim :=
  ((effectTable tenEach).after (effectTable tenEach).init
    [.call ⟨"u"⟩ 0 (.accept sampleEffect)]).tables

/-- `u` claims the effect; it is `Pending`, and can be dispatched within ten. -/
theorem claimed_dispatches_new :
    Dispatches ⟨⟨"u"⟩, 10⟩ 9
      (PostgresEffectStore.claimDue ⟨⟨"u"⟩, 10⟩ 0 acceptedTables 32 plainScan).1 ⟨"a"⟩ := by
  have hcopy : ⟨⟨"a"⟩, sampleEffect.tenant, sampleEffect.description, 0, .pending, 0⟩ ∈
      (PostgresEffectStore.claimDue ⟨⟨"u"⟩, 10⟩ 0 acceptedTables 32 plainScan).2 := by
    decide
  have hlease : (9 : Timestamp) < 0 + 10 := by decide
  exact (claimed_dispatches_iff (by decide) hcopy hlease).mpr (.inl rfl)

/-- The tables after `u` has dispatched the effect, and no more was heard of it for
longer than its lease. -/
def deserted : Shared :=
  (effectTable tenEach).after (effectTable tenEach).init
    [.call ⟨"u"⟩ 0 (.accept sampleEffect), .call ⟨"u"⟩ 0 (.claimDue 32 plainScan),
      .call ⟨"u"⟩ 0 (.markInFlight ⟨"a"⟩), .advance 20]

/-- `v` claims the effect and cannot dispatch it. -/
theorem claimed_in_flight_refused :
    ((PostgresEffectStore.claimDue ⟨⟨"v"⟩, 10⟩ deserted.clock deserted.tables 32
        plainScan).2.map StoredEffect.id) = [⟨"a"⟩] ∧
      (PostgresEffectStore.markInFlight ⟨⟨"v"⟩, 10⟩ deserted.clock
        (PostgresEffectStore.claimDue ⟨⟨"v"⟩, 10⟩ deserted.clock deserted.tables 32 plainScan).1
        ⟨"a"⟩).2 = .error (.invalidTransition ⟨"a"⟩ .inFlight .inFlight) := by
  decide

end EgoRs.Effects
