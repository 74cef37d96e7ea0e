import EgoRs.Effects.PostgresEffectStore
import EgoRs.Effects.SqlPort

/-! # One Worker on the Postgres Effect Store

A single worker whose calls all fall within one lease never meets an expired
claim, nor a claim of somebody else. What still stands between it and the
plain state machine are its own claims: `mark_terminal` wants one that
`mark_retryable` has given up, `claim_due` passes over rows that have one,
and `recover_in_flight` leaves rows alone while they have one.
-/

namespace EgoRs.Effects

open Framework

/-- `PostgresEffectStore` behind the ports. -/
def postgresPort (store : PostgresEffectStore) :
    Machine (EffectTables Claim) PortInput PortAnswer :=
  sqlPort store.rules fun _ =>
    .error (.backend "error returned from database: LIMIT must not be negative")

/-! ## Claims of one worker within one lease -/

section
variable (store : PostgresEffectStore) (start : Timestamp)

/-- A row without a claim, or with one of the worker's that outlasts the lease
that begins at `start`; in flight only with a claim. -/
structure Held (row : EffectRow Claim) : Prop where
  claim : (row.claim.owner = none ∧ row.claim.expiresAt = none) ∨
    row.claim.owner = some store.workerId ∧
      ∃ expiresAt, row.claim.expiresAt = some expiresAt ∧ start + store.lease ≤ expiresAt
  inFlight : row.record.state = .inFlight → row.claim.owner = some store.workerId

def AllHeld (tables : EffectTables Claim) : Prop :=
  ∀ id row, tables.states.lookup id = some row → Held store start row

structure WithinLease (reading : Timestamp) : Prop where
  after : start ≤ reading
  before : reading < start + store.lease

variable {store start} {row : EffectRow Claim} {reading : Timestamp}

section
variable (h : Held store start row) (hr : WithinLease store start reading)
include h hr

theorem Held.not_expired : row.claim.expired reading = false := by
  unfold Claim.expired
  rcases h.claim with ⟨_, hnone⟩ | ⟨_, expiresAt, hsome, hle⟩
  · rw [hnone]
  · rw [hsome]
    have hbefore := hr.before
    have hlt : reading < expiresAt := lt_of_lt_of_le hbefore hle
    simpa using le_of_lt hlt

theorem Held.live (howner : row.claim.owner ≠ none) : row.claim.live reading = true := by
  unfold Claim.live
  rcases h.claim with ⟨hnone, _⟩ | ⟨_, expiresAt, hsome, hle⟩
  · exact absurd hnone howner
  · rw [hsome]
    have hlt : reading < expiresAt := lt_of_lt_of_le hr.before hle
    simpa using hlt

theorem Held.mayFinish (howner : row.claim.owner ≠ none) :
    (store.rules reading).mayFinish row.claim = true := by
  have hlive := h.live hr howner
  rcases h.claim with ⟨hnone, _⟩ | ⟨hmine, _⟩
  · exact absurd hnone howner
  · simp [PostgresEffectStore.rules, hmine, hlive]

theorem Held.mayStart : (store.rules reading).mayStart row.claim = true := by
  rcases h.claim with ⟨hnone, hexpires⟩ | ⟨hmine, hexpires⟩
  · simp [PostgresEffectStore.rules, hnone, hexpires]
  · have hlive := h.live hr (by rw [hmine]; simp)
    simp [PostgresEffectStore.rules, hmine, hlive]

theorem Held.claimable (hfree : row.record.due reading = true → row.claim.owner = none) :
    (store.rules reading).claimable row = row.record.due reading := by
  have hexpired := h.not_expired hr
  cases hdue : row.record.due reading with
  | false => simp [PostgresEffectStore.rules, hexpired, hdue]
  | true => simp [PostgresEffectStore.rules, hexpired, hdue, hfree hdue]

end

theorem held_of_taken (hr : WithinLease store start reading)
    (howner : row.claim.owner = some store.workerId)
    (hexpires : row.claim.expiresAt = some (reading + store.lease)) : Held store start row where
  claim := by
    refine .inr ⟨howner, _, hexpires, ?_⟩
    have hafter := hr.after
    exact Int.add_le_add_right hafter _
  inFlight _ := howner

end

/-! ## Steps keep the claims -/

section
variable {store : PostgresEffectStore} {start reading : Timestamp} {tables : EffectTables Claim}

theorem allHeld_new : AllHeld store start (EffectTables.new : EffectTables Claim) := by
  intro id row hat
  cases hat

variable (h : AllHeld store start tables)
include h

theorem AllHeld.put {id : EffectId} {row : EffectRow Claim} (hrow : Held store start row) :
    AllHeld store start (tables.put id row) := by
  intro other row' hat
  by_cases ho : other = id
  · subst ho
    rw [tables.lookup_put_self] at hat
    cases hat
    exact hrow
  · rw [tables.lookup_put_ne row ho] at hat
    exact h other row' hat

theorem AllHeld.transition {rules : ClaimRules Claim} (id : EffectId)
    (allowedFrom : List EffectState) (target : EffectState) (guard : Claim → Bool)
    (set : EffectRow Claim → EffectRow Claim) (hset : ∀ row, Held store start row → Held store start
      (set { row with record := { row.record with state := target } })) :
    AllHeld store start (tables.transition rules id allowedFrom target guard set).1 := by
  rcases EffectTables.transition_cases rules tables id allowedFrom target guard set with
    ⟨row, hat, _, _, heq⟩ | ⟨e, heq, _, _⟩
  · rw [heq]
    exact h.put (hset row (h id row hat))
  · rw [heq]
    exact h

theorem AllHeld.claimDue (hr : WithinLease store start reading) (limit : Nat) (scan : Scan) :
    AllHeld store start (tables.claimDue (store.rules reading) reading limit scan).1 := by
  intro id row hat
  rw [EffectTables.lookup_claimDue] at hat
  obtain ⟨old, hold, rfl⟩ := Option.map_eq_some_iff.mp hat
  split_ifs
  · exact held_of_taken hr rfl rfl
  · exact h id old hold

theorem AllHeld.recoverInFlight (now : Timestamp) :
    AllHeld store start (tables.recoverInFlight (store.rules reading) now) := by
  intro id row hat
  have hrow : (tables.recoverInFlight (store.rules reading) now).states.lookup id = _ :=
    Table.lookup_updateWhere _ _
  rw [hrow] at hat
  obtain ⟨old, hold, rfl⟩ := Option.map_eq_some_iff.mp hat
  have hheld := h id old hold
  split_ifs
  · exact ⟨hheld.claim, fun hflight => by cases hflight⟩
  · exact hheld

theorem AllHeld.serve (input : PortInput) (hr : WithinLease store start input.reading) :
    AllHeld store start ((postgresPort store).step tables input).1 := by
  obtain ⟨call, env⟩ := input
  cases call with
  | accept effect =>
    show AllHeld store start (tables.accept (store.rules env.clock) effect).1
    rcases EffectTables.accept_cases (store.rules env.clock) tables effect with
      ⟨_, row, hstate, _, hclaim, _, _, heq⟩ | ⟨hkeep, _⟩
    · rw [heq]
      refine h.put ⟨.inl ?_, ?_⟩
      · rw [hclaim]
        exact ⟨rfl, rfl⟩
      · intro hflight
        rw [hstate] at hflight
        cases hflight
    · rw [hkeep]
      exact h
  | markInFlight id =>
    exact h.transition id _ _ _ _ fun row _ => held_of_taken hr rfl rfl
  | markSucceeded id | markTerminal id =>
    exact h.transition id _ _ _ _ fun row hrow => ⟨hrow.claim, fun hflight => by cases hflight⟩
  | markRetryable id =>
    exact h.transition id _ _ _ _ fun row _ =>
      ⟨.inl ⟨rfl, rfl⟩, fun hflight => by cases hflight⟩
  | claimDue _ limit =>
    show AllHeld store start (if limit < negativeFrom then _ else _ : _ × PortAnswer).1
    split_ifs
    · exact h.claimDue hr limit _
    · exact h
  | recoverInFlight now => exact h.recoverInFlight now
  | reserve scope effectId fingerprint =>
    intro id row hat
    have hstates : (tables.reserve scope effectId fingerprint).1.states = tables.states := by
      unfold EffectTables.reserve
      split <;> rename_i heq <;> exact congrArg (fun r => r.1.states) heq.symm
    exact h id row (hstates ▸ hat)
  | commitSuccess | release => exact h

end

/-! ## Calls that meet no claim of the worker's own -/

/-- A call that the worker's own claims do not change: `mark_terminal` not on an
effect that `mark_retryable` has given up, `claim_due` while nothing that is
due has a claim, `recover_in_flight` while nothing is in flight. -/
def meetsNoClaim (u : SqlEvent Claim) : Bool :=
  match u.input.call with
  | .markTerminal id _ => (u.pre.states.lookup id).all fun row =>
      decide (row.record.state ≠ .retryableFailed) || row.claim.owner.isSome
  | .claimDue now limit => decide (limit < negativeFrom) &&
      u.pre.states.entries.all fun e => !e.2.record.due now || e.2.claim.owner.isNone
  | .recoverInFlight _ => u.pre.states.entries.all fun e => decide (e.2.record.state ≠ .inFlight)
  | _ => true

/-- Such a call is decided by the state of the row alone. -/
theorem unhindered_of_meetsNoClaim {store : PostgresEffectStore} {start : Timestamp}
    {tables : EffectTables Claim} (h : AllHeld store start tables) (input : PortInput)
    (hr : WithinLease store start input.reading)
    (hfree : meetsNoClaim ((postgresPort store).fire tables input) = true) :
    unhindered store.rules ((postgresPort store).fire tables input) := by
  obtain ⟨call, env⟩ := input
  -- an effect in flight is the worker's
  have hfinish : ∀ {id : EffectId} {row : EffectRow Claim},
      tables.states.lookup id = some row → row.record.state = .inFlight →
      WithinLease store start env.clock → (store.rules env.clock).mayFinish row.claim = true := by
    intro id row hat hflight hclock
    have hmine := (h id row hat).inFlight hflight
    exact (h id row hat).mayFinish hclock (by rw [hmine]; simp)
  cases call with
  | markInFlight id =>
    intro row hat _
    exact (h id row hat).mayStart hr
  | markSucceeded | markRetryable =>
    intro row hat hstate
    exact hfinish hat (List.mem_singleton.mp hstate) hr
  | markTerminal id =>
    intro row (hat : tables.states.lookup id = some row) hstate
    have hrow : ((tables.states.lookup id).all fun row =>
        decide (row.record.state ≠ .retryableFailed) || row.claim.owner.isSome) = true := hfree
    rw [hat] at hrow
    rcases List.mem_cons.mp hstate with hflight | hretry
    · exact hfinish hat hflight hr
    · have hretryable := List.mem_singleton.mp hretry
      have howner : row.claim.owner.isSome = true := by simpa [hretryable] using hrow
      exact (h id row hat).mayFinish hr (Option.isSome_iff_ne_none.mp howner)
  | claimDue now limit =>
    intro id row hat
    have hrows : (decide (limit < negativeFrom) && tables.states.entries.all fun e =>
        !e.2.record.due now || e.2.claim.owner.isNone) = true := hfree
    have hall := List.all_eq_true.mp (Bool.and_eq_true_iff.mp hrows).2
    have hrow := hall ⟨id, row⟩ (AList.mem_lookup_iff.mp hat)
    apply (h id row hat).claimable hr
    intro hdue
    simpa [show row.record.due now = true from hdue] using hrow
  | recoverInFlight =>
    intro id row hat hflight
    have hall := List.all_eq_true.mp
      (show (tables.states.entries.all fun e => decide (e.2.record.state ≠ .inFlight)) = true
        from hfree)
    have hrow := hall ⟨id, row⟩ (AList.mem_lookup_iff.mp hat)
    simp [hflight] at hrow
  | accept | reserve | commitSuccess | release => trivial

/-! ## The same store -/

/-- One call on the two stores: both return `Ok` or neither does, the effects
and reservations are the same afterwards, and where the limit is not reached
both claim all that is due. -/
structure SameCall (t : MemoryEvent) (u : SqlEvent Claim) : Prop where
  ok : u.output.isErr = t.output.isErr
  answers : AnswersAgree t u
  contents : SameContents t.post u.post
  claimed : ∀ now limit, t.input.call = .claimDue now limit →
    (t.pre.allDue now).length ≤ limit → ∃ chosen chosen',
      t.output = .claimed (.ok chosen) ∧ u.output = .claimed (.ok chosen') ∧
        chosen.Perm (t.pre.allDue now) ∧ chosen'.Perm (t.pre.allDue now)

/-- What `AnswersAgree` says of a call with a `LIMIT` that `i64` can hold. -/
theorem sameCall_of_agree {t : MemoryEvent} {u : SqlEvent Claim}
    (hlimit : ∀ now limit, t.input.call = .claimDue now limit → limit < negativeFrom)
    (hanswer : AnswersAgree t u) (hcontents : SameContents t.post u.post) : SameCall t u where
  ok := by
    unfold AnswersAgree at hanswer
    split at hanswer
    · obtain ⟨_, _, hmemory, hsql, _, _⟩ := hanswer (hlimit _ _ ‹_›)
      rw [hmemory, hsql]
      rfl
    · rw [hanswer]
  answers := hanswer
  contents := hcontents
  claimed := by
    intro now limit hcall hreach
    unfold AnswersAgree at hanswer
    rw [hcall] at hanswer
    obtain ⟨chosen, chosen', hmemory, hsql, hfrom, hfrom'⟩ := hanswer (hlimit now limit hcall)
    exact ⟨chosen, chosen', hmemory, hsql, hfrom.perm hreach, hfrom'.perm hreach⟩

/-- **One worker within one lease**: while its calls meet no claim of its own, the Postgres
store is the in-memory store. -/
theorem single_worker_refines (store : PostgresEffectStore) (start : Timestamp)
    {memory : InMemoryEffectStore} {tables : EffectTables Claim}
    (hsame : SameContents memory tables) (hheld : AllHeld store start tables)
    (calls : List PairedCall) (hwithin : ∀ c ∈ calls, WithinLease store start c.sqlInput.reading)
    (hfree : ∀ u ∈ (postgresPort store).trace tables (calls.map PairedCall.sqlInput),
      meetsNoClaim u = true) :
    List.Forall₂ SameCall (memoryPort.trace memory (calls.map PairedCall.memoryInput))
      ((postgresPort store).trace tables (calls.map PairedCall.sqlInput)) := by
  induction calls generalizing memory tables with
  | nil => exact .nil
  | cons c _ ih =>
    have hr := hwithin c (List.mem_cons_self ..)
    have hfirst := hfree _ (List.mem_cons_self ..)
    obtain ⟨hpost, hanswer⟩ := serve_agrees store.rules _ hsame c
      (unhindered_of_meetsNoClaim hheld c.sqlInput hr hfirst)
    have hlimit : ∀ now limit, c.call = .claimDue now limit → limit < negativeFrom := by
      intro now limit hcall
      unfold meetsNoClaim at hfirst
      have hinput : ((postgresPort store).fire tables c.sqlInput).input.call =
          .claimDue now limit := hcall
      rw [hinput] at hfirst
      exact of_decide_eq_true (Bool.and_eq_true_iff.mp hfirst).1
    refine .cons (sameCall_of_agree hlimit hanswer hpost) ?_
    exact ih hpost (hheld.serve c.sqlInput hr)
      (fun c' hc' => hwithin c' (List.mem_cons_of_mem _ hc'))
      fun u hu => hfree u (List.mem_cons_of_mem _ hu)

def minuteLease : PostgresEffectStore := ⟨⟨"w1"⟩, 60⟩

/-- A call that both stores meet at one time. -/
def callAt (clock : Timestamp) (call : PortCall) : PairedCall :=
  ⟨call, environmentAt clock, environmentAt clock⟩

def PortAnswer.claimedIds : PortAnswer → List EffectId
  | .claimed (.ok copies) => copies.map StoredEffect.id
  | _ => []

/-- Claimed, dispatched, retried, dispatched again, given up. -/
def givenUpInFlight : List PairedCall :=
  [callAt 0 (.accept acceptedMail), callAt 1 (.claimDue 1 8), callAt 2 (.markInFlight ⟨"a"⟩),
    callAt 3 (.markRetryable ⟨"a"⟩ 1 5), callAt 6 (.claimDue 6 8),
    callAt 7 (.markInFlight ⟨"a"⟩), callAt 8 (.markTerminal ⟨"a"⟩ .executorMissing)]

def givenUpWaiting : List PairedCall :=
  [callAt 0 (.accept acceptedMail), callAt 1 (.markInFlight ⟨"a"⟩),
    callAt 2 (.markRetryable ⟨"a"⟩ 1 5), callAt 3 (.markTerminal ⟨"a"⟩ .executorMissing)]

def polledTwice : List PairedCall :=
  [callAt 0 (.accept acceptedMail), callAt 1 (.claimDue 1 8), callAt 2 (.claimDue 2 8)]

def recoveredEarly : List PairedCall :=
  [callAt 0 (.accept acceptedMail), callAt 1 (.markInFlight ⟨"a"⟩), callAt 2 (.recoverInFlight 2)]

end EgoRs.Effects
