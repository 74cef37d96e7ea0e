import EgoRs.Effects.StoolapEffectStore
import EgoRs.Effects.WorkersRun

/-! # Restarts over Stoolap

`StoolapEffectStore` of `effect-store/src/stoolap/mod.rs` has no claims: the
state of a row is all there is. `RuntimeEffectAcceptor::start` starts the loop
and nothing more, so a new process finds the rows as they are. It takes up
those that are `Pending` or `RetryableFailed`. What was in flight when the old
process stopped stays in flight: `recover_in_flight` would put it back, and is
never called.
-/

namespace EgoRs.Effects

open Framework

/-! ## What is claimed -/

/-- The new process can dispatch the effect, once its `next_at` has passed: `claim_due`
returns it, unless it returns as many as it may of effects due no later, and
`mark_in_flight` then goes through. -/
def Dispatchable (tables : EffectTables Unit) (id : EffectId) : Prop :=
  ∃ row, tables.states.lookup id = some row ∧
    ∀ now, (∀ nextAt, row.record.nextAt = some nextAt → nextAt ≤ now) →
      ∀ limit order nullsFirst, limit < negativeFrom →
        let (tables', batch) := StoolapEffectStore.claimDue now tables limit order nullsFirst
        ((∃ copy ∈ batch, copy.id = id) ∨
          batch.length = limit ∧ ∀ copy ∈ batch,
            dueFirst nullsFirst (tables.nextAtOf copy.id) (tables.nextAtOf id) = true) ∧
        (StoolapEffectStore.markInFlight now tables' id).2 = .ok ()

/-- If the process stops, the effect is not in flight. -/
def stopsClear {W κ : Type} (id : EffectId) (t : FleetEvent W κ) : Bool :=
  match t.input.action with
  | .crash => decide (t.pre.tables.stateOf id ≠ some .inFlight)
  | _ => true

/-- One process at a time over a `StoolapEffectStore`. -/
def stoolapWorker (runner : DeliveryRunner) :
    Machine (Fleet Unit Unit) (WorkerInput Unit) (Option Observation) :=
  fleet (fun _ => runner) fun _ now => StoolapEffectStore.rules now

/-! ## Rows that can be dispatched -/

section
variable {tables : EffectTables Unit} {id : EffectId}

theorem dispatchable_of_open {row : EffectRow Unit} (hat : tables.states.lookup id = some row)
    (hopen : row.record.state = .pending ∨ row.record.state = .retryableFailed) :
    Dispatchable tables id := by
  refine ⟨row, hat, ?_⟩
  intro now hripe limit order nullsFirst _
  have hdue : row.record.due now = true := by
    unfold EffectRecord.due
    cases hnext : row.record.nextAt with
    | none => simpa using hopen
    | some nextAt => simpa [hripe nextAt hnext] using hopen
  let scan : Scan := ⟨order, nullsFirst, fun _ => false⟩
  refine ⟨?_, ?_⟩
  · rcases EffectTables.selectDue_of_claimable (StoolapEffectStore.rules now) limit scan
      hat hdue rfl
      with hin | ⟨hfull, hfirst⟩
    · exact .inl (EffectTables.claimDue_of_selected (StoolapEffectStore.rules now) now hin)
    · right
      refine ⟨?_, ?_⟩
      · rw [← EffectTables.claimDue_ids (StoolapEffectStore.rules now) tables now limit scan,
          List.length_map] at hfull
        exact hfull
      · intro copy hcopy
        exact hfirst copy.id (EffectTables.mem_claimDue hcopy).1
  · -- the SELECT has changed nothing
    have hsame :
        (StoolapEffectStore.claimDue now tables limit order nullsFirst).1.states.lookup id =
          some row := by
      have h := EffectTables.lookup_claimDue (StoolapEffectStore.rules now) tables now limit scan id
      rw [hat] at h
      refine h.trans ?_
      rw [Option.map_some]
      split <;> rfl
    obtain ⟨row', -, -, -, heq⟩ | ⟨e, -, -, hrefused⟩ :=
      EffectTables.transition_cases (StoolapEffectStore.rules now)
        (StoolapEffectStore.claimDue now tables limit order nullsFirst).1 id
        [.pending, .retryableFailed] .inFlight (StoolapEffectStore.rules now).mayStart
        fun row => { row with claim := (StoolapEffectStore.rules now).start row.claim }
    · exact congrArg Prod.snd heq
    · have hblocked : true = false := hrefused row hsame (by simpa using hopen)
      cases hblocked

/-- **`recover_in_flight` would strand nothing**: after it, every effect that is not
settled can be dispatched. -/
theorem dispatchable_recoverInFlight (now : Timestamp) {row : EffectRow Unit}
    (hat : tables.states.lookup id = some row) (hsucceeded : row.record.state ≠ .succeeded)
    (hterminal : row.record.state ≠ .terminalFailed) :
    Dispatchable (StoolapEffectStore.recoverInFlight now tables) id := by
  have hafter : (StoolapEffectStore.recoverInFlight now tables).states.lookup id =
      some (if row.record.state = .inFlight then
        { row with record := { row.record with state := .pending, nextAt := some now } }
        else row) := by
    have h := Table.lookup_updateWhere (t := tables.states) (k := id)
      (fun _ row => decide (row.record.state = .inFlight) &&
        (StoolapEffectStore.rules now).recoverable row.claim)
      fun row => { row with record := { row.record with state := .pending, nextAt := some now } }
    rw [hat, Option.map_some] at h
    refine h.trans ?_
    simp [StoolapEffectStore.rules]
  refine dispatchable_of_open hafter ?_
  by_cases hflight : row.record.state = .inFlight
  · rw [if_pos hflight]
    exact .inl rfl
  · rw [if_neg hflight]
    cases hstate : row.record.state with
    | pending => exact .inl rfl
    | retryableFailed => exact .inr rfl
    | inFlight => exact absurd hstate hflight
    | succeeded => exact absurd hstate hsucceeded
    | terminalFailed => exact absurd hstate hterminal

end

/-! ## Who has what is in flight -/

/-- If the effect is in flight, a task has it. -/
def Carried {W κ : Type} (s : Fleet W κ) (id : EffectId) : Prop :=
  s.tables.stateOf id = some .inFlight →
    ∃ p task, s.taskAt p = some task ∧ task.stage.owns = true ∧ task.effect.id = id

section
variable {W κ : Type} {runner : DeliveryRunner} {rules : ClaimRules κ} {wall : Timestamp} {i : Nat}
  {tables tables' : EffectTables κ} {effect : AcceptedEffect} {stage stage' : Stage}
  {seen : Option Observation}

/-- Without claims, a task has its effect until it has moved it on. -/
theorem TaskMoves.carries
    (hm : TaskMoves runner rules wall i tables effect stage tables' stage' seen)
    (hr : Relies tables ⟨effect, stage⟩) (hfree : ∀ claim, rules.mayFinish claim = true)
    (howns : stage.owns = true) (hflight : tables'.stateOf effect.id = some .inFlight) :
    stage'.owns = true := by
  cases hm with
  | waits => exact howns
  | marks => rfl
  | unmarked | releases => cases howns
  | unreserved _ _ owns => exact owns
  | settles stage _ _ _ settling _ settled =>
    rw [EffectTables.stateOf_put_self, settled, Option.some.injEq] at hflight
    subst hflight
    cases stage <;> cases settling
  | refused _ _ _ _ _ blocked =>
    obtain ⟨row, hat, hstate⟩ := Option.map_eq_some_iff.mp (hr.owns howns)
    have hblocked := blocked row hat hstate
    rw [hfree row.claim] at hblocked
    cases hblocked
  | _ => rfl

/-- An effect comes in flight by a task that has it. -/
theorem TaskMoves.inFlight
    (hm : TaskMoves runner rules wall i tables effect stage tables' stage' seen)
    (hflight : tables'.stateOf effect.id = some .inFlight) :
    stage'.owns = true ∨ tables.stateOf effect.id = some .inFlight := by
  cases hm with
  | marks => exact .inl rfl
  | settles stage _ _ _ settling _ settled =>
    rw [EffectTables.stateOf_put_self, settled, Option.some.injEq] at hflight
    subst hflight
    cases stage <;> cases settling
  | _ => exact .inr hflight

end

section
variable {W κ : Type} {runner : W → DeliveryRunner} {rules : W → Timestamp → ClaimRules κ}
  {s s' : Fleet W κ} {input : WorkerInput W} {seen : Option Observation} {p : W × Nat}
  {task : Task} {tables' : EffectTables κ}

theorem TaskSteps.effect (hs : TaskSteps runner rules s input p task tables' seen) {old : SqlTask}
    (hold : s.taskAt p = some old) : old.effect = task.effect := by
  cases hs with
  | received _ new | reclaimed _ _ _ new =>
    rw [new] at hold
    cases hold
  | spawned _ _ _ at'
  | resumed _ _ _ _ _ _ _ _ _ at'
  | finished _ _ _ _ at' =>
    rw [at'] at hold
    rw [← Option.some.inj hold]

/-- If the effect of the task is in flight after the step, the task has it, or it was
in flight before and the task did not. -/
theorem TaskSteps.carried (hs : TaskSteps runner rules s input p task tables' seen)
    (hinv : FleetInv s) (hfree : ∀ w now claim, (rules w now).mayFinish claim = true)
    (hflight : tables'.stateOf task.effect.id = some .inFlight) :
    task.stage.owns = true ∨ s.tables.stateOf task.effect.id = some .inFlight ∧
      ∀ old, s.taskAt p = some old → old.stage.owns = false := by
  cases hs with
  | received _ new =>
    refine .inr ⟨hflight, ?_⟩
    intro old hold
    rw [new] at hold
    cases hold
  | reclaimed => exact .inl rfl
  | spawned _ claimed _ at' =>
    cases claimed with
    | true => exact .inl rfl
    | false =>
      refine .inr ⟨hflight, ?_⟩
      intro old hold
      rw [at'] at hold
      rw [← Option.some.inj hold]
      rfl
  | resumed _ _ stage _ _ _ _ _ _ at' moves =>
    cases howns : stage.owns with
    | true => exact .inl (moves.carries (hinv.relies p _ at') (hfree _ _) howns hflight)
    | false =>
      refine (moves.inFlight hflight).imp id fun hbefore => ⟨hbefore, ?_⟩
      intro old hold
      rw [at'] at hold
      rw [← Option.some.inj hold]
      exact howns
  | finished _ _ _ _ _ finishes =>
    left
    cases finishes <;> rfl

theorem FleetSteps.carried [DecidableEq W] (hs : FleetSteps runner rules s input s' seen)
    (hinv : FleetInv s) (hfree : ∀ w now claim, (rules w now).mayFinish claim = true)
    {id : EffectId}
    (hstop : input.action = .crash → s.tables.stateOf id ≠ some .inFlight) (hc : Carried s id) :
    Carried s' id := by
  intro hflight
  cases hs with
  | quiet states _ tasks =>
    rw [states] at hflight
    rw [tasks]
    exact hc hflight
  | accepted new row _ pending tables tasks =>
    rw [tasks]
    rw [tables] at hflight
    by_cases hid : id = new
    · subst hid
      rw [EffectTables.stateOf_put_self, pending] at hflight
      cases hflight
    · rw [EffectTables.stateOf_put_ne s.tables row hid] at hflight
      exact hc hflight
  | crashed call tables =>
    rw [tables] at hflight
    exact absurd hflight (hstop call)
  | written p task steps tasks =>
    -- a carrier other than the task that was written is still there
    have hkept : ∀ q old, q ≠ p → s.taskAt q = some old → s'.taskAt q = some old := by
      intro q old hne hq
      rw [tasks, Function.update_of_ne hne]
      exact hq
    have hwritten : s'.taskAt p = some task := by
      rw [tasks, Function.update_self]
    by_cases hid : id = task.effect.id
    · subst hid
      rcases steps.carried hinv hfree hflight with howns | ⟨hbefore, hnot⟩
      · exact ⟨p, task, hwritten, howns, rfl⟩
      · obtain ⟨q, old, hq, howns, heffect⟩ := hc hbefore
        refine ⟨q, old, hkept q old ?_ hq, howns, heffect⟩
        rintro rfl
        rw [hnot old hq] at howns
        cases howns
    · rw [(steps.spares hinv).states id hid] at hflight
      obtain ⟨q, old, hq, howns, heffect⟩ := hc hflight
      refine ⟨q, old, hkept q old ?_ hq, howns, heffect⟩
      rintro rfl
      rw [steps.effect hq] at heffect
      exact hid heffect.symm

theorem carried_run [DecidableEq W] {h : FleetHistory W κ} {id : EffectId}
    (hfree : ∀ w now claim, (rules w now).mayFinish claim = true)
    (he : (fleet runner rules).Run h s)
    (hclear : Along (fun _ t => stopsClear id t = true) h) : Carried s id := by
  refine he.invariant_along (P := fun _ s => Carried s id) ?_ ?_ hclear
  · intro hflight
    cases hflight
  · intro h s input hexec hc hstop
    refine (fleetSteps_step runner rules s input).carried (fleetInv_run hexec) hfree ?_ hc
    intro hcrash
    simp only [stopsClear, fire_input, hcrash] at hstop
    exact of_decide_eq_true hstop

end

/-! ## After a restart -/

/-- **A restart strands no effect** that was not in flight when the process stopped:
if it is not settled and no task of the new process has it, the new process can
dispatch it. -/
theorem dispatchable_after_restart {runner : DeliveryRunner} {h : FleetHistory Unit Unit}
    {s : Fleet Unit Unit} {id : EffectId}
    (he : (stoolapWorker runner).Exec (stoolapWorker runner).init h s)
    (hclear : Along (fun _ t => stopsClear id t = true) h) {row : EffectRow Unit}
    (hat : s.tables.states.lookup id = some row) (hsucceeded : row.record.state ≠ .succeeded)
    (hterminal : row.record.state ≠ .terminalFailed)
    (hidle : ∀ p task, s.taskAt p = some task → task.effect.id = id → task.stage.busy = false) :
    Dispatchable s.tables id := by
  refine dispatchable_of_open hat ?_
  cases hstate : row.record.state with
  | pending => exact .inl rfl
  | retryableFailed => exact .inr rfl
  | succeeded => exact absurd hstate hsucceeded
  | terminalFailed => exact absurd hstate hterminal
  | inFlight =>
    -- what is in flight is with a task of this process
    have hflight : s.tables.stateOf id = some .inFlight := by
      rw [EffectTables.stateOf_of_lookup hat, hstate]
    obtain ⟨p, task, htask, howns, heffect⟩ := carried_run (fun _ _ _ => rfl) he hclear hflight
    have hbusy := hidle p task htask heffect
    rw [Stage.busy_of_owns howns] at hbusy
    cases hbusy

def restartRunner : DeliveryRunner := ⟨["mail"], ⟨⟨1, 0, 0⟩, ∅⟩, 1, id⟩

def acceptMail : Action := .accept ⟨"a"⟩ sampleTenant sampleMail

def acceptedBeforeCrash : List (WorkerInput Unit) :=
  [⟨(), 0, 0, acceptMail⟩, ⟨(), 0, 0, .crash⟩]

theorem dispatchable_accepted :
    Dispatchable ((stoolapWorker restartRunner).after (stoolapWorker restartRunner).init
      acceptedBeforeCrash).tables ⟨"a"⟩ := by
  refine dispatchable_after_restart (Machine.exec_trace _ _ _) (.of_positions (by decide)) rfl
    (by decide) (by decide) ?_
  intro p task hat
  cases hat

def sendingAtCrash : List (WorkerInput Unit) :=
  let go (action : Action) : WorkerInput Unit := ⟨(), 0, 0, action⟩
  [go acceptMail, go (.send 0), go .recv, go .permit, go (.resume 0 0), go (.resume 0 0),
    go (.resume 0 0), go .crash]

/-- Nobody has it any more, and nobody can dispatch it. -/
theorem stranded_by_crash :
    let s := (stoolapWorker restartRunner).after (stoolapWorker restartRunner).init sendingAtCrash
    s.tables.stateOf ⟨"a"⟩ = some .inFlight ∧ (∀ p, s.taskAt p = none) ∧
      ¬ Dispatchable s.tables ⟨"a"⟩ := by
  refine ⟨rfl, fun _ => rfl, ?_⟩
  rintro ⟨row, hat, hdispatch⟩
  obtain rfl := Option.some.inj hat
  have hmark := (hdispatch 0 (by intro nextAt h; cases h) reclaimBatchLimit .stored false
    (by decide)).2
  cases hmark

/-- With `recover_in_flight` it can be. -/
theorem dispatchable_recovered :
    Dispatchable (StoolapEffectStore.recoverInFlight 0 ((stoolapWorker restartRunner).after
      (stoolapWorker restartRunner).init sendingAtCrash).tables) ⟨"a"⟩ :=
  dispatchable_recoverInFlight 0 rfl (by decide) (by decide)

end EgoRs.Effects
