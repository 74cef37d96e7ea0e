import EgoRs.Effects.RunnerStep
import EgoRs.Effects.Workers

/-! # One Step of a Worker's Task

With leases a transition can be refused although the task has its effect to
itself: the lease is over. `TaskMoves` lists what a task does then, too. What
stays is that an effect is marked in flight from `Pending` and
`RetryableFailed` only. So nobody but the task that has marked it moves it on,
and nobody but that task touches its reservation.
-/

namespace EgoRs.Effects

open Framework

variable {W κ : Type}

/-! ## Rows -/

namespace EffectTables
variable {tables : EffectTables κ} {id other : EffectId} {scope scope' : DedupScope}

/-- The effect that has the reservation of `scope`. -/
def ownerOf (tables : EffectTables κ) (scope : DedupScope) : Option EffectId :=
  (tables.dedup.lookup scope).map fun row => row.reservation.effectId

@[simp] theorem stateOf_put_self (tables : EffectTables κ) (id : EffectId) (row : EffectRow κ) :
    (tables.put id row).stateOf id = some row.record.state := by
  simp [stateOf]

theorem stateOf_put_ne (tables : EffectTables κ) (row : EffectRow κ) (h : other ≠ id) :
    (tables.put id row).stateOf other = tables.stateOf other := by
  simp [stateOf, lookup_put_ne tables row h]

theorem stateOf_of_lookup {row : EffectRow κ} (h : tables.states.lookup id = some row) :
    tables.stateOf id = some row.record.state := by
  simp [stateOf, h]

/-- `claim_due` only writes claim columns. -/
@[simp] theorem stateOf_claimDue (rules : ClaimRules κ) (tables : EffectTables κ) (now : Timestamp)
    (limit : Nat) (scan : Scan) (id : EffectId) :
    (tables.claimDue rules now limit scan).1.stateOf id = tables.stateOf id := by
  unfold stateOf
  rw [lookup_claimDue, Option.map_map]
  congr 1
  funext row
  simp only [Function.comp_apply]
  split <;> rfl

theorem lookup_commitSuccess_self (wall : Timestamp) {row : DedupRow}
    (h : tables.dedup.lookup scope = some row) :
    (tables.commitSuccess wall scope).dedup.lookup scope =
      some ⟨{ row.reservation with succeeded := true }, some wall⟩ := by
  unfold commitSuccess
  rw [Table.updateRow_of_match _ h rfl]
  exact AList.lookup_insert _

theorem lookup_commitSuccess_ne (tables : EffectTables κ) (wall : Timestamp) (h : scope' ≠ scope) :
    (tables.commitSuccess wall scope).dedup.lookup scope' = tables.dedup.lookup scope' := by
  unfold commitSuccess
  cases hat : tables.dedup.lookup scope with
  | none =>
    rw [Table.updateRow_of_not_match]
    intro row hrow
    rw [hat] at hrow
    cases hrow
  | some =>
    rw [Table.updateRow_of_match _ hat rfl]
    exact AList.lookup_insert_ne h

theorem lookup_release_ne (tables : EffectTables κ) (h : scope' ≠ scope) :
    (tables.release scope).dedup.lookup scope' = tables.dedup.lookup scope' :=
  AList.lookup_erase_ne h

end EffectTables

/-! ## What tasks rely on -/

/-- The task has the reservation of its scope. -/
def Stage.reserves : Stage → Bool
  | .committing _ => true
  | .recording _ => true
  | stage => stage.holds

theorem Stage.busy_of_reserves {stage : Stage} (h : stage.reserves = true) : stage.busy = true := by
  cases stage <;> first | rfl | exact Stage.busy_of_holds h

/-- **What a task relies on** at its stage, whoever else is at work. -/
structure Relies (tables : EffectTables κ) (task : Task) : Prop where
  owns : task.stage.owns = true → tables.stateOf task.effect.id = some .inFlight
  releasing : task.stage = .releasing → tables.stateOf task.effect.id = some .terminalFailed
  reserves : task.stage.reserves = true → tables.ownerOf task.effect.scope = some task.effect.id

namespace Relies
variable {tables : EffectTables κ} {task : Task} {effect : AcceptedEffect} {stage : Stage}

theorem of_not_busy (h : task.stage.busy = false) : Relies tables task := by
  refine ⟨?_, ?_, ?_⟩
  · intro howns
    rw [Stage.busy_of_owns howns] at h
    cases h
  · intro hreleasing
    rw [hreleasing] at h
    cases h
  · intro hreserves
    rw [Stage.busy_of_reserves hreserves] at h
    cases h

/-- A task in flight without a reservation. -/
theorem of_inFlight (hstate : tables.stateOf effect.id = some .inFlight)
    (hreleasing : stage ≠ .releasing) (hreserves : stage.reserves = false) :
    Relies tables ⟨effect, stage⟩ where
  owns := fun _ => hstate
  releasing := fun h => absurd h hreleasing
  reserves := by
    intro h
    have h' : stage.reserves = true := h
    rw [hreserves] at h'
    cases h'

/-- A task in flight with its reservation. -/
theorem of_reserved (hstate : tables.stateOf effect.id = some .inFlight)
    (hreleasing : stage ≠ .releasing) (howner : tables.ownerOf effect.scope = some effect.id) :
    Relies tables ⟨effect, stage⟩ where
  owns := fun _ => hstate
  releasing := fun h => absurd h hreleasing
  reserves := fun _ => howner

end Relies

/-- A step on behalf of effect `id` leaves everybody else's states and reservations
alone. -/
structure Spares (tables : EffectTables κ) (id : EffectId) (tables' : EffectTables κ) : Prop where
  states : ∀ other, other ≠ id → tables'.stateOf other = tables.stateOf other
  dedup : ∀ scope row, tables.dedup.lookup scope = some row → row.reservation.effectId ≠ id →
    tables'.dedup.lookup scope = some row

namespace Spares
variable {tables tables' : EffectTables κ} {id : EffectId}

theorem refl (tables : EffectTables κ) (id : EffectId) : Spares tables id tables :=
  ⟨fun _ _ => rfl, fun _ _ h _ => h⟩

theorem put (tables : EffectTables κ) (id : EffectId) (row : EffectRow κ) :
    Spares tables id (tables.put id row) :=
  ⟨fun _ hne => EffectTables.stateOf_put_ne tables row hne, fun _ _ h _ => h⟩

/-- A statement on one reservation, which is the effect's own if there is one. -/
theorem of_scope {scope : DedupScope} (hstates : tables'.states = tables.states)
    (hdedup : ∀ scope', scope' ≠ scope → tables'.dedup.lookup scope' = tables.dedup.lookup scope')
    (howner : ∀ row, tables.dedup.lookup scope = some row → row.reservation.effectId = id) :
    Spares tables id tables' := by
  refine ⟨?_, ?_⟩
  · intro other _
    unfold EffectTables.stateOf
    rw [hstates]
  · intro other row hrow hne
    have hscope : other ≠ scope := by
      rintro rfl
      exact hne (howner row hrow)
    rw [hdedup other hscope]
    exact hrow

theorem ownerOf (hs : Spares tables id tables') {scope : DedupScope} {owner : EffectId}
    (hne : owner ≠ id) (howner : tables.ownerOf scope = some owner) :
    tables'.ownerOf scope = some owner := by
  obtain ⟨row, hrow, rfl⟩ := Option.map_eq_some_iff.mp howner
  exact Option.map_eq_some_iff.mpr ⟨row, hs.dedup scope row hrow hne, rfl⟩

theorem relies (hs : Spares tables id tables') {task : Task} (hne : task.effect.id ≠ id)
    (hr : Relies tables task) : Relies tables' task := by
  refine ⟨?_, ?_, ?_⟩
  · intro h
    rw [hs.states _ hne]
    exact hr.owns h
  · intro h
    rw [hs.states _ hne]
    exact hr.releasing h
  · intro h
    exact hs.ownerOf hne (hr.reserves h)

end Spares

/-! ## Moves of a task -/

/-- The state a transition of a task in flight goes to. -/
def Stage.settling : Stage → Option EffectState
  | .recording _ => some .succeeded
  | .satisfying => some .succeeded
  | .retrying _ _ _ _ => some .retryableFailed
  | .abandoning _ _ => some .terminalFailed
  | _ => none

/-- Where the task is after that transition. -/
def Stage.settled : Stage → Stage
  | .abandoning _ true => .releasing
  | _ => .done

/-- Where it is if the transition is refused. -/
inductive Refused : Stage → Stage → Prop where
  | dropped (stage : Stage) : Refused stage .done
  /-- `finish_success` tries again. -/
  | again (round round' : Nat) : Refused (.recording round) (.committing round')
  | unconfirmed (round attempt : Nat) (nextAt : Timestamp) :
      Refused (.recording round) (.retrying .unconfirmed attempt nextAt 0)
  /-- `retry_or_give_up` gives up. -/
  | givesUp (attempt : Nat) (nextAt : Timestamp) (tries : Nat) (reason : TerminalReason) :
      Refused (.retrying .failure attempt nextAt tries) (.abandoning reason true)

section
variable (runner : DeliveryRunner) (rules : ClaimRules κ) (wall : Timestamp) (i : Nat)
  (tables : EffectTables κ) (effect : AcceptedEffect)

/-- Everything a task can do next. -/
inductive TaskMoves : Stage → EffectTables κ → Stage → Option Observation → Prop where
  | waits (stage : Stage) : TaskMoves stage tables stage none
  | marks (tries : Nat) (row row' : EffectRow κ)
      (at' : tables.states.lookup effect.id = some row)
      (isOpen : row.record.state = .pending ∨ row.record.state = .retryableFailed)
      (inFlight : row'.record.state = .inFlight) :
      TaskMoves (.marking tries) (tables.put effect.id row') (.reserving 0) none
  | unmarked (tries : Nat) : TaskMoves (.marking tries) tables .done none
  | reserves (tries : Nat) (free : tables.dedup.lookup effect.scope = none) :
      TaskMoves (.reserving tries)
        { tables with
          dedup := tables.dedup.insert effect.scope
            ⟨⟨effect.id, effect.fingerprint runner.sha256, false⟩, none⟩ } .launching none
  /-- There is a row, or it is gone again. -/
  | looksAgain (tries tries' : Nat) : TaskMoves (.reserving tries) tables (.reserving tries') none
  | reservedBefore (tries : Nat) (owner : tables.ownerOf effect.scope = some effect.id) :
      TaskMoves (.reserving tries) tables .launching none
  | unreserved (tries : Nat) (stage : Stage) (owns : stage.owns = true)
      (reserves : stage.reserves = false) : TaskMoves (.reserving tries) tables stage none
  | launches : TaskMoves .launching tables .executing (some (.started i effect effect.context))
  | unregistered : TaskMoves .launching tables (.abandoning .executorMissing true) none
  | commits (round : Nat) : TaskMoves (.committing round)
        (tables.commitSuccess wall effect.scope) (.recording round) none
  | settles (stage : Stage) (target : EffectState) (row row' : EffectRow κ)
      (settling : stage.settling = some target)
      (at' : tables.states.lookup effect.id = some row) (settled : row'.record.state = target) :
      TaskMoves stage (tables.put effect.id row') stage.settled none
  | refused (stage stage' : Stage) (target : EffectState) (settling : stage.settling = some target)
      (next : Refused stage stage')
      (blocked : ∀ row, tables.states.lookup effect.id = some row →
        row.record.state = .inFlight → rules.mayFinish row.claim = false) :
      TaskMoves stage tables stage' none
  | releases : TaskMoves .releasing (tables.release effect.scope) .done none

end

/-! ### After a refusal -/

section
variable {runner : DeliveryRunner} {effect : AcceptedEffect} {now : Timestamp} {draw : Nat}
  {e : EffectStoreError}

theorem refused_unconfirmed (round : Nat) :
    Refused (.recording round) (runner.unconfirmed effect now draw round) := by
  unfold DeliveryRunner.unconfirmed
  split
  · exact .again round _
  · exact .unconfirmed round _ _

theorem marked_of_permanent (tries : Nat)
    (hpermanent : ∀ message, e ≠ .temporarilyUnavailable message) :
    marked tries (.error e) = .done := by
  cases e with
  | temporarilyUnavailable message => exact absurd rfl (hpermanent message)
  | _ => rfl

end

section
variable {runner : DeliveryRunner} {rules : ClaimRules κ} {now wall : Timestamp} {draw i : Nat}
  {tables : EffectTables κ} {effect : AcceptedEffect}

theorem taskMoves_marking (tries : Nat) (inspecting : Bool) :
    let r := runner.resumeSql rules now wall draw i tables ⟨⟨effect, .marking tries⟩, inspecting⟩
    TaskMoves runner rules wall i tables effect (.marking tries) r.1 r.2.1.stage r.2.2 := by
  simp only [DeliveryRunner.resumeSql, EffectTables.markInFlight]
  obtain ⟨row, hat, hallowed, -, heq⟩ | ⟨e, heq, hpermanent, -⟩ :=
    EffectTables.transition_cases rules tables effect.id [.pending, .retryableFailed] .inFlight
      rules.mayStart fun row => { row with claim := rules.start row.claim }
  · rw [heq]
    exact .marks tries row _ hat (by simpa using hallowed) rfl
  · rw [heq]
    show TaskMoves runner rules wall i tables effect (.marking tries) tables
      (marked tries (.error e)) none
    rw [marked_of_permanent tries hpermanent]
    exact .unmarked tries

/-- What the SELECT of `reserve` leads to. -/
theorem taskMoves_reserved (tries : Nat) :
    TaskMoves runner rules wall i tables effect (.reserving tries) tables
      (runner.reserved effect now tries
        (tables.reserveSelect effect.scope effect.id (effect.fingerprint runner.sha256))) none := by
  unfold EffectTables.reserveSelect
  cases hat : tables.dedup.lookup effect.scope with
  | none =>
    -- the row is gone again
    simp only [dedupRowVanishedError, DeliveryRunner.reserved]
    split
    · exact .looksAgain tries _
    · exact .unreserved tries _ rfl rfl
  | some row =>
    obtain ⟨⟨owner, fingerprint, succeeded⟩, settledAt⟩ := row
    by_cases hfp : fingerprint = effect.fingerprint runner.sha256
    · by_cases howner : owner = effect.id
      · simp only [hfp, howner, ne_eq, not_true_eq_false, if_false, if_true]
        cases succeeded with
        | true => exact .unreserved tries _ rfl rfl
        | false =>
          refine .reservedBefore tries ?_
          simp [EffectTables.ownerOf, hat, howner]
      · simp only [hfp, howner, ne_eq, not_true_eq_false, if_false]
        cases succeeded with
        | true | false => exact .unreserved tries _ rfl rfl
    · simp only [hfp, ne_eq, not_false_eq_true, if_true]
      exact .unreserved tries _ rfl rfl

theorem taskMoves_reserving (tries : Nat) (inspecting : Bool) :
    let r := runner.resumeSql rules now wall draw i tables ⟨⟨effect, .reserving tries⟩, inspecting⟩
    TaskMoves runner rules wall i tables effect (.reserving tries) r.1 r.2.1.stage r.2.2 := by
  cases inspecting with
  | true => exact taskMoves_reserved tries
  | false =>
    simp only [DeliveryRunner.resumeSql, EffectTables.reserveInsert, Bool.false_eq_true, if_false]
    cases hat : tables.dedup.lookup effect.scope with
    | none =>
      rw [Table.insertNew_of_none hat]
      exact .reserves tries hat
    | some =>
      rw [Table.insertNew_of_some hat]
      exact .looksAgain tries tries

/-- A transition of a task in flight goes through or is refused for good, and then for
its claim. -/
theorem taskMoves_settle {stage : Stage} {target : EffectState} {allowedFrom : List EffectState}
    {set : EffectRow κ → EffectRow κ} (next : Except EffectStoreError Unit → Stage)
    (hsettling : stage.settling = some target) (hallowed : .inFlight ∈ allowedFrom)
    (hset : ∀ row, (set row).record.state = row.record.state) (hok : next (.ok ()) = stage.settled)
    (hrefused : ∀ e, (∀ message, e ≠ .temporarilyUnavailable message) →
      Refused stage (next (.error e))) : TaskMoves runner rules wall i tables effect stage
      (tables.transition rules effect.id allowedFrom target rules.mayFinish set).1
      (next (tables.transition rules effect.id allowedFrom target rules.mayFinish set).2) none := by
  obtain ⟨row, hat, -, -, heq⟩ | ⟨e, heq, hpermanent, hblocked⟩ :=
    EffectTables.transition_cases rules tables effect.id allowedFrom target rules.mayFinish set
  · rw [heq, hok]
    exact .settles stage target row _ hsettling hat (hset _)
  · rw [heq]
    refine .refused stage _ target hsettling (hrefused e hpermanent) ?_
    intro row hat hstate
    exact hblocked row hat (hstate ▸ hallowed)

variable (runner rules now wall draw i tables) in
/-- **What a task does next** is one of these. -/
theorem taskMoves_resume (task : SqlTask) :
    let r := runner.resumeSql rules now wall draw i tables task
    TaskMoves runner rules wall i tables task.effect task.stage r.1 r.2.1.stage r.2.2 := by
  obtain ⟨⟨effect, stage⟩, inspecting⟩ := task
  cases stage with
  | marking tries => exact taskMoves_marking tries inspecting
  | reserving tries => exact taskMoves_reserving tries inspecting
  | launching =>
    simp only [DeliveryRunner.resumeSql]
    by_cases hreg : effect.description.effectType ∈ runner.registry
    · simp only [if_pos hreg]
      exact .launches
    · simp only [if_neg hreg]
      exact .unregistered
  | committing round => exact .commits round
  | recording round =>
    simp only [DeliveryRunner.resumeSql, EffectTables.markSucceeded]
    exact taskMoves_settle (runner.recorded effect now draw round) rfl (by simp) (fun _ => rfl) rfl
      fun _ _ => refused_unconfirmed round
  | satisfying =>
    simp only [DeliveryRunner.resumeSql, EffectTables.markSucceeded]
    exact taskMoves_settle (fun _ => .done) rfl (by simp) (fun _ => rfl) rfl fun _ _ => .dropped _
  | retrying purpose attempt nextAt tries =>
    simp only [DeliveryRunner.resumeSql, EffectTables.markRetryable]
    refine taskMoves_settle (retried purpose attempt nextAt tries) rfl (by simp) (fun _ => rfl)
      rfl ?_
    intro e hpermanent
    cases e with
    | temporarilyUnavailable message => exact absurd rfl (hpermanent message)
    | _ =>
      cases purpose with
      | failure => exact .givesUp attempt nextAt tries _
      | unconfirmed | requeue => exact .dropped _
  | abandoning reason release =>
    simp only [DeliveryRunner.resumeSql, EffectTables.markTerminal]
    refine taskMoves_settle (abandoned release) rfl (by simp) (fun _ => rfl) ?_
      fun _ _ => .dropped _
    cases release <;> rfl
  | releasing => exact .releases
  | _ => exact .waits _

variable (runner rules now wall draw i tables) in
theorem resumeSql_effect (task : SqlTask) :
    (runner.resumeSql rules now wall draw i tables task).2.1.effect = task.effect := by
  obtain ⟨⟨effect, stage⟩, inspecting⟩ := task
  cases stage with
  | reserving =>
    cases inspecting with
    | true => rfl
    | false =>
      simp only [DeliveryRunner.resumeSql, Bool.false_eq_true, if_false]
      split <;> rfl
  | launching =>
    simp only [DeliveryRunner.resumeSql]
    split <;> rfl
  | _ => rfl

end

/-! ### What a move leaves -/

namespace TaskMoves
variable {runner : DeliveryRunner} {rules : ClaimRules κ} {wall : Timestamp} {i : Nat}
  {tables tables' : EffectTables κ} {effect : AcceptedEffect} {stage stage' : Stage}
  {seen : Option Observation}

/-- A stage with a transition to make is one in flight. -/
theorem owns_of_settling {target : EffectState} (h : stage.settling = some target) :
    stage.owns = true := by
  cases stage <;> first | rfl | cases h

variable (hm : TaskMoves runner rules wall i tables effect stage tables' stage' seen)
include hm

theorem spares (hr : Relies tables ⟨effect, stage⟩) : Spares tables effect.id tables' := by
  -- the reservation the task has is its own
  have howner : stage.reserves = true → ∀ row, tables.dedup.lookup effect.scope = some row →
      row.reservation.effectId = effect.id := by
    intro hreserves row hrow
    have h : tables.ownerOf effect.scope = some effect.id := hr.reserves hreserves
    rw [EffectTables.ownerOf, hrow] at h
    exact Option.some.inj h
  cases hm with
  | marks _ _ row' | settles _ _ _ row' => exact .put tables effect.id row'
  | reserves _ free =>
    refine .of_scope rfl (fun _ hne => AList.lookup_insert_ne hne) ?_
    intro row hrow
    rw [free] at hrow
    cases hrow
  | commits =>
    exact .of_scope rfl (fun _ hne => EffectTables.lookup_commitSuccess_ne tables wall hne)
      (howner rfl)
  | releases =>
    exact .of_scope rfl (fun _ hne => EffectTables.lookup_release_ne tables hne) (howner rfl)
  | _ => exact .refl tables effect.id

theorem relies (hr : Relies tables ⟨effect, stage⟩) : Relies tables' ⟨effect, stage'⟩ := by
  cases hm with
  | waits => exact hr
  | marks _ _ _ _ _ inFlight =>
    refine .of_inFlight ?_ (by simp) rfl
    rw [EffectTables.stateOf_put_self, inFlight]
  | unmarked | releases => exact .of_not_busy rfl
  | reserves =>
    refine .of_reserved (hr.owns rfl) (by simp) ?_
    simp [EffectTables.ownerOf]
  | looksAgain => exact .of_inFlight (hr.owns rfl) (by simp) rfl
  | reservedBefore _ owner => exact .of_reserved (hr.owns rfl) (by simp) owner
  | unreserved _ _ owns reserves =>
    refine .of_inFlight (hr.owns rfl) ?_ reserves
    rintro rfl
    cases owns
  | launches | unregistered => exact .of_reserved (hr.owns rfl) (by simp) (hr.reserves rfl)
  | commits =>
    refine .of_reserved (hr.owns rfl) (by simp) ?_
    obtain ⟨row, hrow, howner⟩ := Option.map_eq_some_iff.mp (hr.reserves rfl)
    exact Option.map_eq_some_iff.mpr ⟨_, EffectTables.lookup_commitSuccess_self wall hrow, howner⟩
  | settles stage target _ _ settling _ settled =>
    by_cases hrelease : ∃ reason, stage = .abandoning reason true
    · obtain ⟨reason, rfl⟩ := hrelease
      obtain rfl : EffectState.terminalFailed = target := Option.some.inj settling
      refine ⟨(fun h => by cases h), fun _ => ?_, fun _ => hr.reserves rfl⟩
      rw [EffectTables.stateOf_put_self, settled]
    · have hdone : stage.settled = .done := by
        unfold Stage.settled
        split
        · exact absurd ⟨_, rfl⟩ hrelease
        · rfl
      rw [hdone]
      exact .of_not_busy rfl
  | refused _ _ _ settling next =>
    have hstate : tables.stateOf effect.id = some .inFlight := hr.owns (owns_of_settling settling)
    cases next with
    | dropped => exact .of_not_busy rfl
    | again | givesUp => exact .of_reserved hstate (by simp) (hr.reserves rfl)
    | unconfirmed => exact .of_inFlight hstate (by simp) rfl

/-- A task that is not busy marks its effect in flight, or does nothing. -/
theorem busy_cases : stage.busy = true ∨ (tables.stateOf effect.id = some .pending ∨
        tables.stateOf effect.id = some .retryableFailed) ∨
      tables' = tables ∧ stage'.busy = false := by
  cases hm with
  | waits =>
    cases hbusy : stage.busy with
    | true => exact .inl rfl
    | false => exact .inr (.inr ⟨rfl, rfl⟩)
  | marks _ _ _ at' isOpen =>
    refine .inr (.inl ?_)
    rw [EffectTables.stateOf_of_lookup at']
    simpa using isOpen
  | unmarked => exact .inr (.inr ⟨rfl, rfl⟩)
  | settles _ _ _ _ settling | refused _ _ _ settling =>
    exact .inl (Stage.busy_of_owns (owns_of_settling settling))
  | _ => exact .inl rfl

end TaskMoves

end EgoRs.Effects
