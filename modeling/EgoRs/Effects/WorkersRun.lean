import EgoRs.Effects.RunnerRun
import EgoRs.Effects.WorkersStep

/-! # Runs of Delivery Workers

`FleetSteps` lists what an input does to the tables and to the tasks of all
workers; a task is found by its worker and its number. `FleetInv` is what
holds in every state of every run, whatever the rules of the store and the
clock readings are: every task can rely on what its stage needs, and no two
tasks of any workers have one effect to themselves.
-/

namespace EgoRs.Effects

open Framework

variable {W κ : Type}

/-! ## Steps -/

section
variable (runner : W → DeliveryRunner) (rules : W → Timestamp → ClaimRules κ) (s : Fleet W κ)
  (input : WorkerInput W) (p : W × Nat)

/-- How the task at `p` came to its stage, and what that did to the tables. -/
inductive TaskSteps : Task → EffectTables κ → Option Observation → Prop where
  | received (effect : AcceptedEffect) (new : s.taskAt p = none) :
      TaskSteps ⟨effect, .admitting false⟩ s.tables none
  | reclaimed (copy : StoredEffect) (row row' : EffectRow κ) (new : s.taskAt p = none)
      (at' : s.tables.states.lookup copy.id = some row)
      (isOpen : row.record.state = .pending ∨ row.record.state = .retryableFailed)
      (inFlight : row'.record.state = .inFlight) :
      TaskSteps ⟨copy.effect, .admitting true⟩ (s.tables.put copy.id row') none
  | spawned (effect : AcceptedEffect) (claimed inspecting : Bool)
      (at' : s.taskAt p = some ⟨⟨effect, .admitting claimed⟩, inspecting⟩) :
      TaskSteps ⟨effect, .spawned claimed⟩ s.tables none
  | resumed (draw : Nat) (effect : AcceptedEffect) (stage : Stage) (inspecting : Bool)
      (stage' : Stage) (tables' : EffectTables κ) (seen : Option Observation)
      (worker : input.worker = p.1) (call : input.action = .resume p.2 draw)
      (at' : s.taskAt p = some ⟨⟨effect, stage⟩, inspecting⟩)
      (moves : TaskMoves (runner p.1) (rules p.1 input.now) input.wall p.2 s.tables effect stage
        tables' stage' seen) : TaskSteps ⟨effect, stage'⟩ tables' seen
  | finished (effect : AcceptedEffect) (inspecting : Bool) (result : JoinResult) (stage : Stage)
      (at' : s.taskAt p = some ⟨⟨effect, .executing⟩, inspecting⟩)
      (finishes : Finishes (runner p.1) effect input.now result stage) :
      TaskSteps ⟨effect, stage⟩ s.tables (some (.returned p.2 effect result))

end

section
variable [DecidableEq W] (runner : W → DeliveryRunner) (rules : W → Timestamp → ClaimRules κ)
  (s : Fleet W κ) (input : WorkerInput W)

/-- What an input can do to the tables and the tasks. -/
inductive FleetSteps : Fleet W κ → Option Observation → Prop where
  | quiet {s' : Fleet W κ} (states : ∀ id, s'.tables.stateOf id = s.tables.stateOf id)
      (dedup : s'.tables.dedup = s.tables.dedup) (tasks : s'.taskAt = s.taskAt) : FleetSteps s' none
  | accepted {s' : Fleet W κ} (id : EffectId) (row : EffectRow κ)
      (new : s.tables.stateOf id = none) (pending : row.record.state = .pending)
      (tables : s'.tables = s.tables.put id row) (tasks : s'.taskAt = s.taskAt) : FleetSteps s' none
  | written {s' : Fleet W κ} {seen : Option Observation} (p : W × Nat) (task : SqlTask)
      (steps : TaskSteps runner rules s input p task.toTask s'.tables seen)
      (tasks : s'.taskAt = Function.update s.taskAt p (some task)) : FleetSteps s' seen
  | crashed {s' : Fleet W κ} (call : input.action = .crash) (tables : s'.tables = s.tables)
      (tasks : ∀ p task, s'.taskAt p = some task → s.taskAt p = some task) : FleetSteps s' none

end

/-! ### Where the tasks are -/

theorem taskAt_length (s : Fleet W κ) (w : W) : s.taskAt (w, (s.processes w).tasks.length) = none :=
  List.getElem?_eq_none (Nat.le_refl _)

section
variable [DecidableEq W] {s : Fleet W κ} {w : W} {tables : EffectTables κ} {process : Process}

theorem taskAt_same (h : process.tasks = (s.processes w).tasks) :
    (s.after w tables process).taskAt = s.taskAt := by
  funext p
  show (Function.update s.processes w process p.1).tasks[p.2]? = (s.processes p.1).tasks[p.2]?
  by_cases hw : p.1 = w
  · rw [hw, Function.update_self, h]
  · rw [Function.update_of_ne hw]

theorem taskAt_after {i : Nat} {task : SqlTask}
    (h : Written (s.processes w).tasks process.tasks i task) :
    (s.after w tables process).taskAt = Function.update s.taskAt (w, i) (some task) := by
  funext p
  obtain ⟨v, j⟩ := p
  show (Function.update s.processes w process v).tasks[j]? = _
  by_cases hv : v = w
  · subst hv
    rw [Function.update_self]
    by_cases hj : j = i
    · subst hj
      rw [Function.update_self, h.self]
    · rw [Function.update_of_ne (by simp [hj]), h.others j hj]
      rfl
  · rw [Function.update_of_ne hv, Function.update_of_ne (by simp [hv])]
    rfl

theorem FleetSteps.same {runner : W → DeliveryRunner} {rules : W → Timestamp → ClaimRules κ}
    {input : WorkerInput W} (h : process.tasks = (s.processes w).tasks) :
    FleetSteps runner rules s input (s.after w s.tables process) none :=
  .quiet (fun _ => rfl) rfl (taskAt_same h)

end

/-! ### Every step is one of these -/

section
variable [DecidableEq W] (runner : W → DeliveryRunner) (rules : W → Timestamp → ClaimRules κ)
  (s : Fleet W κ)
  (w : W) (now wall : Timestamp)

theorem fleetSteps_accept (id : EffectId) (tenant : TenantId)
    (description : ExternalEffectDescription) :
    let r := s.step runner rules ⟨w, now, wall, .accept id tenant description⟩
    FleetSteps runner rules s ⟨w, now, wall, .accept id tenant description⟩ r.1 r.2 := by
  simp only [Fleet.step, Process.step]
  obtain ⟨hnew, row, hpending, -, -, -, -, heq⟩ | ⟨hsame, -⟩ :=
    EffectTables.accept_cases (rules w now) s.tables ⟨id, tenant, 0, description⟩
  · rw [heq]
    exact .accepted id row (by rw [EffectTables.stateOf, hnew]; rfl) hpending rfl (taskAt_same rfl)
  · generalize s.tables.accept (rules w now) ⟨id, tenant, 0, description⟩ = result at hsame
    obtain ⟨tables', answer⟩ := result
    obtain rfl : tables' = s.tables := hsame
    cases answer with
    | ok | error => exact .same rfl

theorem fleetSteps_reclaim : FleetSteps runner rules s ⟨w, now, wall, .reclaim⟩
      (s.step runner rules ⟨w, now, wall, .reclaim⟩).1
      (s.step runner rules ⟨w, now, wall, .reclaim⟩).2 := by
  simp only [Fleet.step, Process.step]
  split
  · rename_i copy due hloop
    simp only [EffectTables.markInFlight]
    obtain ⟨row, hat, hallowed, -, heq⟩ | ⟨e, heq, -, -⟩ :=
      EffectTables.transition_cases (rules w now) s.tables copy.id [.pending, .retryableFailed]
        .inFlight (rules w now).mayStart
        fun row => { row with claim := (rules w now).start row.claim }
    · rw [heq]
      exact .written (w, (s.processes w).tasks.length) _
        (.reclaimed copy row _ (taskAt_length s w) hat (by simpa using hallowed) rfl)
        (taskAt_after .concat)
    · rw [heq]
      exact .same rfl
  · exact .same rfl

theorem fleetSteps_permit : FleetSteps runner rules s ⟨w, now, wall, .permit⟩
      (s.step runner rules ⟨w, now, wall, .permit⟩).1
      (s.step runner rules ⟨w, now, wall, .permit⟩).2 := by
  simp only [Fleet.step, Process.step]
  split
  · split
    · split
      · rename_i i due hloop hfree x effect claimed inspecting hat
        exact .written (w, i) ⟨⟨effect, .spawned claimed⟩, false⟩
          (.spawned effect claimed inspecting hat) (taskAt_after (.set hat))
      · exact .same rfl
    · exact .same rfl
  · exact .same rfl

theorem fleetSteps_resume (i draw : Nat) : FleetSteps runner rules s ⟨w, now, wall, .resume i draw⟩
      (s.step runner rules ⟨w, now, wall, .resume i draw⟩).1
      (s.step runner rules ⟨w, now, wall, .resume i draw⟩).2 := by
  simp only [Fleet.step, Process.step]
  cases hat : (s.processes w).tasks[i]? with
  | none => exact .same rfl
  | some task =>
    have hat' : s.taskAt (w, i) = some task := hat
    have hmoves := taskMoves_resume (runner w) (rules w now) now wall draw i s.tables task
    have heffect := resumeSql_effect (runner w) (rules w now) now wall draw i s.tables task
    dsimp only
    generalize (runner w).resumeSql (rules w now) now wall draw i s.tables task = o
      at hmoves heffect ⊢
    obtain ⟨tables', ⟨⟨effect', stage'⟩, inspecting'⟩, seen⟩ := o
    obtain rfl : effect' = task.effect := heffect
    obtain ⟨⟨effect, stage⟩, inspecting⟩ := task
    exact .written (w, i) _
      (.resumed draw effect stage inspecting stage' tables' seen rfl rfl hat' hmoves)
      (taskAt_after (.set hat'))

theorem fleetSteps_finish (i : Nat) (result : JoinResult) (draw : Nat) :
    let r := s.step runner rules ⟨w, now, wall, .finish i result draw⟩
    FleetSteps runner rules s ⟨w, now, wall, .finish i result draw⟩ r.1 r.2 := by
  simp only [Fleet.step, Process.step]
  cases hat : (s.processes w).tasks[i]? with
  | none => exact .same rfl
  | some task =>
    obtain ⟨⟨effect, stage⟩, inspecting⟩ := task
    cases stage with
    | executing =>
      have hat' : s.taskAt (w, i) = some ⟨⟨effect, .executing⟩, inspecting⟩ := hat
      exact .written (w, i) _
        (.finished effect inspecting result _ hat'
          (finishes_finished (runner w) effect now draw result))
        (taskAt_after (.set hat'))
    | _ => exact .same rfl

/-- **Every step is one of these.** -/
theorem fleetSteps_step (input : WorkerInput W) :
    FleetSteps runner rules s input (s.step runner rules input).1
      (s.step runner rules input).2 := by
  obtain ⟨w, now, wall, action⟩ := input
  cases action with
  | accept id tenant description =>
    exact fleetSteps_accept runner rules s w now wall id tenant description
  | send =>
    simp only [Fleet.step, Process.step]
    split
    · exact .same rfl
    · exact .same rfl
  | unsent => exact .same rfl
  | claim scan =>
    simp only [Fleet.step, Process.step]
    split
    · exact .quiet
        (EffectTables.stateOf_claimDue (rules w now) s.tables now reclaimBatchLimit scan) rfl
        (taskAt_same rfl)
    · exact .same rfl
  | reclaim => exact fleetSteps_reclaim runner rules s w now wall
  | recv =>
    simp only [Fleet.step, Process.step]
    split
    · rename_i effect queue hloop hqueue
      exact .written (w, (s.processes w).tasks.length) ⟨⟨effect, .admitting false⟩, false⟩
        (.received effect (taskAt_length s w)) (taskAt_after .concat)
    · exact .same rfl
  | permit => exact fleetSteps_permit runner rules s w now wall
  | resume i draw => exact fleetSteps_resume runner rules s w now wall i draw
  | finish i result draw => exact fleetSteps_finish runner rules s w now wall i result draw
  | crash =>
    refine .crashed rfl rfl ?_
    intro p task hat
    have hat' : (Function.update s.processes w Process.start p.1).tasks[p.2]? = some task := hat
    by_cases hw : p.1 = w
    · rw [hw, Function.update_self] at hat'
      cases hat'
    · rw [Function.update_of_ne hw] at hat'
      exact hat'

end

/-! ## Every state of a run -/

/-- **What holds in every state of every run.** -/
structure FleetInv (s : Fleet W κ) : Prop where
  relies : ∀ p task, s.taskAt p = some task → Relies s.tables task.toTask
  /-- No two tasks of any workers are busy with the same effect. -/
  alone : ∀ p q task task', s.taskAt p = some task → s.taskAt q = some task' →
    task.stage.busy = true → task'.stage.busy = true → task.effect.id = task'.effect.id → p = q

namespace FleetInv
variable {s : Fleet W κ}

theorem others (hinv : FleetInv s) {p : W × Nat} {task : SqlTask} (hat : s.taskAt p = some task)
    (hbusy : task.stage.busy = true) :
    ∀ q task', q ≠ p → s.taskAt q = some task' → task'.stage.busy = true →
      task'.effect.id ≠ task.effect.id := by
  intro q task' hne hq hbusy' hid
  exact hne (hinv.alone q p task' task hq hat hbusy' hbusy hid)

/-- Nobody is busy with an effect that can be marked in flight, or is not there. -/
theorem nobody (hinv : FleetInv s) {id : EffectId}
    (hinFlight : s.tables.stateOf id ≠ some .inFlight)
    (hterminal : s.tables.stateOf id ≠ some .terminalFailed) :
    ∀ q task, s.taskAt q = some task → task.stage.busy = true → task.effect.id ≠ id := by
  rintro q task hq hbusy rfl
  have hrelies := hinv.relies q task hq
  by_cases hreleasing : task.stage = .releasing
  · exact hterminal (hrelies.releasing hreleasing)
  · exact hinFlight (hrelies.owns (Stage.owns_of_busy hbusy hreleasing))

theorem nobody_of_open (hinv : FleetInv s) {id : EffectId}
    (hopen : s.tables.stateOf id = some .pending ∨ s.tables.stateOf id = some .retryableFailed) :
    ∀ q task, s.taskAt q = some task → task.stage.busy = true → task.effect.id ≠ id := by
  apply hinv.nobody
  · rcases hopen with h | h <;> simp [h]
  · rcases hopen with h | h <;> simp [h]

end FleetInv

namespace TaskSteps
variable {runner : W → DeliveryRunner} {rules : W → Timestamp → ClaimRules κ} {s : Fleet W κ}
  {input : WorkerInput W} {p : W × Nat} {task : Task} {tables' : EffectTables κ}
  {seen : Option Observation} (hs : TaskSteps runner rules s input p task tables' seen)
  (hinv : FleetInv s)
include hs hinv

/-- The task can rely on what its stage needs. -/
theorem relies : Relies tables' task := by
  cases hs with
  | received => exact .of_not_busy rfl
  | reclaimed copy _ row' _ _ _ inFlight =>
    refine .of_inFlight ?_ (by simp) rfl
    show (s.tables.put copy.id row').stateOf copy.id = some .inFlight
    rw [EffectTables.stateOf_put_self, inFlight]
  | spawned _ claimed _ at' =>
    cases claimed with
    | false => exact .of_not_busy rfl
    | true => exact .of_inFlight ((hinv.relies p _ at').owns rfl) (by simp [Stage.spawned]) rfl
  | resumed _ _ _ _ _ _ _ _ _ at' moves =>
    exact moves.relies (hinv.relies p _ at')
  | finished _ _ _ _ at' finishes =>
    have hr := hinv.relies p _ at'
    refine .of_reserved (hr.owns rfl) ?_ (hr.reserves rfl)
    rintro rfl
    cases finishes

theorem spares : Spares s.tables task.effect.id tables' := by
  cases hs with
  | reclaimed copy _ row' => exact .put s.tables copy.id row'
  | resumed _ _ _ _ _ _ _ _ _ at' moves =>
    exact moves.spares (hinv.relies p _ at')
  | _ => exact .refl s.tables _

/-- The step does nothing, or everybody else has another effect. -/
theorem apart : tables' = s.tables ∧ task.stage.busy = false ∨
      ∀ q task', q ≠ p → s.taskAt q = some task' → task'.stage.busy = true →
        task'.effect.id ≠ task.effect.id := by
  cases hs with
  | received => exact .inl ⟨rfl, rfl⟩
  | reclaimed copy _ _ _ at' isOpen =>
    right
    intro q task' _ hq hbusy
    have hopen : s.tables.stateOf copy.id = some .pending ∨
        s.tables.stateOf copy.id = some .retryableFailed := by
      rw [EffectTables.stateOf_of_lookup at']
      simpa using isOpen
    exact hinv.nobody_of_open hopen q task' hq hbusy
  | spawned _ claimed _ at' =>
    cases claimed with
    | false => exact .inl ⟨rfl, rfl⟩
    | true => exact .inr (hinv.others at' rfl)
  | resumed _ _ _ _ _ _ _ _ _ at' moves =>
    rcases moves.busy_cases with hbusy | hopen | hnothing
    · exact .inr (hinv.others at' hbusy)
    · right
      intro q task' _ hq hbusy
      exact hinv.nobody_of_open hopen q task' hq hbusy
    · exact .inl hnothing
  | finished _ _ _ _ at' => exact .inr (hinv.others at' rfl)

end TaskSteps

section
variable [DecidableEq W] {runner : W → DeliveryRunner} {rules : W → Timestamp → ClaimRules κ}
  {s s' : Fleet W κ}
  {input : WorkerInput W} {seen : Option Observation}

theorem taskAt_written {p q : W × Nat} {task task' : SqlTask}
    (htasks : s'.taskAt = Function.update s.taskAt p (some task)) (hq : s'.taskAt q = some task') :
    q = p ∧ task' = task ∨ q ≠ p ∧ s.taskAt q = some task' := by
  rw [htasks] at hq
  by_cases hqp : q = p
  · subst hqp
    rw [Function.update_self] at hq
    exact .inl ⟨rfl, (Option.some.inj hq).symm⟩
  · rw [Function.update_of_ne hqp] at hq
    exact .inr ⟨hqp, hq⟩

section
variable (hs : FleetSteps runner rules s input s' seen) (hinv : FleetInv s)
include hs hinv

theorem FleetSteps.relies : ∀ p task, s'.taskAt p = some task → Relies s'.tables task.toTask := by
  intro q task' hq
  cases hs with
  | quiet states dedup tasks =>
    rw [tasks] at hq
    have hr := hinv.relies q task' hq
    refine ⟨?_, ?_, ?_⟩
    · intro h
      rw [states]
      exact hr.owns h
    · intro h
      rw [states]
      exact hr.releasing h
    · intro h
      rw [EffectTables.ownerOf, dedup]
      exact hr.reserves h
  | accepted id row new _ tables tasks =>
    rw [tasks] at hq
    rw [tables]
    by_cases hbusy : task'.stage.busy = true
    · have hne : task'.effect.id ≠ id :=
        hinv.nobody (by simp [new]) (by simp [new]) q task' hq hbusy
      exact (Spares.put s.tables id row).relies hne (hinv.relies q task' hq)
    · exact .of_not_busy (by simpa using hbusy)
  | written _ _ steps tasks =>
    rcases taskAt_written tasks hq with ⟨-, rfl⟩ | ⟨hne, hold⟩
    · exact steps.relies hinv
    · by_cases hbusy : task'.stage.busy = true
      · rcases steps.apart hinv with ⟨hsame, -⟩ | hothers
        · rw [hsame]
          exact hinv.relies q task' hold
        · exact (steps.spares hinv).relies (hothers q task' hne hold hbusy)
            (hinv.relies q task' hold)
      · exact .of_not_busy (by simpa using hbusy)
  | crashed _ tables tasks =>
    rw [tables]
    exact hinv.relies q task' (tasks q task' hq)

theorem FleetSteps.alone : ∀ p q task task', s'.taskAt p = some task → s'.taskAt q = some task' →
      task.stage.busy = true → task'.stage.busy = true → task.effect.id = task'.effect.id →
      p = q := by
  intro q r task₁ task₂ hq hr hbusy₁ hbusy₂ hid
  cases hs with
  | quiet _ _ tasks | accepted _ _ _ _ _ tasks =>
    rw [tasks] at hq hr
    exact hinv.alone q r task₁ task₂ hq hr hbusy₁ hbusy₂ hid
  | written p task steps tasks =>
    -- the task that was written is alone, if it is busy at all
    have hothers : task.stage.busy = true → ∀ q task', q ≠ p → s.taskAt q = some task' →
        task'.stage.busy = true → task'.effect.id ≠ task.effect.id := by
      intro hbusy
      rcases steps.apart hinv with ⟨-, hidle⟩ | hothers
      · rw [hbusy] at hidle
        cases hidle
      · exact hothers
    rcases taskAt_written tasks hq with ⟨hqp, htask₁⟩ | ⟨hqp, hqold⟩
    · rcases taskAt_written tasks hr with ⟨hrp, -⟩ | ⟨hrp, hrold⟩
      · rw [hqp, hrp]
      · subst htask₁
        exact absurd hid.symm (hothers hbusy₁ r task₂ hrp hrold hbusy₂)
    · rcases taskAt_written tasks hr with ⟨hrp, htask₂⟩ | ⟨hrp, hrold⟩
      · subst htask₂
        exact absurd hid (hothers hbusy₂ q task₁ hqp hqold hbusy₁)
      · exact hinv.alone q r task₁ task₂ hqold hrold hbusy₁ hbusy₂ hid
  | crashed _ _ tasks =>
    exact hinv.alone q r task₁ task₂ (tasks q task₁ hq) (tasks r task₂ hr) hbusy₁ hbusy₂ hid

theorem FleetSteps.fleetInv : FleetInv s' :=
  ⟨hs.relies hinv, hs.alone hinv⟩

end

theorem fleetInv_run {h : FleetHistory W κ} (he : (fleet runner rules).Run h s) : FleetInv s := by
  refine he.invariant (P := fun _ s => FleetInv s) ?_ ?_
  · refine ⟨?_, ?_⟩
    · intro p task hat
      cases hat
    · intro p q task task' hat
      cases hat
  · intro h s input _ hinv
    exact (fleetSteps_step runner rules s input).fleetInv hinv

end

end EgoRs.Effects
