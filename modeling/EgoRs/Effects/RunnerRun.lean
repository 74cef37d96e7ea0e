import EgoRs.Effects.RunnerStep
import EgoRs.Framework.Transactions

/-! # Runs of the Delivery Runner

`Steps` lists what an input does to clock, store and tasks. `RunnerInv` is
what holds in every state of every run: every copy of an effect is of a
record in the store, every task can rely on what its stage needs, and no
two tasks have the same effect to themselves.
-/

namespace EgoRs.Effects

open Framework

/-! ## Copies -/

/-- The copies the loop has left. -/
def Loop.due : Loop → List StoredEffect
  | .reclaiming due => due
  | .admitting _ due => due
  | _ => []

theorem Loop.due_next (due : List StoredEffect) : (Loop.next due).due = due := by
  cases due <;> rfl

/-- Every copy of an effect that is around. -/
def State.effects (s : State) : List AcceptedEffect :=
  s.sending ++ s.queue ++ s.loop.due.map StoredEffect.effect ++ s.tasks.map Task.effect

/-- A new copy of a stored effect: the one that goes to the queue, or a claimed
one. -/
structure Copied (store : InMemoryEffectStore) (now : Timestamp) (effect : AcceptedEffect) :
    Prop where
  known : Known store effect
  attempt : effect.attempt = 0 ∨ ∃ record, store.states.lookup effect.id = some record ∧
    effect.attempt = record.attempt ∧ record.due now = true

section
variable {s : State}

theorem mem_effects {effect : AcceptedEffect} :
    effect ∈ s.effects ↔ effect ∈ s.sending ∨ effect ∈ s.queue ∨
      effect ∈ s.loop.due.map StoredEffect.effect ∨ effect ∈ s.tasks.map Task.effect := by
  simp only [State.effects, List.mem_append]
  tauto

theorem mem_effects_of_task {i : Nat} {task : Task} (hat : s.tasks[i]? = some task) :
    task.effect ∈ s.effects :=
  mem_effects.mpr (.inr (.inr (.inr (List.mem_map_of_mem (List.mem_of_getElem? hat)))))

theorem effects_stage {s₀ : State} {i : Nat} {effect : AcceptedEffect} {stage stage' : Stage}
    (hat : s.tasks[i]? = some ⟨effect, stage⟩) (hsending : s₀.sending = s.sending)
    (hqueue : s₀.queue = s.queue) (hloop : s₀.loop.due = s.loop.due) (htasks : s₀.tasks = s.tasks) :
    ∀ e ∈ (s₀.stage i ⟨effect, stage⟩ stage').effects, e ∈ s.effects := by
  intro e he
  rw [mem_effects] at he ⊢
  obtain h | h | h | h := he
  · exact .inl (hsending ▸ h)
  · exact .inr (.inl (hqueue ▸ h))
  · refine .inr (.inr (.inl ?_))
    rw [← hloop]
    exact h
  · refine .inr (.inr (.inr ?_))
    have h' : e ∈ (s₀.tasks.set i ⟨effect, stage'⟩).map Task.effect := h
    rw [htasks] at h'
    obtain ⟨task, htask, rfl⟩ := List.mem_map.mp h'
    obtain h | rfl := List.mem_or_eq_of_mem_set htask
    · exact List.mem_map_of_mem h
    · exact List.mem_map.mpr ⟨⟨effect, stage⟩, List.mem_of_getElem? hat, rfl⟩

end

/-! ## Every state of a run -/

/-- **What holds in every state of every run.** -/
structure RunnerInv (runner : DeliveryRunner) (s : State) : Prop where
  known : ∀ effect ∈ s.effects, Known s.store effect
  tasks : ∀ (i : Nat) (task : Task), s.tasks[i]? = some task → TaskInv runner s.store task
  /-- No two tasks are busy with the same effect. -/
  alone : ∀ (i j : Nat) (task task' : Task), s.tasks[i]? = some task → s.tasks[j]? = some task' →
    task.stage.busy = true → task'.stage.busy = true → task.effect.id = task'.effect.id → i = j

namespace RunnerInv
variable {runner : DeliveryRunner} {s s' : State}

/-- The others have other effects. -/
theorem others (hinv : RunnerInv runner s) {i : Nat} {task : Task}
    (hat : s.tasks[i]? = some task) (hbusy : task.stage.busy = true) :
    ∀ (j : Nat) (task' : Task), j ≠ i → s.tasks[j]? = some task' → task'.stage.busy = true →
      task'.effect.id ≠ task.effect.id := by
  intro j task' hne hj hb hid
  exact hne (hinv.alone j i task' task hj hat hb hbusy hid)

/-- Nobody has an effect that can be marked in flight. -/
theorem nobody (hinv : RunnerInv runner s) {id : EffectId} {record : EffectRecord}
    (hat : s.store.states.lookup id = some record)
    (hopen : record.state = .pending ∨ record.state = .retryableFailed) :
    ∀ (j : Nat) (task : Task), s.tasks[j]? = some task → task.stage.busy = true →
      task.effect.id ≠ id := by
  rintro j task hj hb rfl
  obtain h | h := (hinv.tasks j task hj).busy hb <;> simp [← h.unique ⟨record, hat, rfl⟩] at hopen

variable {i : Nat} {task : Task}

/-- One task is new or at another stage, and alone there if it is busy. -/
theorem alone_written (hinv : RunnerInv runner s) (htasks : Written s.tasks s'.tasks i task)
    (hothers : task.stage.busy = true → ∀ (j : Nat) (task' : Task), j ≠ i →
      s.tasks[j]? = some task' → task'.stage.busy = true → task'.effect.id ≠ task.effect.id) :
    ∀ (j k : Nat) (a b : Task), s'.tasks[j]? = some a → s'.tasks[k]? = some b →
      a.stage.busy = true → b.stage.busy = true → a.effect.id = b.effect.id → j = k := by
  intro j k a b hj hk hbj hbk hid
  obtain ⟨rfl, rfl⟩ | ⟨hnej, hj'⟩ := htasks.cases hj
  · obtain ⟨rfl, -⟩ | ⟨hnek, hk'⟩ := htasks.cases hk
    · rfl
    · exact absurd hid.symm (hothers hbj k b hnek hk' hbk)
  · obtain ⟨rfl, rfl⟩ | ⟨-, hk'⟩ := htasks.cases hk
    · exact absurd hid (hothers hbk j a hnej hj' hbj)
    · exact hinv.alone j k a b hj' hk' hbj hbk hid

end RunnerInv

/-! ## Steps -/

section
variable (runner : DeliveryRunner) (s : State) (input : Input) (s' : State) (i : Nat)

/-- How task `i` is new or comes to another stage, what that does to the store
and what can be seen of it. -/
inductive Turns : Task → Option Observation → Prop where
  | received (effect : AcceptedEffect) (new : s.tasks[i]? = none) (store : s'.store = s.store) :
      Turns ⟨effect, .admitting false⟩ none
  | reclaimed (copy : StoredEffect) (due : List StoredEffect) (record : EffectRecord)
      (call : input = .reclaim) (loop : s.loop = .reclaiming (copy :: due))
      (found : s.store.states.lookup copy.id = some record)
      (isOpen : record.state = .pending ∨ record.state = .retryableFailed)
      (store : s'.store = s.store.put copy.id { record with state := .inFlight })
      (new : s.tasks[i]? = none) : Turns ⟨copy.effect, .admitting true⟩ none
  | spawned (effect : AcceptedEffect) (claimed : Bool)
      (at' : s.tasks[i]? = some ⟨effect, .admitting claimed⟩) (store : s'.store = s.store)
      (due : List StoredEffect) (loop : s.loop = .admitting i due) :
      Turns ⟨effect, .spawned claimed⟩ none
  | resumed (draw : Nat) (effect : AcceptedEffect) (stage : Stage)
      (o : InMemoryEffectStore × Stage × Option Observation) (call : input = .resume i draw)
      (at' : s.tasks[i]? = some ⟨effect, stage⟩)
      (moves : Moves runner s.store s.clock i effect stage o) (store : s'.store = o.1) :
      Turns ⟨effect, o.2.1⟩ o.2.2
  | finished (draw : Nat) (result : JoinResult) (effect : AcceptedEffect) (stage : Stage)
      (call : input = .finish i result draw) (at' : s.tasks[i]? = some ⟨effect, .executing⟩)
      (finishes : Finishes runner effect s.clock result stage) (store : s'.store = s.store) :
      Turns ⟨effect, stage⟩ (some (.returned i effect result))
  | unheard (result : JoinResult) (effect : AcceptedEffect)
      (at' : s.tasks[i]? = some ⟨effect, .detached⟩) (store : s'.store = s.store) :
      Turns ⟨effect, .done⟩ (some (.returned i effect result))
  | aborted (effect : AcceptedEffect) (stage : Stage) (call : input = .abort i)
      (at' : s.tasks[i]? = some ⟨effect, stage⟩) (store : s'.store = s.store) :
      Turns ⟨effect, stage.aborted⟩ none

end

section
variable (runner : DeliveryRunner) (s : State) (input : Input) (s' : State)

/-- What an input can do to clock, store and tasks. -/
inductive Steps : Option Observation → Prop where
  | quiet (clock : s'.clock = s.clock ∨ input = .clock s'.clock) (store : s'.store = s.store)
      (tasks : s'.tasks = s.tasks)
      (effects : ∀ effect ∈ s'.effects, effect ∈ s.effects ∨ Copied s.store s.clock effect) :
      Steps none
  | accepted (id : EffectId) (record : EffectRecord) (new : s.store.states.lookup id = none)
      (pending : record.state = .pending) (attempt : record.attempt = 0)
      (nextAt : record.nextAt = none) (clock : s'.clock = s.clock)
      (store : s'.store = s.store.put id record) (tasks : s'.tasks = s.tasks)
      (effects : ∀ effect ∈ s'.effects, effect ∈ s.effects ∨ Copied s'.store s.clock effect) :
      Steps none
  | written {seen : Option Observation} (i : Nat) (task : Task)
      (turns : Turns runner s input s' i task seen) (clock : s'.clock = s.clock)
      (tasks : Written s.tasks s'.tasks i task)
      (effects : ∀ effect ∈ s'.effects, effect ∈ s.effects) : Steps seen

end

namespace Turns
variable {runner : DeliveryRunner} {s s' : State} {input : Input} {seen : Option Observation}
  {i : Nat} {task : Task} (ht : Turns runner s input s' i task seen)
include ht

theorem effect_eq {old : Task} (hat : s.tasks[i]? = some old) : task.effect = old.effect := by
  cases ht with
  | received _ new | reclaimed _ _ _ _ _ _ _ _ new => cases hat.symm.trans new
  | spawned _ _ at' | resumed _ _ _ _ _ at' | finished _ _ _ _ _ at' | unheard _ _ at'
  | aborted _ _ _ at' =>
    cases hat.symm.trans at'
    rfl

variable (hinv : RunnerInv runner s)
include hinv

theorem touches : Touches s.store task.effect.id s'.store := by
  cases ht with
  | reclaimed _ _ _ _ _ found _ store =>
    rw [store]
    exact Touches.put _ found rfl rfl
  | resumed _ _ _ _ _ at' moves store =>
    rw [store]
    exact moves.touches (hinv.tasks i _ at')
  | received _ _ store | spawned _ _ _ store | finished _ _ _ _ _ _ _ store | unheard _ _ _ store
  | aborted _ _ _ _ store =>
    rw [store]
    exact Touches.refl s.store _

/-- Nobody else is busy with its effect, if it writes or is busy itself. -/
theorem apart : s'.store = s.store ∧ task.stage.busy = false ∨
    ∀ (j : Nat) (task' : Task), j ≠ i → s.tasks[j]? = some task' → task'.stage.busy = true →
      task'.effect.id ≠ task.effect.id := by
  cases ht with
  | received _ _ store | unheard _ _ _ store => exact .inl ⟨store, rfl⟩
  | reclaimed _ _ _ _ _ found isOpen => exact .inr fun j task' _ => hinv.nobody found isOpen j task'
  | spawned _ claimed at' store =>
    cases claimed with
    | false => exact .inl ⟨store, rfl⟩
    | true => exact .inr (hinv.others at' rfl :)
  | resumed _ _ stage _ _ at' moves store =>
    by_cases hbusy : stage.busy = true
    · exact .inr (hinv.others at' hbusy :)
    · -- a task that is not busy marks its effect, or leaves the store
      cases moves with
      | waits => exact .inl ⟨store, by simpa using hbusy⟩
      | refused => exact .inl ⟨store, rfl⟩
      | marks _ _ found isOpen => exact .inr fun j task' _ => hinv.nobody found isOpen j task'
      | _ => exact absurd rfl hbusy
  | finished _ _ _ _ _ at' => exact .inr (hinv.others at' rfl :)
  | aborted _ stage _ at' store =>
    cases hbusy : stage.aborted.busy with
    | false => exact .inl ⟨store, rfl⟩
    | true => exact .inr (hinv.others at' (Stage.busy_of_aborted hbusy) :)

end Turns

section
variable {runner : DeliveryRunner} {s : State}

theorem steps_moved {input : Input} {s' : State} (hclock : s'.clock = s.clock)
    (hstore : s'.store = s.store) (htasks : s'.tasks = s.tasks)
    (heffects : ∀ effect ∈ s'.effects, effect ∈ s.effects) : Steps runner s input s' none :=
  .quiet (.inl hclock) hstore htasks fun effect h => .inl (heffects effect h)

theorem steps_accept (id : EffectId) (tenant : TenantId) (description : ExternalEffectDescription) :
    Steps runner s (.accept id tenant description) (s.step runner (.accept id tenant description)).1
      (s.step runner (.accept id tenant description)).2 := by
  simp only [State.step, InMemoryEffectStore.accept]
  cases hat : s.store.states.lookup id with
  | none =>
    refine .accepted id _ hat rfl rfl rfl rfl rfl rfl ?_
    intro effect he
    rw [mem_effects] at he ⊢
    obtain h | h := he
    · obtain h | rfl := mem_snoc h
      · exact .inl (.inl h)
      · right
        exact ⟨⟨_, InMemoryEffectStore.lookup_put_self s.store id _, rfl, rfl⟩, .inl rfl⟩
    · exact .inl (.inr h)
  | some existing =>
    by_cases hsame : existing.tenant = tenant ∧ existing.description = description
    · simp only [if_pos hsame]
      refine .quiet (.inl rfl) rfl rfl ?_
      intro effect he
      rw [mem_effects] at he ⊢
      obtain h | h := he
      · obtain h | rfl := mem_snoc h
        · exact .inl (.inl h)
        · exact .inr ⟨⟨existing, hat, hsame⟩, .inl rfl⟩
      · exact .inl (.inr h)
    · simp only [if_neg hsame]
      exact steps_moved rfl rfl rfl fun _ h => h

theorem steps_claim (order : IterOrder) :
    Steps runner s (.claim order) (s.step runner (.claim order)).1
      (s.step runner (.claim order)).2 := by
  simp only [State.step]
  split
  · rename_i hloop
    refine .quiet (.inl rfl) rfl rfl ?_
    intro effect he
    rw [mem_effects] at he ⊢
    obtain h | h | h | h := he
    · exact .inl (.inl h)
    · exact .inl (.inr (.inl h))
    · -- a claimed copy has its record's content
      right
      have h' : effect ∈ (Loop.next (s.store.claimDue s.clock reclaimBatchLimit order)).due.map
          StoredEffect.effect := h
      rw [Loop.due_next] at h'
      obtain ⟨copy, hcopy, rfl⟩ := List.mem_map.mp h'
      obtain ⟨record, hat, hdue, hstored⟩ := InMemoryEffectStore.mem_claimDue hcopy
      have htenant : copy.tenant = record.tenant := congrArg StoredEffect.tenant hstored
      have hdescription : copy.description = record.description :=
        congrArg StoredEffect.description hstored
      have hattempt : copy.attempt = record.attempt := congrArg StoredEffect.attempt hstored
      exact ⟨⟨record, hat, htenant.symm, hdescription.symm⟩, .inr ⟨record, hat, hattempt, hdue⟩⟩
    · exact .inl (.inr (.inr (.inr h)))
  · exact steps_moved rfl rfl rfl fun _ h => h

theorem steps_reclaim :
    Steps runner s .reclaim (s.step runner .reclaim).1 (s.step runner .reclaim).2 := by
  simp only [State.step]
  cases hloop : s.loop with
  | idle | admitting | stopped => exact steps_moved rfl rfl rfl fun _ h => h
  | reclaiming batch =>
    cases batch with
    | nil => exact steps_moved rfl rfl rfl fun _ h => h
    | cons copy due =>
      by_cases hopen : ∃ record, s.store.states.lookup copy.id = some record ∧
          (record.state = .pending ∨ record.state = .retryableFailed)
      · obtain ⟨record, hat, hstate⟩ := hopen
        have hmark := InMemoryEffectStore.mark_of_allowed .inFlight (fun r => r) hat
          (show record.state ∈ [EffectState.pending, .retryableFailed] by simpa using hstate)
        simp only [InMemoryEffectStore.markInFlight, hmark]
        refine .written s.tasks.length _ (.reclaimed copy due record rfl hloop hat hstate rfl
          (List.getElem?_eq_none (Nat.le_refl _))) rfl .concat ?_
        intro effect he
        rw [mem_effects] at he ⊢
        obtain h | h | h | h := he
        · exact .inl h
        · exact .inr (.inl h)
        · refine .inr (.inr (.inl ?_))
          rw [hloop]
          exact List.mem_cons_of_mem _ h
        · have h' : effect ∈
              (s.tasks ++ [(⟨copy.effect, .admitting true⟩ : Task)]).map Task.effect := h
          rw [List.map_append, List.mem_append, List.map_singleton, List.mem_singleton] at h'
          obtain h' | rfl := h'
          · exact .inr (.inr (.inr h'))
          · refine .inr (.inr (.inl ?_))
            rw [hloop]
            exact List.mem_cons_self
      · have hrefused : ∀ record, s.store.states.lookup copy.id = some record →
            record.state ∉ [EffectState.pending, .retryableFailed] := by
          intro record hat hmem
          exact hopen ⟨record, hat, by simpa using hmem⟩
        obtain ⟨e, hmark, -⟩ :=
          InMemoryEffectStore.mark_of_not_allowed .inFlight (fun r => r) hrefused
        simp only [InMemoryEffectStore.markInFlight, hmark]
        refine steps_moved rfl rfl rfl ?_
        intro effect he
        rw [mem_effects] at he ⊢
        obtain h | h | h | h := he
        · exact .inl h
        · exact .inr (.inl h)
        · have h' : effect ∈ (Loop.next due).due.map StoredEffect.effect := h
          rw [Loop.due_next] at h'
          refine .inr (.inr (.inl ?_))
          rw [hloop]
          exact List.mem_cons_of_mem _ h'
        · exact .inr (.inr (.inr h))

theorem steps_recv : Steps runner s .recv (s.step runner .recv).1 (s.step runner .recv).2 := by
  simp only [State.step]
  split
  · rename_i effect queue hloop hqueue
    refine .written s.tasks.length _
      (.received effect (List.getElem?_eq_none (Nat.le_refl _)) rfl) rfl .concat ?_
    intro e he
    rw [mem_effects] at he ⊢
    obtain h | h | h | h := he
    · exact .inl h
    · refine .inr (.inl ?_)
      rw [hqueue]
      exact List.mem_cons_of_mem _ h
    · cases h
    · have h' : e ∈ (s.tasks ++ [(⟨effect, .admitting false⟩ : Task)]).map Task.effect := h
      rw [List.map_append, List.mem_append, List.map_singleton, List.mem_singleton] at h'
      obtain h' | rfl := h'
      · exact .inr (.inr (.inr h'))
      · refine .inr (.inl ?_)
        rw [hqueue]
        exact List.mem_cons_self
  · exact steps_moved rfl rfl rfl fun _ h => h

theorem steps_permit :
    Steps runner s .permit (s.step runner .permit).1 (s.step runner .permit).2 := by
  simp only [State.step]
  split
  · rename_i i due hloop
    split
    · split
      · rename_i effect claimed hat
        refine .written i _ (.spawned effect claimed hat rfl due hloop) rfl (.set hat) ?_
        refine effects_stage hat rfl rfl ?_ rfl
        show (Loop.next due).due = s.loop.due
        rw [Loop.due_next, hloop]
        rfl
      · exact steps_moved rfl rfl rfl fun _ h => h
    · exact steps_moved rfl rfl rfl fun _ h => h
  · exact steps_moved rfl rfl rfl fun _ h => h

theorem steps_finish (i : Nat) (result : JoinResult) (draw : Nat) :
    Steps runner s (.finish i result draw) (s.step runner (.finish i result draw)).1
      (s.step runner (.finish i result draw)).2 := by
  simp only [State.step]
  cases hat : s.tasks[i]? with
  | none => exact steps_moved rfl rfl rfl fun _ h => h
  | some task =>
    obtain ⟨effect, stage⟩ := task
    cases stage with
    | executing =>
      have hfinishes := finishes_finished runner effect s.clock draw result
      exact .written i _ (.finished draw result effect _ rfl hat hfinishes rfl) rfl (.set hat)
        (effects_stage hat rfl rfl rfl rfl)
    | detached =>
      exact .written i _ (.unheard result effect hat rfl) rfl (.set hat)
        (effects_stage hat rfl rfl rfl rfl)
    | _ => exact steps_moved rfl rfl rfl fun _ h => h

/-- **Every step is one of these.** -/
theorem steps_step (hinv : RunnerInv runner s) (input : Input) :
    Steps runner s input (s.step runner input).1 (s.step runner input).2 := by
  cases input with
  | clock =>
    exact .quiet (.inr rfl) rfl rfl fun _ h => .inl h
  | accept id tenant description => exact steps_accept id tenant description
  | send k =>
    simp only [State.step]
    cases hk : s.sending[k]? with
    | none => exact steps_moved rfl rfl rfl fun _ h => h
    | some =>
      refine steps_moved rfl rfl rfl ?_
      intro e he
      rw [mem_effects] at he ⊢
      obtain h | h | h := he
      · exact .inl (List.mem_of_mem_eraseIdx h)
      · obtain h | rfl := mem_snoc h
        · exact .inr (.inl h)
        · exact .inl (List.mem_of_getElem? hk)
      · exact .inr (.inr h)
  | unsent =>
    refine steps_moved rfl rfl rfl ?_
    intro e he
    rw [mem_effects] at he ⊢
    obtain h | h := he
    · exact .inl (List.mem_of_mem_eraseIdx h)
    · exact .inr h
  | claim order => exact steps_claim order
  | reclaim => exact steps_reclaim
  | recv => exact steps_recv
  | permit => exact steps_permit
  | stop =>
    refine steps_moved rfl rfl rfl ?_
    intro e he
    rw [mem_effects] at he ⊢
    obtain h | h | h | h := he
    · exact .inl h
    · exact .inr (.inl h)
    · cases h
    · exact .inr (.inr (.inr h))
  | resume i draw =>
    simp only [State.step]
    cases hat : s.tasks[i]? with
    | none => exact steps_moved rfl rfl rfl fun _ h => h
    | some task =>
      obtain ⟨effect, stage⟩ := task
      have hi := hinv.tasks i _ hat
      exact .written i _ (.resumed draw effect stage _ rfl hat (moves_resume draw hi) rfl) rfl
        (.set hat) (effects_stage hat rfl rfl rfl rfl)
  | finish i result draw => exact steps_finish i result draw
  | abort i =>
    simp only [State.step]
    cases hat : s.tasks[i]? with
    | none => exact steps_moved rfl rfl rfl fun _ h => h
    | some task =>
      obtain ⟨effect, stage⟩ := task
      exact .written i _ (.aborted effect stage rfl hat rfl) rfl (.set hat)
        (effects_stage hat rfl rfl rfl rfl)

end

/-- What a step does to the store. -/
inductive Writes (runner : DeliveryRunner) (s : State) (input : Input) (s' : State) : Prop where
  | nothing (store : s'.store = s.store)
  | accepted (id : EffectId) (record : EffectRecord) (new : s.store.states.lookup id = none)
      (pending : record.state = .pending) (attempt : record.attempt = 0)
      (nextAt : record.nextAt = none) (store : s'.store = s.store.put id record)
  | reclaimed (i : Nat) (copy : StoredEffect) (due : List StoredEffect) (record : EffectRecord)
      (call : input = .reclaim) (loop : s.loop = .reclaiming (copy :: due))
      (found : s.store.states.lookup copy.id = some record)
      (isOpen : record.state = .pending ∨ record.state = .retryableFailed)
      (store : s'.store = s.store.put copy.id { record with state := .inFlight })
      (after : s'.tasks[i]? = some ⟨copy.effect, .admitting true⟩)
  | resumed (i draw : Nat) (effect : AcceptedEffect) (stage : Stage)
      (o : InMemoryEffectStore × Stage × Option Observation) (call : input = .resume i draw)
      (at' : s.tasks[i]? = some ⟨effect, stage⟩)
      (moves : Moves runner s.store s.clock i effect stage o) (store : s'.store = o.1)
      (after : s'.tasks[i]? = some ⟨effect, o.2.1⟩)

/-- What a step leaves alone of a busy task: everything, or all that is about its
effect. -/
def Leaves (s s' : State) (task : Task) : Prop :=
  s'.store = s.store ∨ ∃ id, Touches s.store id s'.store ∧ task.effect.id ≠ id

section
variable {runner : DeliveryRunner} {s s' : State} {input : Input} {seen : Option Observation}
  (hs : Steps runner s input s' seen)
include hs

theorem Steps.writes : Writes runner s input s' := by
  cases hs with
  | quiet _ store => exact .nothing store
  | accepted id record new pending attempt nextAt _ store =>
    exact .accepted id record new pending attempt nextAt store
  | written i _ turns _ tasks =>
    cases turns with
    | reclaimed copy due record call loop found isOpen store =>
      exact .reclaimed i copy due record call loop found isOpen store tasks.self
    | resumed draw effect stage o call at' moves store =>
      exact .resumed i draw effect stage o call at' moves store tasks.self
    | received _ _ store | spawned _ _ _ store | finished _ _ _ _ _ _ _ store
    | unheard _ _ _ store | aborted _ _ _ _ store => exact .nothing store

/-- A step is on behalf of one effect. -/
theorem Steps.touches (hinv : RunnerInv runner s) : ∃ id, Touches s.store id s'.store := by
  cases hs with
  | quiet _ store =>
    rw [store]
    exact ⟨⟨""⟩, Touches.refl s.store _⟩
  | accepted id record new _ _ _ _ store =>
    rw [store]
    exact ⟨id, Touches.insert record new⟩
  | written _ task turns => exact ⟨task.effect.id, turns.touches hinv⟩

theorem Steps.persists {i : Nat} {task : Task} (hat : s.tasks[i]? = some task) :
    ∃ stage, s'.tasks[i]? = some ⟨task.effect, stage⟩ := by
  cases hs with
  | quiet _ _ tasks | accepted _ _ _ _ _ _ _ _ tasks =>
    rw [tasks]
    exact ⟨task.stage, hat⟩
  | written j new turns _ tasks =>
    by_cases hij : i = j
    · subst hij
      refine ⟨new.stage, ?_⟩
      rw [← turns.effect_eq hat]
      exact tasks.self
    · exact ⟨task.stage, (tasks.others i hij).trans hat⟩

/-- **Every task was there, or it is at its turn.** -/
theorem Steps.origin (hinv : RunnerInv runner s) {i : Nat} {task : Task}
    (hat : s'.tasks[i]? = some task) :
    (s.tasks[i]? = some task ∧ (task.stage.busy = true → Leaves s s' task)) ∨
      Turns runner s input s' i task seen := by
  cases hs with
  | quiet _ store tasks =>
    rw [tasks] at hat
    exact .inl ⟨hat, fun _ => .inl store⟩
  | accepted id record new _ _ _ _ store tasks =>
    rw [tasks] at hat
    refine .inl ⟨hat, fun _ => .inr ⟨id, ?_, ?_⟩⟩
    · rw [store]
      exact Touches.insert record new
    · -- a task's effect is in the store
      rintro rfl
      obtain ⟨r, hr, -⟩ := hinv.known task.effect (mem_effects_of_task hat)
      rw [new] at hr
      cases hr
  | written j new turns _ tasks =>
    obtain ⟨rfl, rfl⟩ | ⟨hne, hold⟩ := tasks.cases hat
    · exact .inr turns
    · refine .inl ⟨hold, fun hb => ?_⟩
      obtain ⟨hstore, -⟩ | hothers := turns.apart hinv
      · exact .inl hstore
      · exact .inr ⟨new.effect.id, turns.touches hinv, hothers i task hne hold hb⟩

/-- **Rule for what every task relies on**: `P` is what they rely on before the
step, `Q` after it. -/
theorem Steps.each_task {P Q : Task → Prop} (hinv : RunnerInv runner s)
    (idle : ∀ task, task.stage.busy = false → Q task)
    (kept : ∀ task, task.stage.busy = true → Leaves s s' task → P task → Q task)
    (reclaimed : ∀ copy due record, input = .reclaim → s.loop = .reclaiming (copy :: due) →
      s.store.states.lookup copy.id = some record →
      (record.state = .pending ∨ record.state = .retryableFailed) → s'.store = s.store.put copy.id
      { record with state := .inFlight } → Q ⟨copy.effect, .admitting true⟩)
    (spawned : ∀ effect, s'.store = s.store → P ⟨effect, .admitting true⟩ →
      Q ⟨effect, .reserving 0⟩)
    (resumed : ∀ i draw effect stage o, input = .resume i draw →
      s.tasks[i]? = some ⟨effect, stage⟩ → Moves runner s.store s.clock i effect stage o →
      s'.store = o.1 → P ⟨effect, stage⟩ → Q ⟨effect, o.2.1⟩)
    (finished : ∀ i draw result effect stage, input = .finish i result draw →
      Finishes runner effect s.clock result stage → s'.store = s.store → P ⟨effect, .executing⟩ →
      Q ⟨effect, stage⟩)
    (aborted : ∀ effect stage, s'.store = s.store → P ⟨effect, stage⟩ → Q ⟨effect, stage.aborted⟩)
    (hall : ∀ (i : Nat) (task : Task), s.tasks[i]? = some task → P task) :
    ∀ (i : Nat) (task : Task), s'.tasks[i]? = some task → Q task := by
  intro i task hat
  obtain ⟨at', leaves⟩ | hturns := hs.origin hinv hat
  · cases hb : task.stage.busy with
    | false => exact idle task hb
    | true => exact kept task hb (leaves hb) (hall i task at')
  cases hturns with
  | received | unheard => exact idle _ rfl
  | reclaimed copy due record call loop found isOpen store =>
    exact reclaimed copy due record call loop found isOpen store
  | spawned effect claimed at' store =>
    cases claimed with
    | false => exact idle _ rfl
    | true => exact spawned effect store (hall i _ at')
  | resumed draw effect stage o call at' moves store =>
    exact resumed i draw effect stage o call at' moves store (hall i _ at')
  | finished draw result effect stage call at' finishes store =>
    exact finished i draw result effect stage call finishes store (hall i _ at')
  | aborted effect stage _ at' store => exact aborted effect stage store (hall i _ at')

/-- The task that is new or at another stage after a step is the only one with
its effect, if it is busy. -/
theorem Steps.alone (hinv : RunnerInv runner s) :
    ∀ (i j : Nat) (task task' : Task), s'.tasks[i]? = some task → s'.tasks[j]? = some task' →
      task.stage.busy = true → task'.stage.busy = true → task.effect.id = task'.effect.id →
      i = j := by
  cases hs with
  | quiet _ _ tasks | accepted _ _ _ _ _ _ _ _ tasks =>
    rw [tasks]
    exact hinv.alone
  | written _ _ turns _ tasks =>
    refine hinv.alone_written tasks fun hbusy => ?_
    obtain ⟨-, hidle⟩ | hothers := turns.apart hinv
    · rw [hidle] at hbusy
      cases hbusy
    · exact hothers

/-- A copy that is around after a step was before it, or is a new one. -/
theorem Steps.copied {effect : AcceptedEffect} (he : effect ∈ s'.effects) :
    effect ∈ s.effects ∨ Copied s'.store s.clock effect := by
  cases hs with
  | quiet _ store _ effects =>
    rw [store]
    exact effects effect he
  | accepted _ _ _ _ _ _ _ _ _ effects => exact effects effect he
  | written _ _ _ _ _ effects => exact .inl (effects effect he)

theorem Steps.known (hinv : RunnerInv runner s) : ∀ effect ∈ s'.effects, Known s'.store effect := by
  intro effect he
  obtain hold | hnew := hs.copied he
  · obtain ⟨id, htouch⟩ := hs.touches hinv
    exact htouch.known (hinv.known effect hold)
  · exact hnew.known

theorem Steps.runnerInv (hinv : RunnerInv runner s) : RunnerInv runner s' := by
  refine ⟨hs.known hinv, ?_, hs.alone hinv⟩
  refine hs.each_task (P := TaskInv runner s.store) hinv ?_ ?_ ?_ ?_ ?_ ?_ ?_ hinv.tasks
  · intro task hidle
    exact .of_not_busy hidle
  · intro task hbusy hleaves hi
    obtain hstore | ⟨id, htouch, hne⟩ := hleaves
    · rw [hstore]
      exact hi
    · exact htouch.taskInv hne hi
  · intro copy due record _ _ hat hopen hstore
    have hstate : InState s'.store copy.id .inFlight := by
      rw [hstore]
      exact ⟨_, InMemoryEffectStore.lookup_put_self s.store copy.id _, rfl⟩
    exact .of_inFlight hstate rfl trivial
  · intro effect hstore hi
    rw [hstore]
    exact .of_inFlight (hi.owns rfl) rfl trivial
  · intro i draw effect stage o _ _ hm hstore hi
    rw [hstore]
    exact hm.taskInv hi
  · intro i draw result effect stage _ hf hstore hi
    rw [hstore]
    exact hf.taskInv hi
  · intro effect stage hstore hi
    rw [hstore]
    exact hi.abort

end

theorem runnerInv_run {runner : DeliveryRunner} {h : History} {s : State}
    (he : (delivery runner).Run h s) : RunnerInv runner s := by
  refine he.invariant (P := fun _ s => RunnerInv runner s) ?_ ?_
  · refine ⟨?_, ?_, ?_⟩
    · intro effect heffect
      cases heffect
    · intro i task hat
      cases hat
    · intro i j task task' hat
      cases hat
  · intro h s input _ hinv
    exact (steps_step hinv input).runnerInv hinv

end EgoRs.Effects
