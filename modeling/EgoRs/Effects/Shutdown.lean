import EgoRs.Effects.RunnerRun

/-! # Shutting the Effect Runtime Down

`RuntimeEffectAcceptor::accept`, `LifecycleGate` and
`EffectRuntimeHandle::shutdown_and_wait` of `runtime/src/effects/acceptor.rs`
in `Deferred` mode, around the delivery runner.

Five parts run side by side: the accept calls, the loop of the runner, its
dispatch tasks, the executor calls, and `shutdown_and_wait`, which closes the
gate, waits for the accept calls, signals the loop, waits for it and then
for the tasks. Each wait is bounded by a deadline; here a deadline may come
at any time once it is set.
-/

namespace EgoRs.Effects

open Framework

/-! ## The gate -/

inductive LifecycleState where
  | running
  | draining
  | closed
  deriving DecidableEq

structure LifecycleGate where
  state : LifecycleState
  inFlight : Nat
  deriving DecidableEq

namespace LifecycleGate

def enter (gate : LifecycleGate) : Option LifecycleGate :=
  match gate.state with
  | .running => some { gate with inFlight := gate.inFlight + 1 }
  | .draining => none
  | .closed => none

/-- The drop of an `InFlightGuard`. -/
def leave (gate : LifecycleGate) : LifecycleGate := { gate with inFlight := gate.inFlight - 1 }

def beginDraining (gate : LifecycleGate) : LifecycleGate := { gate with state := .draining }

def close (gate : LifecycleGate) : LifecycleGate := { gate with state := .closed }

end LifecycleGate

/-! ## Accept calls -/

/-- `SHUTDOWN_REJECTED_MSG`. -/
def shutdownRejectedMsg : String :=
  "effect acceptor is shutting down; new acceptance calls are rejected"

/-- `DEADLINE_MSG`. -/
def deadlineMsg : String := "effect acceptance interrupted by shutdown deadline"

inductive CallStage where
  /-- `accept_into_store`. -/
  | accepting (description : ExternalEffectDescription)
  /-- `send_to_queue`. -/
  | sending (effect : AcceptedEffect)
  /-- The call has returned, or its future was dropped. -/
  | ended (result : Option (Except EffectAcceptanceError Unit))
  deriving DecidableEq

/-- An accept call at effect `index` of its batch, with the rest of the batch. -/
structure AcceptCall where
  tenant : TenantId
  index : Nat
  rest : List ExternalEffectDescription
  stage : CallStage
  deriving DecidableEq

/-- The call holds an `InFlightGuard`. -/
def AcceptCall.isOpen (call : AcceptCall) : Bool :=
  match call.stage with
  | .ended _ => false
  | _ => true

inductive CallInput where
  /-- The store's `accept`, with the new effect's id. -/
  | accept (id : EffectId)
  | send
  /-- The deadline comes first. -/
  | expire
  /-- The caller drops the call. -/
  | drop

/-! ## The runtime -/

inductive EffectRuntimeShutdownError where
  | timeout
  | runnerPanicked
  | runnerCancelled
  deriving DecidableEq

/-- Where `shutdown_and_wait` is. -/
inductive Phase where
  /-- It has not been called. -/
  | serving
  /-- `wait_until_drained`. -/
  | draining
  /-- The runner is signalled and its task awaited. -/
  | stopping
  /-- `drain_tasks_locked`, with what became of the runner's task. -/
  | joining (result : Except EffectRuntimeShutdownError Unit)
  /-- The same after its deadline: executor calls and tasks are aborted. -/
  | forcing (result : Except EffectRuntimeShutdownError Unit)
  | returned (result : Except EffectRuntimeShutdownError Unit)
  deriving DecidableEq

/-- `shutdown.send(true)` was called. -/
def Phase.signalled : Phase → Bool
  | .serving => false
  | .draining => false
  | _ => true

/-- What the parts of the runner do by themselves: calls are cancelled and tasks
aborted by the shutdown only. -/
def Phase.allows (phase : Phase) : Input → Bool
  | .accept _ _ _ => false
  | .send _ => false
  | .unsent _ => false
  | .stop => false
  | .finish _ .cancelled _ =>
    match phase with
    | .forcing _ => true
    | _ => false
  | .abort _ =>
    match phase with
    | .forcing _ => true
    | _ => false
  | _ => true

structure Runtime where
  inner : State
  gate : LifecycleGate
  calls : List AcceptCall
  phase : Phase

inductive RuntimeInput where
  | run (input : Input)
  | enter (tenant : TenantId) (effects : List ExternalEffectDescription)
  | call (k : Nat) (input : CallInput)
  | shutdownAndWait
  /-- `wait_until_drained` ends, by the deadline or not. -/
  | drained (elapsed : Bool)
  /-- The loop sees the signal. -/
  | stop
  /-- The wait for the runner's task ends. -/
  | joinRunner (elapsed : Bool)
  /-- The wait for the dispatch tasks ends. -/
  | joinTasks (elapsed : Bool)
  /-- So does the wait after the aborts. -/
  | joinForced

namespace Runtime

def dispatching (s : Runtime) : Bool := s.inner.tasks.any fun task => task.stage.permitted

def lingering (s : Runtime) : Bool :=
  s.inner.tasks.any fun task => decide (task.stage = .detached)

def endCall (s : Runtime) (k : Nat) (call : AcceptCall)
    (result : Option (Except EffectAcceptanceError Unit)) : Runtime :=
  { s with
    calls := s.calls.set k { call with stage := .ended result }
    gate := s.gate.leave }

/-- `accept` starts. -/
def enter (s : Runtime) (tenant : TenantId) (effects : List ExternalEffectDescription) : Runtime :=
  match s.gate.enter with
  | none =>
    let key : IdempotencyKey :=
      match effects with
      | description :: _ => description.idempotencyKey
      | [] => ⟨"shutdown-rejected-empty-batch", by decide⟩
    { s with calls := s.calls ++
        [⟨tenant, 0, [], .ended (some (.error (.permanent shutdownRejectedMsg 0 key)))⟩] }
  | some gate =>
    match effects with
    | [] => { s with calls := s.calls ++ [⟨tenant, 0, [], .ended (some (.ok ()))⟩] }
    | description :: rest =>
      { s with gate := gate, calls := s.calls ++ [⟨tenant, 0, rest, .accepting description⟩] }

def unsent (runner : DeliveryRunner) (s : Runtime) (effect : AcceptedEffect) : Runtime :=
  { s with inner := (s.inner.step runner (.unsent (s.inner.sending.idxOf effect))).1 }

/-- A step of accept call `k`. -/
def callStep (runner : DeliveryRunner) (s : Runtime) (k : Nat) (call : AcceptCall) :
    CallInput → Runtime
  | .accept id =>
    match call.stage with
    | .accepting description =>
      let effect : AcceptedEffect := ⟨id, call.tenant, 0, description⟩
      let s' := { s with inner := (s.inner.step runner (.accept id call.tenant description)).1 }
      match (s.inner.store.accept effect).2 with
      | .ok () => { s' with calls := s.calls.set k { call with stage := .sending effect } }
      | .error e =>
        s'.endCall k call
          (some (.error (.permanent e.text call.index description.idempotencyKey)))
    | _ => s
  | .send =>
    match call.stage with
    | .sending effect =>
      match s.inner.loop with
      -- the receiver is gone
      | .stopped =>
        (s.unsent runner effect).endCall k call
          (some (.error (.permanent "effect queue closed" call.index
            effect.description.idempotencyKey)))
      | _ =>
        let s' :=
          { s with inner := (s.inner.step runner (.send (s.inner.sending.idxOf effect))).1 }
        match call.rest with
        | [] => s'.endCall k call (some (.ok ()))
        | description :: rest =>
          { s' with calls :=
              s.calls.set k ⟨call.tenant, call.index + 1, rest, .accepting description⟩ }
    | _ => s
  | .expire =>
    if s.phase = .serving then s
    else
      match call.stage with
      | .accepting description =>
        s.endCall k call
          (some (.error (.retriesExhausted deadlineMsg call.index description.idempotencyKey)))
      | .sending effect =>
        (s.unsent runner effect).endCall k call
          (some (.error (.retriesExhausted deadlineMsg call.index
            effect.description.idempotencyKey)))
      | .ended _ => s
  | .drop =>
    match call.stage with
    | .accepting _ => s.endCall k call none
    | .sending effect => (s.unsent runner effect).endCall k call none
    | .ended _ => s

def stopLoop (runner : DeliveryRunner) (s : Runtime) : Runtime :=
  { s with inner := (s.inner.step runner .stop).1 }

def step (runner : DeliveryRunner) (s : Runtime) : RuntimeInput → Runtime
  | .run input =>
    if s.phase.allows input then { s with inner := (s.inner.step runner input).1 } else s
  | .enter tenant effects => s.enter tenant effects
  | .call k input =>
    match s.calls[k]? with
    | some call => s.callStep runner k call input
    | none => s
  | .shutdownAndWait =>
    match s.phase with
    | .serving => { s with gate := s.gate.beginDraining, phase := .draining }
    | _ => s
  | .drained elapsed =>
    match s.phase with
    | .draining => if elapsed || s.gate.inFlight == 0 then { s with phase := .stopping } else s
    | _ => s
  | .stop =>
    if s.phase.signalled then
      match s.inner.loop with
      | .idle => s.stopLoop runner
      | .admitting _ _ => s.stopLoop runner
      -- `reclaim_due` looks at the signal only where it waits for a permit
      | .reclaiming _ => s
      | .stopped => s
    else s
  | .joinRunner elapsed =>
    match s.phase with
    | .stopping =>
      if elapsed then { s.stopLoop runner with phase := .joining (.error .timeout) }
      else if s.inner.loop = .stopped then { s with phase := .joining (.ok ()) }
      else s
    | _ => s
  | .joinTasks elapsed =>
    match s.phase with
    | .joining result =>
      if elapsed then { s with phase := .forcing result }
      else if s.dispatching then s
      else if s.lingering then { s with phase := .forcing result }
      else { s with gate := s.gate.close, phase := .returned result }
    | _ => s
  | .joinForced =>
    match s.phase with
    | .forcing result =>
      if s.dispatching then s
      else
        let result : Except EffectRuntimeShutdownError Unit :=
          match result with
          | .ok () => .error .timeout
          | .error e => .error e
        { s with gate := s.gate.close, phase := .returned result }
    | _ => s

end Runtime

/-- The runtime after `start`. -/
def effectRuntime (runner : DeliveryRunner) : Machine Runtime RuntimeInput Unit where
  init := ⟨(delivery runner).init, ⟨.running, 0⟩, [], .serving⟩
  step := fun s input => (s.step runner input, ())

abbrev RuntimeEvent : Type := Transition Runtime RuntimeInput Unit

abbrev RuntimeHistory : Type := List RuntimeEvent

/-! ## Steps of the runtime -/

/-- The part of the runner an accept call uses. -/
def Input.byCall : Input → Bool
  | .accept _ _ _ => true
  | .send _ => true
  | .unsent _ => true
  | _ => false

section
variable (runner : DeliveryRunner) (s : Runtime)

inductive RuntimeSteps : RuntimeInput → Runtime → Prop where
  | idle {input : RuntimeInput} : RuntimeSteps input s
  | ran (input : Input) (allowed : s.phase.allows input = true) :
      RuntimeSteps (.run input) { s with inner := (s.inner.step runner input).1 }
  | rejected (tenant : TenantId) (effects : List ExternalEffectDescription) (key : IdempotencyKey)
      (closed : s.gate.state ≠ .running) :
      RuntimeSteps (.enter tenant effects) { s with calls := s.calls ++
        [⟨tenant, 0, [], .ended (some (.error (.permanent shutdownRejectedMsg 0 key)))⟩] }
  | empty (tenant : TenantId) (running : s.gate.state = .running) :
      RuntimeSteps (.enter tenant []) { s with
        calls := s.calls ++ [⟨tenant, 0, [], .ended (some (.ok ()))⟩] }
  | admitted (tenant : TenantId) (description : ExternalEffectDescription)
      (rest : List ExternalEffectDescription) (running : s.gate.state = .running) :
      RuntimeSteps (.enter tenant (description :: rest)) { s with
        gate := ⟨.running, s.gate.inFlight + 1⟩
        calls := s.calls ++ [⟨tenant, 0, rest, .accepting description⟩] }
  | advanced (k : Nat) (input : CallInput) (call call' : AcceptCall) (inner : Input)
      (at' : s.calls[k]? = some call) (isOpen : call.isOpen = true) (isOpen' : call'.isOpen = true)
      (byCall : inner.byCall = true) : RuntimeSteps (.call k input) { s with
        inner := (s.inner.step runner inner).1
        calls := s.calls.set k call' }
  | ended (k : Nat) (input : CallInput) (call : AcceptCall)
      (result : Option (Except EffectAcceptanceError Unit)) (inner : State)
      (at' : s.calls[k]? = some call) (isOpen : call.isOpen = true)
      (byCall : inner = s.inner ∨
        ∃ input : Input, input.byCall = true ∧ inner = (s.inner.step runner input).1) :
      RuntimeSteps (.call k input) ({ s with inner := inner }.endCall k call result)
  | began (serving : s.phase = .serving) : RuntimeSteps .shutdownAndWait { s with
        gate := s.gate.beginDraining
        phase := .draining }
  | drained (elapsed : Bool) (draining : s.phase = .draining)
      (empty : elapsed = true ∨ s.gate.inFlight = 0) :
      RuntimeSteps (.drained elapsed) { s with phase := .stopping }
  | stopped (signalled : s.phase.signalled = true)
      (loop : s.inner.loop = .idle ∨ ∃ i due, s.inner.loop = .admitting i due) :
      RuntimeSteps .stop (s.stopLoop runner)
  | runnerJoined (stopping : s.phase = .stopping) (stopped : s.inner.loop = .stopped) :
      RuntimeSteps (.joinRunner false) { s with phase := .joining (.ok ()) }
  | runnerAborted (stopping : s.phase = .stopping) : RuntimeSteps (.joinRunner true)
        { s.stopLoop runner with phase := .joining (.error .timeout) }
  | tasksJoined (result : Except EffectRuntimeShutdownError Unit)
      (joining : s.phase = .joining result) (dispatched : s.dispatching = false)
      (executed : s.lingering = false) : RuntimeSteps (.joinTasks false) { s with
        gate := s.gate.close
        phase := .returned result }
  | forced (elapsed : Bool) (result : Except EffectRuntimeShutdownError Unit)
      (joining : s.phase = .joining result) :
      RuntimeSteps (.joinTasks elapsed) { s with phase := .forcing result }
  | forcedJoined (result : Except EffectRuntimeShutdownError Unit)
      (error : EffectRuntimeShutdownError) (forcing : s.phase = .forcing result) :
      RuntimeSteps .joinForced { s with
        gate := s.gate.close
        phase := .returned (.error error) }

end

section
variable {runner : DeliveryRunner} {s : Runtime}

theorem runtimeSteps_enter (tenant : TenantId) (effects : List ExternalEffectDescription) :
    RuntimeSteps runner s (.enter tenant effects) (s.enter tenant effects) := by
  unfold Runtime.enter LifecycleGate.enter
  cases hstate : s.gate.state with
  | running =>
    cases effects with
    | nil => exact .empty tenant hstate
    | cons description rest => exact .admitted tenant description rest hstate
  | draining | closed => exact .rejected tenant effects _ (by simp [hstate])

theorem runtimeSteps_call (k : Nat) (input : CallInput) {call : AcceptCall}
    (hat : s.calls[k]? = some call) :
    RuntimeSteps runner s (.call k input) (s.callStep runner k call input) := by
  obtain ⟨tenant, index, rest, stage⟩ := call
  cases input with
  | accept id =>
    cases stage with
    | accepting description =>
      simp only [Runtime.callStep]
      split
      · exact .advanced k _ _ _ (.accept id tenant description) hat rfl rfl rfl
      · exact .ended k _ _ _ _ hat rfl (.inr ⟨.accept id tenant description, rfl, rfl⟩)
    | sending | ended => exact .idle
  | send =>
    cases stage with
    | sending =>
      simp only [Runtime.callStep]
      split
      · exact .ended k _ _ _ _ hat rfl (.inr ⟨.unsent _, rfl, rfl⟩)
      · cases rest with
        | nil => exact .ended k _ _ _ _ hat rfl (.inr ⟨.send _, rfl, rfl⟩)
        | cons => exact .advanced k _ _ _ (.send _) hat rfl rfl rfl
    | accepting | ended => exact .idle
  | expire =>
    simp only [Runtime.callStep]
    split
    · exact .idle
    · cases stage with
      | accepting => exact .ended k _ _ _ s.inner hat rfl (.inl rfl)
      | sending => exact .ended k _ _ _ _ hat rfl (.inr ⟨.unsent _, rfl, rfl⟩)
      | ended => exact .idle
  | drop =>
    cases stage with
    | accepting => exact .ended k _ _ _ s.inner hat rfl (.inl rfl)
    | sending => exact .ended k _ _ _ _ hat rfl (.inr ⟨.unsent _, rfl, rfl⟩)
    | ended => exact .idle

/-- **Every step is one of these.** -/
theorem runtimeSteps_step (runner : DeliveryRunner) (s : Runtime) (input : RuntimeInput) :
    RuntimeSteps runner s input (s.step runner input) := by
  cases input with
  | run input =>
    simp only [Runtime.step]
    split
    · rename_i hallowed
      exact .ran input hallowed
    · exact .idle
  | enter tenant effects => exact runtimeSteps_enter tenant effects
  | call k input =>
    simp only [Runtime.step]
    cases hat : s.calls[k]? with
    | none => exact .idle
    | some => exact runtimeSteps_call k input hat
  | shutdownAndWait =>
    simp only [Runtime.step]
    split
    · rename_i hserving
      exact .began hserving
    · exact .idle
  | drained elapsed =>
    simp only [Runtime.step]
    split
    · rename_i hdraining
      split
      · rename_i hempty
        refine .drained elapsed hdraining ?_
        simpa using hempty
      · exact .idle
    · exact .idle
  | stop =>
    simp only [Runtime.step]
    split
    · rename_i hsignalled
      cases hloop : s.inner.loop with
      | idle => exact .stopped hsignalled (.inl hloop)
      | admitting i due => exact .stopped hsignalled (.inr ⟨i, due, hloop⟩)
      | reclaiming | stopped => exact .idle
    · exact .idle
  | joinRunner elapsed =>
    simp only [Runtime.step]
    split
    · rename_i hstopping
      cases elapsed with
      | true => exact .runnerAborted hstopping
      | false =>
        simp only [Bool.false_eq_true, if_false]
        split
        · rename_i hstopped
          exact .runnerJoined hstopping hstopped
        · exact .idle
    · exact .idle
  | joinTasks elapsed =>
    simp only [Runtime.step]
    split
    · rename_i result hjoining
      cases elapsed with
      | true => exact .forced true result hjoining
      | false =>
        simp only [Bool.false_eq_true, if_false]
        split
        · exact .idle
        · rename_i hdispatched
          split
          · exact .forced false result hjoining
          · rename_i hexecuted
            exact .tasksJoined result hjoining (by simpa using hdispatched)
              (by simpa using hexecuted)
    · exact .idle
  | joinForced =>
    simp only [Runtime.step]
    split
    · rename_i result hforcing
      split
      · exact .idle
      · cases result with
        | ok value => exact .forcedJoined (.ok value) .timeout hforcing
        | error e => exact .forcedJoined (.error e) e hforcing
    · exact .idle

end

end EgoRs.Effects
