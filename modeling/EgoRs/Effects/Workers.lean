import EgoRs.Effects.Runner
import EgoRs.Effects.SqlEffectStore

/-! # Delivery Workers over One Database

Processes with a `DeliveryRunner` each, over the tables of one SQL effect
store. What a task does with an answer is what it does with one of the
in-memory store; a store call is one statement. `reserve` is two, an INSERT
and, if that finds a row, a SELECT: other workers can come between them.

A statement is sent with a reading of the clock. Nothing is assumed about
the readings here, nor about what a provider does with them.

A process can stop anywhere. Its queue, its loop and its tasks are gone then,
and the tables stay. A task that a shutdown aborts needs no step of its own:
it is one that never goes on.
-/

namespace EgoRs.Effects

open Framework

variable {W κ : Type}

/-! ## Tasks -/

/-- A dispatch task; `inspecting` says that the INSERT of `reserve` has found a row,
and that the SELECT is next. -/
structure SqlTask extends Task where
  inspecting : Bool
  deriving DecidableEq

/-- The task is at `stage`, with all of its store call to do. -/
def SqlTask.goto (task : SqlTask) (stage : Stage) : SqlTask := ⟨task.toTask.at' stage, false⟩

/-- The next statement of task `i`, or the start of its executor call. -/
def DeliveryRunner.resumeSql (runner : DeliveryRunner) (rules : ClaimRules κ) (now wall : Timestamp)
    (draw i : Nat) (tables : EffectTables κ) (task : SqlTask) :
    EffectTables κ × SqlTask × Option Observation :=
  let effect := task.effect
  match task.stage with
  | .marking tries =>
    let (tables', result) := tables.markInFlight rules effect.id
    (tables', task.goto (marked tries result), none)
  | .reserving tries =>
    if task.inspecting then
      let result :=
        tables.reserveSelect effect.scope effect.id (effect.fingerprint runner.sha256)
      (tables, task.goto (runner.reserved effect now tries result), none)
    else
      match tables.reserveInsert effect.scope effect.id (effect.fingerprint runner.sha256) with
      | (tables', true) =>
        (tables', task.goto (runner.reserved effect now tries (.ok .fresh)), none)
      | (tables', false) => (tables', { task with inspecting := true }, none)
  | .launching =>
    if effect.description.effectType ∈ runner.registry then
      (tables, task.goto .executing, some (.started i effect effect.context))
    else (tables, task.goto (.abandoning .executorMissing true), none)
  | .committing round =>
    (tables.commitSuccess wall effect.scope,
      task.goto (runner.committed effect now draw round (.ok ())), none)
  | .recording round =>
    let (tables', result) := tables.markSucceeded rules wall effect.id
    (tables', task.goto (runner.recorded effect now draw round result), none)
  | .satisfying =>
    let (tables', _) := tables.markSucceeded rules wall effect.id
    (tables', task.goto .done, none)
  | .retrying purpose attempt nextAt tries =>
    let (tables', result) := tables.markRetryable rules effect.id attempt nextAt
    (tables', task.goto (retried purpose attempt nextAt tries result), none)
  | .abandoning reason release =>
    let (tables', result) := tables.markTerminal rules wall effect.id reason
    (tables', task.goto (abandoned release result), none)
  | .releasing => (tables.release effect.scope, task.goto .done, none)
  -- the loop, the executor or nobody goes on
  | .admitting _ => (tables, task, none)
  | .executing => (tables, task, none)
  | .detached => (tables, task, none)
  | .done => (tables, task, none)

/-! ## Processes -/

structure Process where
  /-- Accepted into the store and not yet sent to the queue. -/
  sending : List AcceptedEffect
  queue : List AcceptedEffect
  loop : Loop
  tasks : List SqlTask

inductive Action where
  /-- `accept_into_store` of an effect. -/
  | accept (id : EffectId) (tenant : TenantId) (description : ExternalEffectDescription)
  /-- `send_to_queue` goes through, or the deadline comes first. -/
  | send (k : Nat)
  | unsent (k : Nat)
  /-- The reclaim tick: `claim_due`. -/
  | claim (scan : Scan)
  /-- `mark_in_flight` of the next claimed copy. -/
  | reclaim
  /-- The loop receives from the queue. -/
  | recv
  /-- The loop gets the permit it waits for. -/
  | permit
  | resume (i draw : Nat)
  /-- The executor call of task `i` ends. -/
  | finish (i : Nat) (result : JoinResult) (draw : Nat)
  /-- The process stops, and a new one is started. -/
  | crash

namespace Process

/-- `RuntimeEffectAcceptor::start`. -/
def start : Process := ⟨[], [], .idle, []⟩

/-- Task `i` is `task` now. -/
def put (p : Process) (i : Nat) (task : SqlTask) : Process := { p with tasks := p.tasks.set i task }

def awaitPermit (p : Process) (effect : AcceptedEffect) (claimed : Bool) (due : List StoredEffect) :
    Process :=
  { p with
    tasks := p.tasks ++ [⟨⟨effect, .admitting claimed⟩, false⟩]
    loop := .admitting p.tasks.length due }

def step (runner : DeliveryRunner) (rules : ClaimRules κ) (now wall : Timestamp)
    (tables : EffectTables κ) (p : Process) :
    Action → EffectTables κ × Process × Option Observation
  | .accept id tenant description =>
    let effect : AcceptedEffect := ⟨id, tenant, 0, description⟩
    match tables.accept rules effect with
    | (tables', .ok ()) => (tables', { p with sending := p.sending ++ [effect] }, none)
    | (tables', .error _) => (tables', p, none)
  | .send k =>
    match p.sending[k]? with
    | some effect =>
      (tables, { p with sending := p.sending.eraseIdx k, queue := p.queue ++ [effect] }, none)
    | none => (tables, p, none)
  | .unsent k => (tables, { p with sending := p.sending.eraseIdx k }, none)
  | .claim scan =>
    match p.loop with
    | .idle =>
      let (tables', due) := tables.claimDue rules now reclaimBatchLimit scan
      (tables', { p with loop := .next due }, none)
    | _ => (tables, p, none)
  | .reclaim =>
    match p.loop with
    | .reclaiming (copy :: due) =>
      match tables.markInFlight rules copy.id with
      | (tables', .ok ()) => (tables', p.awaitPermit copy.effect true due, none)
      | (tables', .error _) => (tables', { p with loop := .next due }, none)
    | _ => (tables, p, none)
  | .recv =>
    match p.loop, p.queue with
    | .idle, effect :: queue =>
      (tables, { p with queue := queue }.awaitPermit effect false [], none)
    | _, _ => (tables, p, none)
  | .permit =>
    match p.loop with
    | .admitting i due =>
      if p.tasks.countP (fun task => task.stage.permitted) < max runner.concurrency 1 then
        match p.tasks[i]? with
        | some ⟨⟨effect, .admitting claimed⟩, _⟩ =>
          (tables, { p with loop := .next due }.put i ⟨⟨effect, .spawned claimed⟩, false⟩, none)
        | _ => (tables, p, none)
      else (tables, p, none)
    | _ => (tables, p, none)
  | .resume i draw =>
    match p.tasks[i]? with
    | some task =>
      let (tables', task', seen) := runner.resumeSql rules now wall draw i tables task
      (tables', p.put i task', seen)
    | none => (tables, p, none)
  | .finish i result draw =>
    match p.tasks[i]? with
    | some task =>
      match task.stage with
      | .executing =>
        let stage := runner.finished task.effect now draw (classifyJoinResult result)
        (tables, p.put i (task.goto stage), some (.returned i task.effect result))
      | _ => (tables, p, none)
    | none => (tables, p, none)
  | .crash => (tables, start, none)

end Process

/-! ## The workers as one machine -/

/-- The tables, and the process of every worker. -/
structure Fleet (W κ : Type) where
  tables : EffectTables κ
  processes : W → Process

/-- What a worker does, at its reading of the clock; `wall` is the database's. -/
structure WorkerInput (W : Type) where
  worker : W
  now : Timestamp
  wall : Timestamp
  action : Action

/-- Task `i` of worker `w`. -/
def Fleet.taskAt (s : Fleet W κ) (p : W × Nat) : Option SqlTask := (s.processes p.1).tasks[p.2]?

/-- The state after a step of `w`. -/
def Fleet.after [DecidableEq W] (s : Fleet W κ) (w : W) (tables : EffectTables κ)
    (process : Process) : Fleet W κ :=
  ⟨tables, Function.update s.processes w process⟩

def Fleet.step [DecidableEq W] (runner : W → DeliveryRunner) (rules : W → Timestamp → ClaimRules κ)
    (s : Fleet W κ) (input : WorkerInput W) : Fleet W κ × Option Observation :=
  let w := input.worker
  let (tables, process, seen) := (s.processes w).step (runner w) (rules w input.now) input.now
    input.wall s.tables input.action
  (s.after w tables process, seen)

/-- Workers `W` that start over empty tables. -/
def fleet [DecidableEq W] (runner : W → DeliveryRunner) (rules : W → Timestamp → ClaimRules κ) :
    Machine (Fleet W κ) (WorkerInput W) (Option Observation) where
  init := ⟨.new, fun _ => .start⟩
  step := Fleet.step runner rules

abbrev FleetEvent (W κ : Type) : Type := Transition (Fleet W κ) (WorkerInput W) (Option Observation)

abbrev FleetHistory (W κ : Type) : Type := List (FleetEvent W κ)

end EgoRs.Effects
