import EgoRs.Effects.EffectStore
import EgoRs.Framework.Machine

/-! # The Delivery Runner

`DeliveryRunner` of `runtime/src/effects/runner.rs` in its `Deferred`
profile, with the policies of `policy.rs` and the acceptance of
`acceptor.rs`, over `InMemoryEffectStore`.

One loop takes effects off the queue and, at every reclaim tick, copies of
stored effects that are due. Each gets a task of its own once a permit is
free. A task is at one store call, or at its executor call; what it does
with an answer is a function of the answer, whatever the store.

The queue is not bounded here: a full queue only makes `send` wait. Logs and
metrics are left out.
-/

namespace EgoRs.Effects

open Framework

/-! ## Policies -/

/-- `RetryPolicy`; durations are in nanoseconds. -/
structure RetryPolicy where
  maxAttempts : Nat
  baseBackoff : Nat
  maxBackoff : Nat

/-- `Duration::MAX`. -/
def durationMax : Nat := (2 ^ 64 - 1) * 10 ^ 9 + 999999999

/-- `full_jitter`: a duration in `[0, capped]`. `draw` is what it draws. -/
def fullJitter (capped draw : Nat) : Nat := if capped = 0 then 0 else min draw capped

namespace RetryPolicy

def allowsRetry (policy : RetryPolicy) (attempt : Nat) : Bool :=
  decide (attempt < policy.maxAttempts)

def backoff (policy : RetryPolicy) (attempt draw : Nat) : Nat :=
  if policy.baseBackoff = 0 then 0
  else
    let shift := min (attempt - 1) 30
    let exponential := min (policy.baseBackoff * 2 ^ shift) durationMax
    fullJitter (min exponential policy.maxBackoff) draw

end RetryPolicy

structure RetryPolicies where
  defaultRetry : RetryPolicy
  retryOverrides : AList (fun _ : String => RetryPolicy)

def RetryPolicies.policyFor (policies : RetryPolicies) (effectType : String) : RetryPolicy :=
  (policies.retryOverrides.lookup effectType).getD policies.defaultRetry

/-- The longest `chrono::Duration`: `i64::MAX` milliseconds. -/
def chronoDurationMax : Nat := (2 ^ 63 - 1) * 10 ^ 6

/-- `saturated_backoff_fallback`: a hundred years of 365 days. -/
def saturatedBackoffFallback : Nat := 365 * 100 * 86400 * 10 ^ 9

def timestampAfter (now : Timestamp) (duration : Nat) : Timestamp :=
  if duration ≤ chronoDurationMax then now + duration else now + saturatedBackoffFallback

/-! ## Executor calls -/

inductive AttemptOutcome where
  | success
  | retryableFailure (message : String)
  | terminalFailure (reason : String)
  deriving DecidableEq

/-- What joining the executor's own task gives. -/
inductive JoinResult where
  | ok (outcome : AttemptOutcome)
  | panicked
  | cancelled
  deriving DecidableEq

inductive ExecutionOutcome where
  | outcome (outcome : AttemptOutcome)
  | cancelledForShutdown
  deriving DecidableEq

def classifyJoinResult : JoinResult → ExecutionOutcome
  | .ok outcome => .outcome outcome
  | .panicked => .outcome (.retryableFailure "executor panicked")
  | .cancelled => .cancelledForShutdown

structure EffectContext where
  effectId : EffectId
  tenant : TenantId
  attempt : Nat
  idempotencyKey : IdempotencyKey
  deriving DecidableEq

/-! ## Dispatch -/

/-- What a runner is built with: the effect types it has an executor for, its
policies, its permits, and the hash function of the fingerprint. -/
structure DeliveryRunner where
  registry : List String
  retry : RetryPolicies
  concurrency : Nat
  sha256 : List UInt8 → List UInt8

/-- `BOOKKEEPING_RETRY_ATTEMPTS`. -/
def bookkeepingRetryAttempts : Nat := 3

/-- `RECLAIM_BATCH_LIMIT`. -/
def reclaimBatchLimit : Nat := 32

/-- Why `mark_retryable` is called. -/
inductive Purpose where
  /-- `retry_or_give_up`. -/
  | failure
  /-- `finish_success`, when its bookkeeping keeps failing. -/
  | unconfirmed
  /-- `requeue_without_charging_attempt`. -/
  | requeue
  deriving DecidableEq

/-- Where a dispatch task is. -/
inductive Stage where
  /-- The loop has the effect and waits for a permit; `claimed` says that it is
      marked in flight already. -/
  | admitting (claimed : Bool)
  /-- `mark_in_flight_with_retry`. -/
  | marking (tries : Nat)
  /-- `reserve_with_retry`. -/
  | reserving (tries : Nat)
  /-- The scope is reserved; the executor is looked up. -/
  | launching
  /-- The executor call runs. -/
  | executing
  /-- `commit_success` of `finish_success`. -/
  | committing (round : Nat)
  /-- `mark_succeeded` of `finish_success`. -/
  | recording (round : Nat)
  /-- `finish_already_satisfied`. -/
  | satisfying
  /-- `mark_retryable_with_retry`. -/
  | retrying (purpose : Purpose) (attempt : Nat) (nextAt : Timestamp) (tries : Nat)
  /-- `mark_terminal` of `abandon` or, with `release`, of `abandon_and_release`. -/
  | abandoning (reason : TerminalReason) (release : Bool)
  /-- `release` of `abandon_and_release`. -/
  | releasing
  /-- The task was aborted while its executor call runs. -/
  | detached
  | done
  deriving DecidableEq

structure Task where
  effect : AcceptedEffect
  stage : Stage
  deriving DecidableEq

def Task.at' (task : Task) (stage : Stage) : Task := { task with stage := stage }

namespace AcceptedEffect

/-- The scope `dispatch_in_flight` reserves. -/
def scope (effect : AcceptedEffect) : DedupScope :=
  ⟨effect.tenant, effect.description.effectType, effect.description.idempotencyKey⟩

def fingerprint (sha256 : List UInt8 → List UInt8) (effect : AcceptedEffect) :
    EffectFingerprint :=
  .compute sha256 effect.description.payload effect.description.destination

def context (effect : AcceptedEffect) : EffectContext where
  effectId := effect.id
  tenant := effect.tenant
  attempt := effect.attempt + 1
  idempotencyKey := effect.description.idempotencyKey

end AcceptedEffect

/-- The effect `reclaim_due` dispatches for a claimed copy. -/
def StoredEffect.effect (copy : StoredEffect) : AcceptedEffect :=
  ⟨copy.id, copy.tenant, copy.attempt, copy.description⟩

/-! ### What a task does with an answer -/

/-- After `mark_in_flight`. -/
def marked (tries : Nat) : Except EffectStoreError Unit → Stage
  | .ok () => .reserving 0
  | .error (.temporarilyUnavailable _) =>
    if tries + 1 < bookkeepingRetryAttempts then .marking (tries + 1) else .done
  | .error _ => .done

/-- After `mark_retryable`. -/
def retried (purpose : Purpose) (attempt : Nat) (nextAt : Timestamp) (tries : Nat) :
    Except EffectStoreError Unit → Stage
  | .ok () => .done
  | .error e =>
    let failed : Stage :=
      match purpose with
      | .failure => .abandoning (.other "retry bookkeeping exhausted: store unavailable") true
      | .unconfirmed => .done
      | .requeue => .done
    match e with
    | .temporarilyUnavailable _ =>
      if tries + 1 < bookkeepingRetryAttempts then .retrying purpose attempt nextAt (tries + 1)
      else failed
    | _ => failed

/-- After `mark_terminal`. -/
def abandoned (release : Bool) : Except EffectStoreError Unit → Stage
  | .ok () => if release then .releasing else .done
  | .error _ => .done

namespace DeliveryRunner

variable (runner : DeliveryRunner) (effect : AcceptedEffect)

def policyFor : RetryPolicy :=
  runner.retry.policyFor effect.description.effectType

/-- After `reserve`. -/
def reserved (now : Timestamp) (tries : Nat) : Except EffectStoreError DedupOutcome → Stage
  | .ok .fresh => .launching
  | .ok .ownedInProgress => .launching
  | .ok .otherSucceeded => .satisfying
  | .ok .ownedSucceeded => .satisfying
  | .ok .otherInProgress => .retrying .requeue effect.attempt now 0
  | .ok .conflict => .abandoning (.invalidEffect "dedup scope conflict") false
  | .error (.temporarilyUnavailable _) =>
    if (runner.policyFor effect).allowsRetry tries then .reserving (tries + 1)
    else .abandoning (.other "dedup store unavailable") false
  | .error _ => .abandoning (.other "dedup store unavailable") false

/-- `retry_or_give_up`, up to its first store call. -/
def retryOrGiveUp (now : Timestamp) (draw : Nat) : Stage :=
  let policy := runner.policyFor effect
  if policy.allowsRetry effect.attempt then
    let dispatchedAttempt := effect.attempt + 1
    .retrying .failure dispatchedAttempt
      (timestampAfter now (policy.backoff dispatchedAttempt draw)) 0
  else .abandoning (.other "attempt cap exceeded") true

def finished (now : Timestamp) (draw : Nat) : ExecutionOutcome → Stage
  | .outcome .success => .committing 0
  | .outcome (.retryableFailure _) => runner.retryOrGiveUp effect now draw
  | .outcome (.terminalFailure reason) => .abandoning (.other reason) true
  | .cancelledForShutdown => .retrying .requeue effect.attempt now 0

/-- A round of `finish_success` failed. -/
def unconfirmed (now : Timestamp) (draw : Nat) (round : Nat) : Stage :=
  if round + 1 < bookkeepingRetryAttempts then .committing (round + 1)
  else
    let nextAttempt := effect.attempt + 1
    .retrying .unconfirmed nextAttempt
      (timestampAfter now ((runner.policyFor effect).backoff (max nextAttempt 1) draw)) 0

/-- After `commit_success`. -/
def committed (now : Timestamp) (draw : Nat) (round : Nat) : Except EffectStoreError Unit → Stage
  | .ok () => .recording round
  | .error _ => runner.unconfirmed effect now draw round

/-- After `mark_succeeded`. -/
def recorded (now : Timestamp) (draw : Nat) (round : Nat) : Except EffectStoreError Unit → Stage
  | .ok () => .done
  | .error _ => runner.unconfirmed effect now draw round

end DeliveryRunner

/-! ### Steps of a task -/

/-- What can be seen of a run from outside: executor calls. -/
inductive Observation where
  | started (task : Nat) (effect : AcceptedEffect) (context : EffectContext)
  | returned (task : Nat) (effect : AcceptedEffect) (result : JoinResult)
  deriving DecidableEq

/-- The next store call of task `i`, or the start of its executor call. `now` is
the clock, `draw` what a backoff draws. -/
def DeliveryRunner.resume (runner : DeliveryRunner) (store : InMemoryEffectStore)
    (now : Timestamp) (draw i : Nat) (task : Task) :
    InMemoryEffectStore × Stage × Option Observation :=
  let effect := task.effect
  match task.stage with
  | .marking tries =>
    let (store', result) := store.markInFlight effect.id
    (store', marked tries result, none)
  | .reserving tries =>
    let (store', result) :=
      store.reserve effect.scope effect.id (effect.fingerprint runner.sha256)
    (store', runner.reserved effect now tries result, none)
  | .launching =>
    if effect.description.effectType ∈ runner.registry then
      (store, .executing, some (.started i effect effect.context))
    else (store, .abandoning .executorMissing true, none)
  | .committing round =>
    let (store', result) := store.commitSuccess effect.scope
    (store', runner.committed effect now draw round result, none)
  | .recording round =>
    let (store', result) := store.markSucceeded effect.id
    (store', runner.recorded effect now draw round result, none)
  | .satisfying =>
    let (store', _) := store.markSucceeded effect.id
    (store', .done, none)
  | .retrying purpose attempt nextAt tries =>
    let (store', result) := store.markRetryable effect.id attempt nextAt
    (store', retried purpose attempt nextAt tries result, none)
  | .abandoning reason release =>
    let (store', result) := store.markTerminal effect.id reason
    (store', abandoned release result, none)
  | .releasing =>
    let (store', _) := store.release effect.scope
    (store', .done, none)
  -- the loop, the executor or nobody goes on
  | .admitting _ => (store, task.stage, none)
  | .executing => (store, task.stage, none)
  | .detached => (store, task.stage, none)
  | .done => (store, task.stage, none)

/-! ## The runner as a machine -/

/-- Where the loop of `run_inner` is. -/
inductive Loop where
  | idle
  /-- `reclaim_due` has these copies left. -/
  | reclaiming (due : List StoredEffect)
  /-- `acquire_permit_and_spawn` of task `i`, with these copies left. -/
  | admitting (i : Nat) (due : List StoredEffect)
  | stopped
  deriving DecidableEq

/-- The loop goes on with a batch. -/
def Loop.next : List StoredEffect → Loop
  | [] => .idle
  | due => .reclaiming due

structure State where
  clock : Timestamp
  store : InMemoryEffectStore
  /-- Accepted into the store and not yet sent to the queue. -/
  sending : List AcceptedEffect
  queue : List AcceptedEffect
  loop : Loop
  tasks : List Task

inductive Input where
  | clock (now : Timestamp)
  /-- `accept_into_store` of an effect. -/
  | accept (id : EffectId) (tenant : TenantId) (description : ExternalEffectDescription)
  /-- `send_to_queue` goes through, or the deadline comes first. -/
  | send (k : Nat)
  | unsent (k : Nat)
  /-- The reclaim tick: `claim_due`. -/
  | claim (order : IterOrder)
  /-- `mark_in_flight` of the next claimed copy. -/
  | reclaim
  /-- The loop receives from the queue. -/
  | recv
  /-- The loop gets the permit it waits for. -/
  | permit
  /-- The loop sees the shutdown. -/
  | stop
  | resume (i draw : Nat)
  /-- The executor call of task `i` ends. -/
  | finish (i : Nat) (result : JoinResult) (draw : Nat)
  /-- The shutdown aborts dispatch task `i`. -/
  | abort (i : Nat)

/-- A permit is held while the task runs. -/
def Stage.permitted : Stage → Bool
  | .admitting _ => false
  | .detached => false
  | .done => false
  | _ => true

def Stage.spawned (claimed : Bool) : Stage := if claimed then .reserving 0 else .marking 0

def Stage.aborted : Stage → Stage
  | .admitting claimed => .admitting claimed
  | .executing => .detached
  | .detached => .detached
  | _ => .done

namespace State

/-- Task `i` is at `stage` now. -/
def stage (s : State) (i : Nat) (task : Task) (stage : Stage) : State :=
  { s with tasks := s.tasks.set i (task.at' stage) }

/-- The loop has an effect and waits for a permit. -/
def awaitPermit (s : State) (effect : AcceptedEffect) (claimed : Bool) (due : List StoredEffect) :
    State :=
  { s with
    tasks := s.tasks ++ [⟨effect, .admitting claimed⟩]
    loop := .admitting s.tasks.length due }

def step (runner : DeliveryRunner) (s : State) : Input → State × Option Observation
  | .clock now => ({ s with clock := now }, none)
  | .accept id tenant description =>
    let effect : AcceptedEffect := ⟨id, tenant, 0, description⟩
    match s.store.accept effect with
    | (store, .ok ()) => ({ s with store := store, sending := s.sending ++ [effect] }, none)
    | (store, .error _) => ({ s with store := store }, none)
  | .send k =>
    match s.sending[k]? with
    | some effect =>
      ({ s with sending := s.sending.eraseIdx k, queue := s.queue ++ [effect] }, none)
    | none => (s, none)
  | .unsent k => ({ s with sending := s.sending.eraseIdx k }, none)
  | .claim order =>
    match s.loop with
    | .idle => ({ s with loop := .next (s.store.claimDue s.clock reclaimBatchLimit order) }, none)
    | _ => (s, none)
  | .reclaim =>
    match s.loop with
    | .reclaiming (copy :: due) =>
      match s.store.markInFlight copy.id with
      | (store, .ok ()) => ({ s with store := store }.awaitPermit copy.effect true due, none)
      | (store, .error _) => ({ s with store := store, loop := .next due }, none)
    | _ => (s, none)
  | .recv =>
    match s.loop, s.queue with
    | .idle, effect :: queue => ({ s with queue := queue }.awaitPermit effect false [], none)
    | _, _ => (s, none)
  | .permit =>
    match s.loop with
    | .admitting i due =>
      if s.tasks.countP (fun task => task.stage.permitted) < max runner.concurrency 1 then
        match s.tasks[i]? with
        | some ⟨effect, .admitting claimed⟩ =>
          ({ s with loop := .next due }.stage i ⟨effect, .admitting claimed⟩ (.spawned claimed),
            none)
        | _ => (s, none)
      else (s, none)
    | _ => (s, none)
  | .stop => ({ s with loop := .stopped }, none)
  | .resume i draw =>
    match s.tasks[i]? with
    | some task =>
      let (store, stage, seen) := runner.resume s.store s.clock draw i task
      ({ s with store := store }.stage i task stage, seen)
    | none => (s, none)
  | .finish i result draw =>
    match s.tasks[i]? with
    | some task =>
      match task.stage with
      | .executing =>
        (s.stage i task (runner.finished task.effect s.clock draw (classifyJoinResult result)),
          some (.returned i task.effect result))
      | .detached => (s.stage i task .done, some (.returned i task.effect result))
      | _ => (s, none)
    | none => (s, none)
  | .abort i =>
    match s.tasks[i]? with
    | some task => (s.stage i task task.stage.aborted, none)
    | none => (s, none)

end State

/-- A runner at time 0 over an empty store. -/
def delivery (runner : DeliveryRunner) : Machine State Input (Option Observation) where
  init := ⟨0, .new, [], [], .idle, []⟩
  step := State.step runner

abbrev Event : Type := Transition State Input (Option Observation)

abbrev History : Type := List Event

end EgoRs.Effects
