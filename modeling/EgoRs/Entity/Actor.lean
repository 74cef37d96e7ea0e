import EgoRs.Effects.Effect
import EgoRs.Entity.Recovery
import EgoRs.Persistence.Receipts

/-! # The Entity Actor

`EntityActor` of `persistent-entity/src/actor.rs` and the writing half of
the persistence facade: recovery, one command after another, passivation,
and the next actor for the same entity.

An actor handles its commands one at a time and it alone writes its
entity's stream, so a command is one step. What is outside the crate is
decided by the step's input: what the handler answers if it is called,
which store call fails, what the snapshot strategy says, whether the acceptor
takes the effects. A store may also lose the answer to a commit that took
effect.
-/

namespace EgoRs.Entity

open Framework EventStore

variable {E S : Type}

/-! ## Store calls that fail -/

/-- The errors a store answers with instead of doing its work. The flag beside
the error of a commit says whether the commit took effect nevertheless. -/
structure StoreFaults where
  findReceipt : Option PersistenceError
  begin : Option PersistenceError
  append : Option PersistenceError
  confirmReceipt : Option PersistenceError
  commit : Option (PersistenceError × Bool)

def StoreFaults.clear : StoreFaults := ⟨none, none, none, none, none⟩

/-! ## Writing through the facade -/

namespace PersistenceFacade

variable (facade : PersistenceFacade E)

/-- The facade with the event store's maps replaced. -/
def withState (state : Committed E) : PersistenceFacade E :=
  { facade with eventStore := { facade.eventStore with state := state } }

/-- What a commit to `state` leaves, and what its caller sees of it. -/
def settle (state : Committed E) (version : Int) (fault : Option (PersistenceError × Bool)) :
    PersistenceFacade E × Except String Nat :=
  match fault with
  | none => (facade.withState state, .ok version.toNat)
  | some (e, true) => (facade.withState state, .error (persistenceErrorText e))
  | some (e, false) => (facade, .error (persistenceErrorText e))

/-- `persist_events`: one append, which commits by itself. -/
def persistEvents (aggregateType aggregateId : String) (tenantId : Option String) (version : Nat)
    (events : List E) (faults : StoreFaults) : PersistenceFacade E × Except String Nat :=
  let stored := events.map fun event => (⟨event, none⟩ : StoredEvent E)
  match faults.append with
  | some e => (facade, .error (persistenceErrorText e))
  | none =>
    let (store, result) :=
      facade.eventStore.append ⟨aggregateType, aggregateId, tenantId, version, stored⟩
    match result with
    | .error e => ({ facade with eventStore := store }, .error (persistenceErrorText e))
    | .ok newVersion => facade.settle store.state newVersion faults.commit

/-- The append of `persist_events_with_receipt`; without events there is none. -/
def stageEvents (unit : StagingUnitOfWork E) (aggregateType aggregateId : String)
    (tenantId : Option String) (version : Nat) (events : List E) (faults : StoreFaults) :
    Except PersistenceError (StagingUnitOfWork E × Int) :=
  let stored := events.map fun event => (⟨event, none⟩ : StoredEvent E)
  if stored.isEmpty then .ok (unit, version)
  else
    match faults.append with
    | some e => .error e
    | none =>
      match unit.append facade.eventStore.state
          ⟨aggregateType, aggregateId, tenantId, version, stored⟩ with
      | (_, .error e) => .error e
      | (unit', .ok newVersion) => .ok (unit', newVersion)

/-- `persist_events_with_receipt`: append, confirm, commit, in one unit of
work. An error drops the unit. -/
def persistEventsWithReceipt (aggregateType aggregateId : String) (tenantId : Option String)
    (version : Nat) (events : List E) (receipt : OperationReceipt) (faults : StoreFaults) :
    PersistenceFacade E × Except String Nat :=
  match faults.begin with
  | some e => (facade, .error (persistenceErrorText e))
  | none =>
    match facade.stageEvents facade.eventStore.begin aggregateType aggregateId tenantId version
        events faults with
    | .error e => (facade, .error (persistenceErrorText e))
    | .ok (unit, newVersion) =>
      match faults.confirmReceipt with
      | some e => (facade, .error (persistenceErrorText e))
      | none =>
        match unit.confirmReceipt facade.eventStore.state receipt with
        | (_, .error e) => (facade, .error (persistenceErrorText e))
        | (unit', .ok ()) =>
          facade.settle (unit'.commit facade.eventStore.state) newVersion faults.commit

end PersistenceFacade

/-! ## Commands -/

structure OperationIdentity where
  key : OperationKey
  fingerprint : OperationFingerprint
  deriving DecidableEq

inductive EntityState where
  | recovering
  | active
  | passivating
  | passivated
  | failed
  deriving DecidableEq

/-- What the actor keeps between commands. -/
structure Actor (S : Type) where
  state : Option S
  version : Nat
  lifecycle : EntityState

/-- One command, with everything outside the crate that its execution may ask
for: the handler's answers, the faults of the store, the snapshot
strategy, which is asked with the new version and the number of events,
with the serialised state, the described effects and the acceptor, if one
is configured, with its answer. -/
structure Command (E S : Type) where
  identity : Option OperationIdentity
  handled : Except EntityError (List E)
  applied : Except EntityError S
  faults : StoreFaults
  snapshot : Nat → Nat → Option Json
  effects : List ExternalEffectDescription
  acceptor : Option (Except EffectAcceptanceError Unit)

/-- What the caller is sent: an error or a `CommandResult`. -/
inductive Reply (E S : Type) where
  | error (e : EntityError)
  | events (newState : S) (events : List E)
  | noEvents (state : S)
  | replayed (outcome : AggregateOutcome)
  | effectsAcceptanceFailed (newState : S) (events : List E) (error : EffectAcceptanceError)

/-- The reply to a command and what was called on the way to it. -/
structure Outcome (E S : Type) where
  reply : Reply E S
  handlerCalled : Bool
  acceptedEffects : List ExternalEffectDescription

/-- A reply that comes before the handler. -/
def Outcome.refused (reply : Reply E S) : Outcome E S := ⟨reply, false, []⟩

/-! ## The receipt gate -/

section
variable (entity : EntityTriple) (facade : PersistenceFacade E)

/-- The receipt lookup of a command: the entity's tenant string as it is. -/
def findReceiptFor (key : OperationKey) (faults : StoreFaults) :
    Except PersistenceError (Option OperationReceipt) :=
  match faults.findReceipt with
  | some e => .error e
  | none =>
    facade.findReceipt entity.aggregateType entity.entityId (some entity.tenantId) key.value

/-- The idempotency gate: `some` answer ends the command. -/
def gate (command : Command E S) : Option (Reply E S) :=
  match command.identity with
  | none => none
  | some identity =>
    match findReceiptFor entity facade identity.key command.faults with
    | .error e =>
      some (.error (.persistenceError
        ("could not read the operation receipt: " ++ persistenceErrorText e)))
    | .ok (some receipt) =>
      if receipt.fingerprint = identity.fingerprint then some (.replayed receipt.outcome)
      else some (.error (.operationConflict identity.key.value))
    | .ok none => none

/-- The receipt of a command; `TenantId::new` refuses a blank tenant, and it is systemwide then. -/
def receiptFor (identity : OperationIdentity) (outcome : AggregateOutcome) : OperationReceipt where
  aggregateType := entity.aggregateType
  aggregateId := entity.entityId
  tenant := TenantId.new entity.tenantId
  operationKey := identity.key
  fingerprint := identity.fingerprint
  outcome := outcome

end

/-! ## Executing a command -/

section
variable (entity : EntityTriple) (facade : PersistenceFacade E)

/-- What is written for a command that produced `events`. An outcome that can
not be encoded ends the command before. -/
def persistCommand (version : Nat) (identity : Option OperationIdentity) (events : List E)
    (faults : StoreFaults) : Except EntityError (PersistenceFacade E × Except EntityError Nat) :=
  match identity with
  | none =>
    let (facade', result) := facade.persistEvents entity.aggregateType entity.entityId
      (some entity.tenantId) version events faults
    .ok (facade', result.mapError EntityError.persistenceError)
  | some identity =>
    match aggregateOutcomeEvents (version + 1) (version + events.length) with
    | .error e =>
      .error (.internal
        ("the appended version range is not encodable: " ++ aggregateOutcomeErrorText e))
    | .ok outcome =>
      let (facade', result) := facade.persistEventsWithReceipt entity.aggregateType
        entity.entityId (some entity.tenantId) version events (receiptFor entity identity outcome)
        faults
      .ok (facade', result.mapError EntityError.persistenceError)

/-- The acceptance of described effects. -/
def acceptEffects (command : Command E S) :
    List ExternalEffectDescription × Except EffectAcceptanceError Unit :=
  match command.effects with
  | [] => ([], .ok ())
  | first :: rest =>
    match command.acceptor with
    | none =>
      ([], .error (.permanent
        "external effects were described but no EffectAcceptor is configured" 0
        first.idempotencyKey))
    | some answer =>
      match TenantId.new entity.tenantId with
      | none =>
        ([], .error (.permanent
          ("invalid tenant identity '" ++ entity.tenantId ++ "' for effect acceptance") 0
          first.idempotencyKey))
      | some _ => (first :: rest, answer)

/-- The snapshot after a command, if the strategy wants one. -/
def takeSnapshot (command : Command E S) (version count : Nat) : PersistenceFacade E :=
  match command.snapshot version count with
  | none => facade
  | some data => facade.storeSnapshot entity.aggregateId (some entity.tenantId) version data

/-- The rest of a command whose events are persisted. -/
def afterPersist (actor : Actor S) (command : Command E S) (events : List E) (newVersion : Nat) :
    PersistenceFacade E × Actor S × Outcome E S :=
  match command.applied with
  | .error e =>
    (facade, { actor with lifecycle := .failed },
      ⟨.error (.persistenceError e.text), true, []⟩)
  | .ok state =>
    let actor' : Actor S := { actor with state := some state, version := newVersion }
    let facade' := takeSnapshot entity facade command newVersion events.length
    match acceptEffects entity command with
    | (accepted, .error e) =>
      (facade', actor', ⟨.effectsAcceptanceFailed state events e, true, accepted⟩)
    | (accepted, .ok ()) => (facade', actor', ⟨.events state events, true, accepted⟩)

/-- A command whose handler emitted nothing. Only the receipt is written. -/
def executeNoEvents (actor : Actor S) (command : Command E S) (current : S) :
    PersistenceFacade E × Actor S × Outcome E S :=
  match command.identity with
  | none => (facade, actor, ⟨.noEvents current, true, []⟩)
  | some identity =>
    match facade.persistEventsWithReceipt entity.aggregateType entity.entityId
        (some entity.tenantId) actor.version [] (receiptFor entity identity .noEvents)
        command.faults with
    | (facade', .error e) => (facade', actor, ⟨.error (.persistenceError e), true, []⟩)
    | (facade', .ok _) => (facade', actor, ⟨.noEvents current, true, []⟩)

/-- A command whose handler emitted events. -/
def executeEvents (actor : Actor S) (command : Command E S) (events : List E) :
    PersistenceFacade E × Actor S × Outcome E S :=
  match persistCommand entity facade actor.version command.identity events command.faults with
  | .error e => (facade, actor, ⟨.error e, true, []⟩)
  | .ok (facade', .error e) =>
    (facade', { actor with lifecycle := .failed }, ⟨.error e, true, []⟩)
  | .ok (facade', .ok newVersion) => afterPersist entity facade' actor command events newVersion

def executeCommand (actor : Actor S) (command : Command E S) :
    PersistenceFacade E × Actor S × Outcome E S :=
  match actor.state with
  | none => (facade, actor, .refused (.error .entityNotActive))
  | some current =>
    match gate entity facade command with
    | some reply => (facade, actor, .refused reply)
    | none =>
      match command.handled with
      | .error e => (facade, actor, ⟨.error (.internal e.text), true, []⟩)
      | .ok [] => executeNoEvents entity facade actor command current
      | .ok (event :: events) => executeEvents entity facade actor command (event :: events)

end

/-! ## The runtime -/

/-- One store for all entities, and at most one actor for each. -/
structure RuntimeState (E S : Type) where
  facade : PersistenceFacade E
  actors : EntityTriple → Option (Actor S)

/-- The actors with the one of `entity` replaced. -/
def RuntimeState.setActor (s : RuntimeState E S) (entity : EntityTriple)
    (actor : Option (Actor S)) : RuntimeState E S :=
  { s with actors := Function.update s.actors entity actor }

inductive RuntimeInput (E S : Type) where
  /-- A new actor for the entity recovers, with this handler; an old one is
      gone. A store that cannot be read fails recovery. -/
  | start (entity : EntityTriple) (handler : Handler E S) (deserialize : Json → Option S)
      (fault : Option PersistenceError)
  | command (entity : EntityTriple) (command : Command E S)
  /-- The actor stops and leaves a snapshot of its state. -/
  | passivate (entity : EntityTriple) (data : Json)
  /-- The actor is gone without a trace. -/
  | crash (entity : EntityTriple)

def recoverState (facade : PersistenceFacade E) (entity : EntityTriple) (handler : Handler E S)
    (deserialize : Json → Option S) (fault : Option PersistenceError) : Actor S :=
  let recovery := match fault with
    | some e => .error (persistenceErrorText e)
    | none =>
      facade.loadForRecovery entity.aggregateType entity.entityId (some entity.tenantId)
  match rebuildStateFromPersistence handler deserialize recovery with
  | .ok (state, version) => ⟨some state, version, .active⟩
  | .error _ => ⟨none, 0, .failed⟩

/-- What is sent for the commands of an actor that no longer takes any. -/
def drained (actor : Actor S) : Outcome E S :=
  match actor.state with
  | none => .refused (.error .entityNotActive)
  | some _ =>
    .refused (.error (.persistenceError "actor entered failed state during command processing"))

inductive RuntimeOutput (E S : Type) where
  | recovered (lifecycle : EntityState)
  | replied (outcome : Outcome E S)
  | stopped

def RuntimeState.step (s : RuntimeState E S) :
    RuntimeInput E S → RuntimeState E S × RuntimeOutput E S
  | .start entity handler deserialize fault =>
    let actor := recoverState s.facade entity handler deserialize fault
    (s.setActor entity (some actor), .recovered actor.lifecycle)
  | .command entity command =>
    match s.actors entity with
    | none => (s, .replied (.refused (.error .mailboxClosed)))
    | some actor =>
      if actor.lifecycle = .active then
        let (facade, actor', outcome) := executeCommand entity s.facade actor command
        ({ s with facade := facade }.setActor entity (some actor'), .replied outcome)
      else (s, .replied (drained actor))
  | .passivate entity data =>
    match s.actors entity with
    | some ⟨some _, version, .active⟩ =>
      ({ s with
          facade := s.facade.storeSnapshot entity.aggregateId (some entity.tenantId) version data
        }.setActor entity none, .stopped)
    | _ => (s.setActor entity none, .stopped)
  | .crash entity => (s.setActor entity none, .stopped)

/-- The runtime over an empty store in which some streams may be declared to
start later. -/
def runtime (E S : Type) (offsets : VersionOffsets) :
    Machine (RuntimeState E S) (RuntimeInput E S) (RuntimeOutput E S) where
  init := ⟨⟨⟨⟨∅, ∅⟩, offsets⟩, ∅⟩, fun _ => none⟩
  step := RuntimeState.step

abbrev RuntimeEvent (E S : Type) : Type :=
  Transition (RuntimeState E S) (RuntimeInput E S) (RuntimeOutput E S)

abbrev RuntimeHistory (E S : Type) : Type := List (RuntimeEvent E S)

end EgoRs.Entity
