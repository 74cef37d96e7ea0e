import EgoRs.Persistence.EventStore
import EgoRs.Service.CanonicalJson

/-! # The Stores Behind an Entity

The in-memory event store and snapshot store of
`persistent-entity/src/persistence.rs`, which the runtime builder installs
when it is given none, and the `EntityTriple` of `scheduler.rs` that names
an entity.

The event store differs from the one in `persistence-memory` in one point:
a stream may be declared to start after an offset, and every version is
counted from there. The snapshot store takes a tenant and does not look at
it.

An `i64` version of the stores is a `u64` in the entity's own code. Both
count events of one stream, where the two casts lose nothing; a `u64` is a
natural number here.
-/

namespace EgoRs.Entity

open EventStore

variable {E : Type}

/-! ## Identity -/

structure EntityTriple where
  tenantId : String
  entityType : String
  entityId : String
  deriving DecidableEq

/-- `aggregate_id`: type and id joined. -/
def EntityTriple.aggregateId (entity : EntityTriple) : String :=
  entity.entityType ++ "-" ++ entity.entityId

def EntityTriple.aggregateType (entity : EntityTriple) : String := entity.entityType

/-! ## The event store -/

/-- `(aggregate_type, aggregate_id)`: an offset holds in every tenant. -/
structure OffsetKey where
  aggregateType : String
  aggregateId : String
  deriving DecidableEq

abbrev VersionOffsets : Type := AList (fun _ : OffsetKey => Int)

/-- The events declared to precede the stored ones. -/
def VersionOffsets.at (offsets : VersionOffsets) (aggregateType aggregateId : String) : Int :=
  (offsets.lookup ⟨aggregateType, aggregateId⟩).getD 0

/-- `InMemoryEventStore` of `persistent-entity`. -/
structure InMemoryEventStore (E : Type) where
  state : Committed E
  versionOffsets : VersionOffsets

namespace InMemoryEventStore

/-- `InMemoryEventStore::new`. -/
def new : InMemoryEventStore E := ⟨⟨∅, ∅⟩, ∅⟩

variable (store : InMemoryEventStore E)

/-- The version of stream `key`. -/
def version (key : StreamKey) : Int :=
  (streamAt store.state.streams key).length +
    store.versionOffsets.at key.aggregateType key.aggregateId

/-- `append`. As in `persistence-memory`, a refused append may leave an empty
stream behind. -/
def append (args : AppendArgs E) : InMemoryEventStore E × Except PersistenceError Int :=
  match args.key with
  | .error e => (store, .error e)
  | .ok key =>
    let streams := extend store.state.streams key []
    let current := store.version key
    if current ≠ args.expectedVersion then
      ({ store with state := { store.state with streams := streams } },
        .error (args.versionConflict current))
    else
      ({ store with
          state := { store.state with streams := extend streams key args.events } },
        .ok (current + args.events.length))

def load (aggregateType aggregateId : String) (tenantId : Option String) :
    Except PersistenceError (List (StoredEvent E)) :=
  EventStore.load store.state aggregateType aggregateId tenantId

def findReceipt (aggregateType aggregateId : String) (tenantId : Option String)
    (operationKey : String) : Except PersistenceError (Option OperationReceipt) :=
  EventStore.findReceipt store.state aggregateType aggregateId tenantId operationKey

/-- `stream_version_offset`: a negative offset counts as none. -/
def streamVersionOffset (aggregateType aggregateId : String) (_tenantId : Option String) : Nat :=
  (store.versionOffsets.at aggregateType aggregateId).toNat

end InMemoryEventStore

/-! ## The unit of work -/

/-- `StagingUnitOfWork`, without its handle on the store. -/
structure StagingUnitOfWork (E : Type) where
  versionOffsets : VersionOffsets
  work : UnitOfWork E

def InMemoryEventStore.begin (store : InMemoryEventStore E) : StagingUnitOfWork E :=
  ⟨store.versionOffsets, .fresh⟩

namespace StagingUnitOfWork

/-- `append`: offset, committed and staged events make the current version. -/
def append (unit : StagingUnitOfWork E) (state : Committed E) (args : AppendArgs E) :
    StagingUnitOfWork E × Except PersistenceError Int :=
  match args.key with
  | .error e => (unit, .error e)
  | .ok key =>
    let offset := unit.versionOffsets.at args.aggregateType args.aggregateId
    let committed : Int := (streamAt state.streams key).length
    let staged : Int := (streamAt unit.work.staged key).length
    let current := offset + committed + staged
    if current ≠ args.expectedVersion then (unit, .error (args.versionConflict current))
    else
      ({ unit with
          work := { unit.work with staged := extend unit.work.staged key args.events } },
        .ok (current + args.events.length))

/-- `confirm_receipt`, whose `reconcile_receipt` is `persistence-memory`'s
`reconcile`. -/
def confirmReceipt (unit : StagingUnitOfWork E) (state : Committed E)
    (receipt : OperationReceipt) : StagingUnitOfWork E × Except PersistenceError Unit :=
  let (work, result) := unit.work.confirmReceipt state receipt
  ({ unit with work := work }, result)

/-- `commit`: both maps are written under one lock, and nothing is checked. -/
def commit (unit : StagingUnitOfWork E) (state : Committed E) : Committed E :=
  (unit.work.commit state).1

end StagingUnitOfWork

/-! ## The snapshot store -/

/-- `InMemorySnapshotStore`: version and payload of the last snapshot under
each id. -/
abbrev InMemorySnapshotStore : Type := AList (fun _ : String => Int × Json)

namespace InMemorySnapshotStore

/-- `save_snapshot`. The tenant plays no part. -/
def saveSnapshot (store : InMemorySnapshotStore) (streamId : String) (_tenantId : Option String)
    (version : Int) (payload : Json) : InMemorySnapshotStore :=
  store.insert streamId (version, payload)

/-- `load_snapshot`. The tenant plays no part. -/
def loadSnapshot (store : InMemorySnapshotStore) (streamId : String)
    (_tenantId : Option String) : Except PersistenceError (Option (Int × Json)) :=
  .ok (store.lookup streamId)

end InMemorySnapshotStore

end EgoRs.Entity
