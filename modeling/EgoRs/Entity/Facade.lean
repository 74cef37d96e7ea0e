import EgoRs.Entity.Stores

/-! # The Persistence Facade

`PersistenceFacade` of `persistent-entity/src/persistence.rs`: what an
entity's actor reads on recovery and writes after a command, over an event
store and a snapshot store.

What recovery makes of the stores' answers is written once, for any
answers (`recoveryOf`); the facade over the in-memory stores puts theirs
in.
-/

namespace EgoRs.Entity

open EventStore

variable {E : Type}

/-! ## Recovery -/

structure SnapshotData where
  data : Json
  version : Nat

structure StoredEventRow (E : Type) where
  event : E
  version : Nat

/-- `PersistenceError::to_string`. -/
def persistenceErrorText : PersistenceError → String
  | .notFound aggregateId => s!"aggregate '{aggregateId}' not found"
  | .conflict aggregateId expected actual =>
    s!"conflict for aggregate '{aggregateId}': expected version {expected}, " ++
      s!"actual version {actual}"
  | .missingTenant => "missing tenant identifier"
  | .internal message => s!"internal error: {message}"

/-- The stream a load answered with. An absent one has no history; any other
error fails recovery. -/
def historyOf (loaded : Except PersistenceError (List (StoredEvent E))) :
    Except String (List (StoredEvent E)) :=
  match loaded with
  | .ok events => .ok events
  | .error (.notFound _) => .ok []
  | .error e => .error (persistenceErrorText e)

/-- The rows of `stored` that a snapshot at `snapVersion` does not cover. -/
def rowsAfter (stored : List (StoredEvent E)) (base snapVersion : Nat) :
    List (StoredEventRow E) :=
  (stored.zipIdx.filter fun e => decide (snapVersion ≤ e.2 + base)).map fun e =>
    ⟨e.1.event, e.2 + base + 1⟩

/-- `load_for_recovery`, from what the two stores answer. -/
def recoveryOf (snapshot : Except PersistenceError (Option (Int × Json)))
    (loaded : Except PersistenceError (List (StoredEvent E))) (base : Nat) :
    Except String (Option SnapshotData × List (StoredEventRow E)) :=
  match snapshot with
  | .error e => .error (persistenceErrorText e)
  | .ok snap =>
    let snapData := snap.map fun s => (⟨s.2, s.1.toNat⟩ : SnapshotData)
    let snapVersion := (snapData.map SnapshotData.version).getD 0
    match historyOf loaded with
    | .error e => .error e
    | .ok stored => .ok (snapData, rowsAfter stored base snapVersion)

/-! ### The rows recovery replays -/

/-- The events after the snapshot are those the stream has beyond it. -/
theorem rowsAfter_events (stored : List (StoredEvent E)) (base snapVersion : Nat) :
    (rowsAfter stored base snapVersion).map StoredEventRow.event =
      (stored.drop (snapVersion - base)).map StoredEvent.event := by
  -- over an arbitrary start index, so that the induction can move it
  have key : ∀ (l : List (StoredEvent E)) (i : Nat),
      (((l.zipIdx i).filter fun e => decide (snapVersion ≤ e.2 + base)).map
          fun e => e.1.event) = (l.drop (snapVersion - base - i)).map StoredEvent.event := by
    intro l
    induction l with
    | nil => simp
    | cons _ _ ih =>
      intro i
      rw [List.zipIdx_cons, List.filter_cons]
      by_cases hle : snapVersion ≤ i + base
      · have h0 : snapVersion - base - i = 0 := by omega
        have h1 : snapVersion - base - (i + 1) = 0 := by omega
        have htail := ih (i + 1)
        rw [h1, List.drop_zero] at htail
        simp [hle, h0, htail]
      · have hsucc : snapVersion - base - i = (snapVersion - base - (i + 1)) + 1 := by omega
        have htail := ih (i + 1)
        rw [hsucc, List.drop_succ_cons]
        simpa [hle] using htail
  have hrows := key stored 0
  simpa [rowsAfter, Function.comp_def] using hrows

theorem rowsAfter_length (stored : List (StoredEvent E)) (base snapVersion : Nat) :
    (rowsAfter stored base snapVersion).length = stored.length - (snapVersion - base) := by
  have h := congrArg List.length (rowsAfter_events stored base snapVersion)
  simpa using h

/-! ## The facade over the in-memory stores -/

structure PersistenceFacade (E : Type) where
  eventStore : InMemoryEventStore E
  snapshotStore : InMemorySnapshotStore

namespace PersistenceFacade

/-- `load_for_recovery`. The snapshot is looked up under the joined id. -/
def loadForRecovery (facade : PersistenceFacade E) (aggregateType aggregateId : String)
    (tenantId : Option String) :
    Except String (Option SnapshotData × List (StoredEventRow E)) :=
  let snapshotKey := aggregateType ++ "-" ++ aggregateId
  recoveryOf (facade.snapshotStore.loadSnapshot snapshotKey tenantId)
    (facade.eventStore.load aggregateType aggregateId tenantId)
    (facade.eventStore.streamVersionOffset aggregateType aggregateId tenantId)

def storeSnapshot (facade : PersistenceFacade E) (entityId : String) (tenantId : Option String)
    (version : Nat) (data : Json) : PersistenceFacade E :=
  { facade with
    snapshotStore := facade.snapshotStore.saveSnapshot entityId tenantId version data }

def findReceipt (facade : PersistenceFacade E) (aggregateType aggregateId : String)
    (tenantId : Option String) (operationKey : String) :
    Except PersistenceError (Option OperationReceipt) :=
  facade.eventStore.findReceipt aggregateType aggregateId tenantId operationKey

end PersistenceFacade

end EgoRs.Entity
