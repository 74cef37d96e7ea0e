import Mathlib.Data.List.Sort
import EgoRs.Framework.AssocMap
import EgoRs.Framework.Machine
import EgoRs.Operation.Key

/-! # The In-Memory Event Store

`InMemoryEventStore` and its unit of work, of
`persistence-memory/src/persistence/event_store.rs`. The committed
streams and receipts sit behind one mutex and every method holds it for
its whole body, so a run is a sequence of calls: direct appends and reads
on the store, and calls on any number of units of work, interleaved in
any way.

A unit of work is a value its caller owns; `commit` and dropping consume
it. In the run it is named by the position of its `begin`, and what is
consumed stays consumed. Versions are `i64` in the source and counted
from vector lengths, which cannot reach `2^63`; they are integers here.

`Moves` says once what a call can do to the state.
-/

namespace EgoRs.EventStore

open Framework

/-! ## Stored data -/

inductive PersistenceError where
  | notFound (aggregateId : String)
  | conflict (aggregateId : String) (expected actual : Int)
  | missingTenant
  | internal (message : String)
  deriving DecidableEq

/-- `StoredEvent`: the payload and the operation that produced it. -/
structure StoredEvent (E : Type) where
  event : E
  operationKey : Option OperationKey
  deriving DecidableEq

/-- `AggregateOutcome`: the inclusive version range a command appended. -/
inductive AggregateOutcome where
  | events (versionFrom versionTo : Int)
  | noEvents
  deriving DecidableEq

inductive AggregateOutcomeError where
  | inverted
  | empty
  deriving DecidableEq

/-- The `Debug` text of the error. -/
def aggregateOutcomeErrorText : AggregateOutcomeError → String
  | .inverted => "Inverted"
  | .empty => "Empty"

/-- `AggregateOutcome::events`: an empty range is told apart from an inverted
one. -/
def aggregateOutcomeEvents (versionFrom versionTo : Int) :
    Except AggregateOutcomeError AggregateOutcome :=
  if versionTo = versionFrom - 1 then .error .empty
  else if versionTo < versionFrom then .error .inverted
  else .ok (.events versionFrom versionTo)

structure OperationReceipt where
  aggregateType : String
  aggregateId : String
  tenant : Option TenantId
  operationKey : OperationKey
  fingerprint : OperationFingerprint
  outcome : AggregateOutcome
  deriving DecidableEq

/-- `(aggregate_type, aggregate_id, tenant)`. -/
structure StreamKey where
  aggregateType : String
  aggregateId : String
  tenant : Option String
  deriving DecidableEq

/-- `(aggregate_type, aggregate_id, tenant, operation_key)`. -/
structure ReceiptKey where
  aggregateType : String
  aggregateId : String
  tenant : Option String
  operationKey : String
  deriving DecidableEq

def receiptKey (receipt : OperationReceipt) : ReceiptKey where
  aggregateType := receipt.aggregateType
  aggregateId := receipt.aggregateId
  tenant := receipt.tenant.map TenantId.value
  operationKey := receipt.operationKey.value

variable {E : Type}

/-- The streams of a store or of a unit of work. -/
abbrev Streams (E : Type) : Type := AList (fun _ : StreamKey => List (StoredEvent E))

abbrev Receipts : Type := AList (fun _ : ReceiptKey => OperationReceipt)

/-- `Committed`: everything a commit makes visible, behind one lock. -/
structure Committed (E : Type) where
  streams : Streams E
  receipts : Receipts

/-- `InMemoryEventStoreUnitOfWork`, without its handle on the store. -/
structure UnitOfWork (E : Type) where
  staged : Streams E
  stagedReceipts : Receipts

/-- The events under `k`; an absent stream is an empty one. -/
def streamAt (streams : Streams E) (k : StreamKey) : List (StoredEvent E) :=
  (streams.lookup k).getD []

/-- `streams.entry(k).or_default().extend(events)`. -/
def extend (streams : Streams E) (k : StreamKey) (events : List (StoredEvent E)) : Streams E :=
  streams.insert k (streamAt streams k ++ events)

@[simp] theorem streamAt_empty (k : StreamKey) : streamAt (∅ : Streams E) k = [] := by
  simp [streamAt]

@[simp] theorem streamAt_extend (streams : Streams E) (k : StreamKey)
    (events : List (StoredEvent E)) :
    streamAt (extend streams k events) k = streamAt streams k ++ events := by
  simp [streamAt, extend]

theorem streamAt_extend_ne {streams : Streams E} {k k' : StreamKey}
    {events : List (StoredEvent E)} (h : k' ≠ k) :
    streamAt (extend streams k events) k' = streamAt streams k' := by
  simp [streamAt, extend, AList.lookup_insert_ne h]

/-! ## The store's methods -/

/-- `resolve_tenant`: an empty tenant is a misconfiguration, not the systemwide
scope. -/
def resolveTenant (tenantId : Option String) : Except PersistenceError (Option String) :=
  match tenantId with
  | none => .ok none
  | some t => if t = "" then .error .missingTenant else .ok (some t)

/-- The arguments of both `append` methods. -/
structure AppendArgs (E : Type) where
  aggregateType : String
  aggregateId : String
  tenantId : Option String
  expectedVersion : Int
  events : List (StoredEvent E)
  deriving DecidableEq

def AppendArgs.key (args : AppendArgs E) : Except PersistenceError StreamKey := do
  let tenant ← resolveTenant args.tenantId
  return ⟨args.aggregateType, args.aggregateId, tenant⟩

/-- The refusal of an append whose stream stands at `current`. -/
def AppendArgs.versionConflict (args : AppendArgs E) (current : Int) : PersistenceError :=
  .conflict (args.aggregateType ++ "-" ++ args.aggregateId) args.expectedVersion current

/-- `EventStore::append`. `entry(key).or_default()` comes before the check, so
a refused append leaves an empty stream where there was none. -/
def append (committed : Committed E) (args : AppendArgs E) :
    Committed E × Except PersistenceError Int :=
  match args.key with
  | .error e => (committed, .error e)
  | .ok key =>
    let streams := extend committed.streams key []
    let current : Int := (streamAt streams key).length
    if current ≠ args.expectedVersion then
      ({ committed with streams := streams }, .error (args.versionConflict current))
    else
      ({ committed with streams := extend streams key args.events },
        .ok (current + args.events.length))

/-- Opening an empty stream changes no stream's events. -/
@[simp] theorem streamAt_open (streams : Streams E) (k k' : StreamKey) :
    streamAt (extend streams k []) k' = streamAt streams k' := by
  by_cases h : k' = k
  · subst h
    simp
  · exact streamAt_extend_ne h

def load (committed : Committed E) (aggregateType aggregateId : String)
    (tenantId : Option String) : Except PersistenceError (List (StoredEvent E)) := do
  let tenant ← resolveTenant tenantId
  match committed.streams.lookup ⟨aggregateType, aggregateId, tenant⟩ with
  | some events => .ok events
  | none => .error (.notFound (aggregateType ++ "-" ++ aggregateId))

/-- The order of `Vec<(String, String)>::sort`. -/
def idLe (a b : String × String) : Bool :=
  decide (a.1 < b.1) || (decide (a.1 = b.1) && decide (a.2 ≤ b.2))

def listAggregateIds (committed : Committed E) (tenantId : Option String) :
    Except PersistenceError (List (String × String)) := do
  let tenant ← resolveTenant tenantId
  let keys := committed.streams.keys.filter fun k => decide (k.tenant = tenant)
  return (keys.map fun k => (k.aggregateType, k.aggregateId)).insertionSort fun a b => idLe a b

def findReceipt (committed : Committed E) (aggregateType aggregateId : String)
    (tenantId : Option String) (operationKey : String) :
    Except PersistenceError (Option OperationReceipt) := do
  let tenant ← resolveTenant tenantId
  return committed.receipts.lookup ⟨aggregateType, aggregateId, tenant, operationKey⟩

/-! ## The unit of work's methods -/

/-- `begin`. -/
def UnitOfWork.fresh : UnitOfWork E := ⟨∅, ∅⟩

section
variable (unit : UnitOfWork E) (committed : Committed E)

/-- `EventStoreUnitOfWork::append`: the check reads the committed stream and
what this unit has staged on it; nothing is published. -/
def UnitOfWork.append (args : AppendArgs E) : UnitOfWork E × Except PersistenceError Int :=
  match args.key with
  | .error e => (unit, .error e)
  | .ok key =>
    -- the only look at the committed stream: `commit` does not repeat it
    let current : Int :=
      (streamAt committed.streams key).length + (streamAt unit.staged key).length
    if current ≠ args.expectedVersion then (unit, .error (args.versionConflict current))
    else
      ({ unit with staged := extend unit.staged key args.events },
        .ok (current + args.events.length))

/-- `reconcile`: only the fingerprints are compared. -/
def reconcile (existing : Option OperationReceipt) (incoming : OperationReceipt) :
    Except PersistenceError Unit :=
  match existing with
  | some found =>
    if found.fingerprint ≠ incoming.fingerprint then
      .error (.conflict (incoming.aggregateType ++ "-" ++ incoming.aggregateId) 0 0)
    else .ok ()
  | none => .ok ()

/-- The two reconciliations of `confirm_receipt`, committed before staged. -/
def UnitOfWork.reconciles (receipt : OperationReceipt) : Except PersistenceError Unit := do
  reconcile (committed.receipts.lookup (receiptKey receipt)) receipt
  reconcile (unit.stagedReceipts.lookup (receiptKey receipt)) receipt

def UnitOfWork.confirmReceipt (receipt : OperationReceipt) :
    UnitOfWork E × Except PersistenceError Unit :=
  match unit.reconciles committed receipt with
  | .error e => (unit, .error e)
  | .ok () =>
    ({ unit with stagedReceipts := unit.stagedReceipts.insert (receiptKey receipt) receipt },
      .ok ())

/-- `commit`. Neither loop looks at what is already there: the streams are
extended, the receipts overwritten, and the answer is always `Ok`. -/
def UnitOfWork.commit : Committed E × Except PersistenceError Unit :=
  ({ streams := publishInto (fun stream events => stream.getD [] ++ events)
        committed.streams unit.staged
     receipts := publishInto (fun _ receipt => receipt)
        committed.receipts unit.stagedReceipts },
    .ok ())

theorem streamAt_commit (k : StreamKey) :
    streamAt (unit.commit committed).1.streams k =
      streamAt committed.streams k ++ streamAt unit.staged k := by
  simp only [streamAt, UnitOfWork.commit, lookup_publishInto]
  cases unit.staged.lookup k <;> simp

theorem lookup_receipts_commit (k : ReceiptKey) :
    (unit.commit committed).1.receipts.lookup k =
      (unit.stagedReceipts.lookup k).or (committed.receipts.lookup k) := by
  simp only [UnitOfWork.commit, lookup_publishInto]
  cases unit.stagedReceipts.lookup k <;> simp

end

/-! ### Appends to one stream

A systemwide order stream that the concrete runs of later files share. -/

def sampleStream : StreamKey := ⟨"order", "o-1", none⟩

/-- One event, appended to `sampleStream`. -/
def sampleAppend (expectedVersion : Int) (event : Nat) : AppendArgs Nat where
  aggregateType := "order"
  aggregateId := "o-1"
  tenantId := none
  expectedVersion := expectedVersion
  events := [⟨event, none⟩]

end EgoRs.EventStore
