import EgoRs.Effects.Effect
import EgoRs.Framework.AssocMap
import EgoRs.Service.CanonicalJson

/-! # The In-Memory Effect Store

`InMemoryEffectStore` of `runtime/src/effects/store.rs`: the delivery state
of every accepted effect, and the reservations that keep two effects with
the same idempotency scope apart. The two maps have a lock each, so every
method is one atomic step on one of them.
-/

namespace EgoRs.Effects

open Framework

/-! ## Effects -/

/-- `EffectId`, by the text of its UUID. -/
structure EffectId where
  uuid : String
  deriving DecidableEq

inductive EffectState where
  | pending
  | inFlight
  | succeeded
  | retryableFailed
  | terminalFailed
  deriving DecidableEq

inductive TerminalReason where
  | executorMissing
  | invalidEffect (message : String)
  | other (message : String)
  deriving DecidableEq

inductive EffectStoreError where
  | notFound (id : EffectId)
  | invalidTransition (id : EffectId) (current requested : EffectState)
  | conflict (message : String)
  | temporarilyUnavailable (message : String)
  | backend (message : String)
  deriving DecidableEq

/-- The name `{:?}` prints. -/
def EffectState.debug : EffectState → String
  | .pending => "Pending"
  | .inFlight => "InFlight"
  | .succeeded => "Succeeded"
  | .retryableFailed => "RetryableFailed"
  | .terminalFailed => "TerminalFailed"

/-- `to_string` of an error. -/
def EffectStoreError.text : EffectStoreError → String
  | .notFound id => "effect " ++ id.uuid ++ " not found"
  | .invalidTransition id current requested =>
    "invalid transition for effect " ++ id.uuid ++ ": " ++ current.debug ++ " -> " ++
      requested.debug
  | .conflict message => "conflict: " ++ message
  | .temporarilyUnavailable message => "backend temporarily unavailable: " ++ message
  | .backend message => "backend error: " ++ message

structure AcceptedEffect where
  id : EffectId
  tenant : TenantId
  attempt : Nat
  description : ExternalEffectDescription
  deriving DecidableEq

structure StoredEffect where
  id : EffectId
  tenant : TenantId
  description : ExternalEffectDescription
  attempt : Nat
  state : EffectState
  nextAt : Timestamp
  deriving DecidableEq

structure EffectRecord where
  tenant : TenantId
  description : ExternalEffectDescription
  state : EffectState
  attempt : Nat
  nextAt : Option Timestamp
  terminalReason : Option TerminalReason
  deriving DecidableEq

/-! ## Reservations -/

structure DedupScope where
  tenant : TenantId
  effectType : String
  key : IdempotencyKey
  deriving DecidableEq

inductive DedupOutcome where
  | fresh
  | ownedInProgress
  | ownedSucceeded
  | otherInProgress
  | otherSucceeded
  | conflict
  deriving DecidableEq

/-- `EffectFingerprint`: a digest. -/
structure EffectFingerprint where
  bytes : List UInt8
  deriving DecidableEq

/-- `EffectFingerprint::compute`. The hash function is a parameter. -/
def EffectFingerprint.compute (sha256 : List UInt8 → List UInt8) (payload : List UInt8)
    (destination : String) : EffectFingerprint :=
  ⟨sha256 (u64BeBytes payload.length ++ payload ++ u64BeBytes (utf8 destination).length ++
    utf8 destination)⟩

structure ReservationRecord where
  effectId : EffectId
  fingerprint : EffectFingerprint
  succeeded : Bool
  deriving DecidableEq

/-! ## The store -/

structure InMemoryEffectStore where
  states : AList (fun _ : EffectId => EffectRecord)
  dedup : AList (fun _ : DedupScope => ReservationRecord)

/-- An iteration order of the keys of `states`. -/
structure IterOrder where
  arrange : List EffectId → List EffectId
  perm : ∀ l, (arrange l).Perm l

def IterOrder.stored : IterOrder := ⟨id, fun _ => .refl _⟩

/-- `claim_due` returns the record at `now`. -/
def EffectRecord.due (record : EffectRecord) (now : Timestamp) : Bool :=
  decide (record.state = .pending ∨ record.state = .retryableFailed) &&
    match record.nextAt with
    | none => true
    | some nextAt => decide (nextAt ≤ now)

/-- The copy `claim_due` returns of a record. -/
def EffectRecord.stored (record : EffectRecord) (id : EffectId)
    (now : Timestamp) : StoredEffect where
  id := id
  tenant := record.tenant
  description := record.description
  attempt := record.attempt
  state := record.state
  nextAt := record.nextAt.getD now

namespace InMemoryEffectStore

/-- `InMemoryEffectStore::new`. -/
def new : InMemoryEffectStore := ⟨∅, ∅⟩

section
variable (store : InMemoryEffectStore)

/-- The record of `id` becomes `record`. -/
def put (id : EffectId) (record : EffectRecord) : InMemoryEffectStore :=
  { store with states := store.states.insert id record }

/-- The reservation of `scope` becomes `reservation`. -/
def putReservation (scope : DedupScope) (reservation : ReservationRecord) : InMemoryEffectStore :=
  { store with dedup := store.dedup.insert scope reservation }

/-- `transition`: the record in its new state, if it may go there. -/
def transition (id : EffectId) (allowedFrom : List EffectState) (target : EffectState) :
    Except EffectStoreError EffectRecord :=
  match store.states.lookup id with
  | none => .error (.notFound id)
  | some record =>
    if record.state ∈ allowedFrom then .ok { record with state := target }
    else .error (.invalidTransition id record.state target)

/-- A transition, and what the method does with the record after it. -/
def mark (id : EffectId) (allowedFrom : List EffectState) (target : EffectState)
    (update : EffectRecord → EffectRecord) : InMemoryEffectStore × Except EffectStoreError Unit :=
  match store.transition id allowedFrom target with
  | .error e => (store, .error e)
  | .ok record => (store.put id (update record), .ok ())

def accept (effect : AcceptedEffect) : InMemoryEffectStore × Except EffectStoreError Unit :=
  match store.states.lookup effect.id with
  | some existing =>
    if existing.tenant = effect.tenant ∧ existing.description = effect.description then
      (store, .ok ())
    else
      (store, .error (.conflict
        ("effect " ++ effect.id.uuid ++ " already accepted with different tenant/description")))
  | none =>
    (store.put effect.id
      { tenant := effect.tenant
        description := effect.description
        state := .pending
        attempt := effect.attempt
        nextAt := none
        terminalReason := none }, .ok ())

def markInFlight (id : EffectId) : InMemoryEffectStore × Except EffectStoreError Unit :=
  store.mark id [.pending, .retryableFailed] .inFlight fun record => record

def markSucceeded (id : EffectId) : InMemoryEffectStore × Except EffectStoreError Unit :=
  store.mark id [.inFlight] .succeeded fun record => record

def markRetryable (id : EffectId) (attempt : Nat) (nextAt : Timestamp) :
    InMemoryEffectStore × Except EffectStoreError Unit :=
  store.mark id [.inFlight] .retryableFailed fun record =>
    { record with attempt := attempt, nextAt := some nextAt }

def markTerminal (id : EffectId) (reason : TerminalReason) :
    InMemoryEffectStore × Except EffectStoreError Unit :=
  store.mark id [.inFlight, .retryableFailed] .terminalFailed fun record =>
    { record with terminalReason := some reason }

def claimDue (now : Timestamp) (limit : Nat) (order : IterOrder) : List StoredEffect :=
  ((order.arrange store.states.keys).filterMap fun id =>
    match store.states.lookup id with
    | some record => if record.due now then some (record.stored id now) else none
    | none => none).take limit

def reserve (scope : DedupScope) (effectId : EffectId) (fingerprint : EffectFingerprint) :
    InMemoryEffectStore × Except EffectStoreError DedupOutcome :=
  match store.dedup.lookup scope with
  | none =>
    (store.putReservation scope ⟨effectId, fingerprint, false⟩, .ok .fresh)
  | some existing =>
    if existing.fingerprint ≠ fingerprint then (store, .ok .conflict)
    else if existing.effectId = effectId then
      (store, .ok (if existing.succeeded then .ownedSucceeded else .ownedInProgress))
    else (store, .ok (if existing.succeeded then .otherSucceeded else .otherInProgress))

def commitSuccess (scope : DedupScope) : InMemoryEffectStore × Except EffectStoreError Unit :=
  match store.dedup.lookup scope with
  | some record =>
    (store.putReservation scope { record with succeeded := true }, .ok ())
  | none => (store, .ok ())

def release (scope : DedupScope) : InMemoryEffectStore × Except EffectStoreError Unit :=
  ({ store with dedup := store.dedup.erase scope }, .ok ())

end

/-! ## What the methods do -/

section
variable {store : InMemoryEffectStore} {id other : EffectId} {record : EffectRecord}

@[simp] theorem lookup_put_self (store : InMemoryEffectStore) (id : EffectId)
    (record : EffectRecord) : (store.put id record).states.lookup id = some record :=
  AList.lookup_insert _

theorem lookup_put_ne (store : InMemoryEffectStore) (record : EffectRecord) (h : other ≠ id) :
    (store.put id record).states.lookup other = store.states.lookup other :=
  AList.lookup_insert_ne h

@[simp] theorem lookup_putReservation_self (store : InMemoryEffectStore) (scope : DedupScope)
    (reservation : ReservationRecord) :
    (store.putReservation scope reservation).dedup.lookup scope = some reservation :=
  AList.lookup_insert _

theorem mark_of_allowed {allowedFrom : List EffectState} (target : EffectState)
    (update : EffectRecord → EffectRecord) (hat : store.states.lookup id = some record)
    (hallowed : record.state ∈ allowedFrom) : store.mark id allowedFrom target update =
      (store.put id (update { record with state := target }), .ok ()) := by
  simp [mark, transition, hat, hallowed]

/-- A refused transition leaves the store as it is. -/
theorem mark_of_not_allowed {allowedFrom : List EffectState} (target : EffectState)
    (update : EffectRecord → EffectRecord)
    (hrefused : ∀ record, store.states.lookup id = some record → record.state ∉ allowedFrom) :
    ∃ e, store.mark id allowedFrom target update = (store, .error e) ∧
      ∀ text, e ≠ .temporarilyUnavailable text := by
  unfold mark transition
  cases hat : store.states.lookup id with
  | none => exact ⟨_, rfl, by simp⟩
  | some record =>
    simp only [if_neg (hrefused record hat)]
    exact ⟨_, rfl, by simp⟩

/-- What `claim_due` returns are copies of records that are due. -/
theorem mem_claimDue {now : Timestamp} {limit : Nat} {order : IterOrder} {copy : StoredEffect}
    (hmem : copy ∈ store.claimDue now limit order) :
    ∃ record, store.states.lookup copy.id = some record ∧ record.due now = true ∧
      copy = record.stored copy.id now := by
  obtain ⟨id, -, hcopy⟩ := List.mem_filterMap.mp (List.mem_of_mem_take hmem)
  cases hat : store.states.lookup id with
  | none =>
    rw [hat] at hcopy
    cases hcopy
  | some record =>
    rw [hat] at hcopy
    by_cases hdue : record.due now = true
    · simp only [if_pos hdue, Option.some.injEq] at hcopy
      subst hcopy
      exact ⟨record, hat, hdue, rfl⟩
    · simp [hdue] at hcopy

end

end InMemoryEffectStore

end EgoRs.Effects
