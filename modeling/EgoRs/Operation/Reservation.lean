import EgoRs.Operation.Key

/-! # The Reservation Port

The types of `persistence-api/src/operation/reservation.rs`: what a
reservation store is asked and what it answers. `is_durable` and `probe`
touch no reservation and `oldest_completed` only reads, so none of the
three is a call here.
-/

namespace EgoRs

/-! ### Identities -/

/-- The identity of one reservation: tenant scope (`none` is systemwide) and
operation key. -/
structure OperationId where
  tenant : Option TenantId
  operationKey : OperationKey
  deriving DecidableEq

structure OwnerId where
  value : String
  deriving DecidableEq

/-! ### Fencing tokens -/

/-- A `u64` fencing token. -/
structure FencingToken where
  value : Nat
  inRange : value < 2 ^ 64
  deriving DecidableEq

namespace FencingToken

/-- The first token of a freshly created reservation. -/
def initial : FencingToken := ⟨1, by decide⟩

/-- `checked_add(1)`: the strictly greater token, or `none` at the end of the
sequence. -/
def next (t : FencingToken) : Option FencingToken :=
  if h : t.value + 1 < 2 ^ 64 then some ⟨t.value + 1, h⟩ else none

theorem ext_value {t u : FencingToken} (h : t.value = u.value) : t = u := by
  cases t
  cases u
  simp_all

theorem next_value {t u : FencingToken} (h : t.next = some u) : u.value = t.value + 1 := by
  unfold next at h
  split at h
  · simp only [Option.some.injEq] at h
    rw [← h]
  · cases h

end FencingToken

/-! ### Requests and answers -/

/-- An opaque response payload. -/
structure StoredServiceResponse where
  bytes : List UInt8
  deriving DecidableEq

structure Lease where
  operationId : OperationId
  ownerId : OwnerId
  fencingToken : FencingToken
  leaseUntil : Timestamp
  deriving DecidableEq

structure OwnerFence where
  operationId : OperationId
  ownerId : OwnerId
  fencingToken : FencingToken
  deriving DecidableEq

/-- The fence a lease gives its holder. -/
def Lease.fence (l : Lease) : OwnerFence where
  operationId := l.operationId
  ownerId := l.ownerId
  fencingToken := l.fencingToken

structure ReserveRequest where
  tenant : Option TenantId
  operationKey : OperationKey
  fingerprint : OperationFingerprint
  ownerId : OwnerId
  leaseUntil : Timestamp
  deriving DecidableEq

/-- `OperationId::new(req.tenant, req.operation_key)`. -/
def ReserveRequest.operationId (req : ReserveRequest) : OperationId where
  tenant := req.tenant
  operationKey := req.operationKey

inductive ReservationOutcome where
  /-- No reservation existed; this attempt owns it now. -/
  | fresh (lease : Lease)
  /-- The previous lease had expired and was displaced. -/
  | takenOver (lease : Lease)
  /-- The same owner holds a live lease. -/
  | ownedInProgress (lease : Lease)
  /-- Another owner holds a live lease. -/
  | otherInProgress
  /-- Completed under the same fingerprint. -/
  | succeeded (response : StoredServiceResponse)
  /-- Same key, another fingerprint. -/
  | conflict
  deriving DecidableEq

/-- The lease a `Fresh` or `TakenOver` outcome grants. -/
def ReservationOutcome.granted : ReservationOutcome → Option Lease
  | .fresh lease => some lease
  | .takenOver lease => some lease
  | _ => none

inductive ReservationError where
  | staleOwner
  | fencingExhausted
  | backend (message : String)
  deriving DecidableEq

/-- The five calls of the port that touch a reservation. -/
inductive Call where
  | reserve (req : ReserveRequest)
  | renew (fence : OwnerFence) (until' : Timestamp)
  | complete (fence : OwnerFence) (response : StoredServiceResponse)
  | abandon (fence : OwnerFence)
  | purgeCompletedBefore (cutoff : Timestamp) (batch : Nat)
  deriving DecidableEq

inductive Reply where
  | outcome (o : ReservationOutcome)
  | done
  | purged (count : Nat)
  | failed (e : ReservationError)
  deriving DecidableEq

def Call.fence? : Call → Option OwnerFence
  | .renew fence _ => some fence
  | .complete fence _ => some fence
  | .abandon fence => some fence
  | _ => none

def Reply.granted : Reply → Option Lease
  | .outcome o => o.granted
  | _ => none

/-! ### Requests on one key

`sampleKey` systemwide, for the concrete runs of later files. -/

def sampleId : OperationId := ⟨none, sampleKey⟩

/-- A request on `sampleId`. -/
def sampleRequest (owner fingerprint : String) (leaseUntil : Timestamp) : ReserveRequest :=
  ⟨none, sampleKey, ⟨fingerprint⟩, ⟨owner⟩, leaseUntil⟩

instance thousand_neZero : @NeZero Nat Zero.ofOfNat0 1000 := ⟨by decide⟩

/-- A fence on `sampleId`; the token must be small. -/
def sampleFence (owner : String) (token : Fin 1000) : OwnerFence :=
  ⟨sampleId, ⟨owner⟩, ⟨token, by omega⟩⟩

end EgoRs
