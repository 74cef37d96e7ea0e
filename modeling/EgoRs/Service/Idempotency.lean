import EgoRs.Operation.Port
import EgoRs.Service.Context

/-! # Reserving and Completing an Idempotent Operation

`ReservationConfig` and the stored-response codec of
`service-sdk/src/runtime/idempotency.rs`, and the two runtime methods the
generated code calls around an `#[idempotent]` handler,
`reserve_idempotent_operation` and `complete_idempotent_operation`
(`runtime/runtime_builder.rs`). Spans and counters are left out.
-/

namespace EgoRs

/-! ### Configuration and decisions -/

/-- `ReservationConfig` without its store and clock, which are the state the
methods run on. `new` rejects a zero lease. -/
structure ReservationConfig where
  ownerId : OwnerId
  leaseDuration : Int
  positive : 0 < leaseDuration

/-- `ReservationConfig::new`. -/
def ReservationConfig.new (ownerId : OwnerId) (leaseDuration : Nat) : Option ReservationConfig :=
  if h : 0 < (leaseDuration : Int) then some ⟨ownerId, leaseDuration, h⟩ else none

structure ReservationPermit where
  fence : OwnerFence
  deriving DecidableEq

inductive ReservationDecision where
  | proceed (permit : ReservationPermit)
  | replay (response : StoredServiceResponse)
  deriving DecidableEq

inductive ReservationRejection where
  | selfInProgress
  | otherInProgress
  | fingerprintConflict
  | storeUnavailable
  | storedResponseIncompatible
  | requestNotFingerprintable
  | tenantUnresolved
  deriving DecidableEq

/-- The six-way mapping of `ReservationConfig::reserve`, and its `map_err`. -/
def decideOutcome : Reply → Except ReservationRejection ReservationDecision
  | .outcome (.fresh lease) => .ok (.proceed ⟨lease.fence⟩)
  | .outcome (.takenOver lease) => .ok (.proceed ⟨lease.fence⟩)
  | .outcome (.ownedInProgress _) => .error .selfInProgress
  | .outcome .otherInProgress => .error .otherInProgress
  | .outcome (.succeeded response) => .ok (.replay response)
  | .outcome .conflict => .error .fingerprintConflict
  | _ => .error .storeUnavailable

/-- The clock readings and the store's choice of one store call. `leaseClock`
is read for `lease_until`, before the store reads `storeClock`. -/
structure StoreTurn (P : ReservationPort) where
  leaseClock : Timestamp
  storeClock : Timestamp
  choice : P.Choice

section
variable {P : ReservationPort}

/-- The request `ReservationConfig::reserve` sends. -/
def ReservationConfig.request (config : ReservationConfig) (turn : StoreTurn P)
    (tenant : Option TenantId) (key : OperationKey) (fingerprint : OperationFingerprint) :
    ReserveRequest where
  tenant := tenant
  operationKey := key
  fingerprint := fingerprint
  ownerId := config.ownerId
  leaseUntil := turn.leaseClock + config.leaseDuration

/-- `ReservationConfig::reserve`. -/
def ReservationConfig.reserve (config : ReservationConfig) (turn : StoreTurn P) (s : P.State)
    (tenant : Option TenantId) (key : OperationKey) (fingerprint : OperationFingerprint) :
    P.State × Except ReservationRejection ReservationDecision :=
  let req := config.request turn tenant key fingerprint
  let (s', reply) := P.step s turn.storeClock turn.choice (.reserve req)
  (s', decideOutcome reply)

/-- `reserve_idempotent_operation`. On success the context carries the
fingerprint, unless nothing was reserved. -/
def reserveIdempotentOperation (reservation : Option ReservationConfig) (turn : StoreTurn P)
    (s : P.State) (ctx : ServiceContext) (fingerprint : OperationFingerprint) :
    P.State × Except ReservationRejection (ServiceContext × Option ReservationDecision) :=
  match reservation, ctx.operationKey with
  | some config, some key =>
    match ctx.resolvedTenant with
    | none => (s, .error .tenantUnresolved)
    | some resolved =>
      match config.reserve turn s resolved.tenantId key fingerprint with
      | (s', .ok decision) =>
        (s', .ok ({ ctx with operationFingerprint := some fingerprint }, some decision))
      | (s', .error rejection) => (s', .error rejection)
  | _, _ => (s, .ok (ctx, none))

/-- `complete_idempotent_operation`, with the call it made and its reply. The
runtime swallows every error. -/
def completeIdempotentOperation (reservation : Option ReservationConfig) (turn : StoreTurn P)
    (s : P.State) (decision : Option ReservationDecision)
    (encoded : Option StoredServiceResponse) : P.State × Option (Call × Reply) :=
  match decision, reservation, encoded with
  | some (.proceed permit), some _, some stored =>
    let call := Call.complete permit.fence stored
    let (s', reply) := P.step s turn.storeClock turn.choice call
    (s', some (call, reply))
  | _, _, _ => (s, none)

end

/-! ### Stored responses -/

/-- `serde_json::to_vec` and `serde_json::from_slice`. -/
structure SerdeJson where
  toVec : Json → List UInt8
  fromSlice : List UInt8 → Option Json

/-- How an output type is turned into JSON and back. Both may fail. -/
structure Codec (Out : Type) where
  toValue : Out → Option Json
  fromValue : Json → Option Out

/-- `STORED_RESPONSE_ENVELOPE`. -/
def storedResponseEnvelope : Nat := 1

inductive StoredResponseError where
  | unknownEnvelope (found expected : Nat)
  | malformed
  deriving DecidableEq

/-- `StoredResponseCodec::encode`. -/
def encodeStoredResponse {Out : Type} (serde : SerdeJson) (codec : Codec Out) (value : Out) :
    Except StoredResponseError StoredServiceResponse :=
  match codec.toValue value with
  | some payload =>
    .ok ⟨serde.toVec (.object
      [("v", .number (toString storedResponseEnvelope)), ("payload", payload)])⟩
  | none => .error .malformed

/-- `StoredResponseCodec::decode`. -/
def decodeEnvelope {Out : Type} (serde : SerdeJson) (codec : Codec Out)
    (stored : StoredServiceResponse) : Except StoredResponseError Out :=
  match serde.fromSlice stored.bytes with
  | none => .error .malformed
  | some tagged =>
    match (tagged.get? "v").bind Json.asU64 with
    | none => .error .malformed
    | some found =>
      -- `u32::try_from`
      if found ≥ 2 ^ 32 then .error .malformed
      else if found ≠ storedResponseEnvelope then
        .error (.unknownEnvelope found storedResponseEnvelope)
      else
        match (tagged.get? "payload").bind codec.fromValue with
        | none => .error .malformed
        | some value => .ok value

/-- `decode_stored_response`: every codec error is one rejection. -/
def decodeStoredResponse {Out : Type} (serde : SerdeJson) (codec : Codec Out)
    (stored : StoredServiceResponse) : Except ReservationRejection Out :=
  (decodeEnvelope serde codec stored).mapError fun _ => .storedResponseIncompatible

/-! ### What the two methods come to -/

theorem decideOutcome_proceed {reply : Reply} {permit : ReservationPermit}
    (h : decideOutcome reply = .ok (.proceed permit)) : reply.Grants permit.fence := by
  unfold decideOutcome at h
  split at h <;> simp_all [Reply.Grants, Reply.granted, ReservationOutcome.granted]
  · exact congrArg ReservationPermit.fence h
  · exact congrArg ReservationPermit.fence h

theorem decideOutcome_replay {reply : Reply} {response : StoredServiceResponse}
    (h : decideOutcome reply = .ok (.replay response)) :
    reply = .outcome (.succeeded response) := by
  unfold decideOutcome at h
  split at h <;> simp_all

end EgoRs
