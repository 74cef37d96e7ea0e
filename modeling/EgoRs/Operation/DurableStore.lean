import Mathlib.Data.List.AList
import EgoRs.Framework.Machine
import EgoRs.Operation.Reservation

/-! # The Durable Reservation Stores

`StoolapOperationReservationStore`
(`persistence-stoolap/src/operation/reservation.rs`) and
`PostgresOperationReservationStore`
(`persistence/src/postgres/reservation.rs`): the same calls, as SQL
statements on one table. They differ in how a tenant and a response are
written into a column and in how a purge is carried out.

A statement is atomic and means what its `WHERE` clause says; the pair of
tenant and operation key is unique; a column keeps what is written into
it. Between two statements of a call anything may happen: a call is a
small program, and a run interleaves the statements and clock readings
of any number of calls.
-/

namespace EgoRs.Durable

open Framework

/-! ## The table -/

inductive Backend where
  | stoolap
  | postgres
  deriving DecidableEq

/-- The unique pair of columns. `tenant_id` may be `NULL` in Postgres only. -/
structure RowKey where
  tenantId : Option String
  operationKey : String
  deriving DecidableEq

/-- `encode_tenant` and `tenant_column`. -/
def Backend.tenantColumn : Backend → Option TenantId → Option String
  | .stoolap, tenant => some ((tenant.map TenantId.value).getD "")
  | .postgres, tenant => tenant.map TenantId.value

def Backend.rowKey (b : Backend) (id : OperationId) : RowKey :=
  ⟨b.tenantColumn id.tenant, id.operationKey.value⟩

/-- A `response` column: text in Stoolap, bytes in Postgres. -/
inductive ResponseCell where
  | text (s : String)
  | bytes (bytes : List UInt8)
  deriving DecidableEq

/-- The base64 crate, of which only this is used: it decodes what it encoded. -/
class Base64 where
  encode : List UInt8 → String
  decode : String → Option (List UInt8)
  decode_encode : ∀ bytes, decode (encode bytes) = some bytes

def Backend.encodeResponse [Base64] : Backend → StoredServiceResponse → ResponseCell
  | .stoolap, response => .text (Base64.encode response.bytes)
  | .postgres, response => .bytes response.bytes

/-- The response in a cell of the backend's own column type. -/
def Backend.decodeResponse [Base64] : Backend → ResponseCell → Option StoredServiceResponse
  | .stoolap, .text s => (Base64.decode s).map StoredServiceResponse.mk
  | .postgres, .bytes bytes => some ⟨bytes⟩
  | _, _ => none

/-- The two literals of the `state` column. -/
inductive RowState where
  | inProgress
  | completed
  deriving DecidableEq

/-- A row of `operation_reservations`, without its key. Completing a row leaves
its owner, token and lease where they are. -/
structure Row where
  fingerprint : String
  ownerId : String
  /-- A `BIGINT`. -/
  fencingToken : Int
  leaseUntil : Timestamp
  state : RowState
  completedAt : Option Timestamp
  response : Option ResponseCell
  deriving DecidableEq

abbrev Table : Type := AList (fun _ : RowKey => Row)

def tokenForStorage (token : FencingToken) : Except ReservationError Int :=
  if token.value < 2 ^ 63 then .ok token.value else .error .fencingExhausted

/-- The text for a token no writer of ours could have stored. -/
def Backend.notPositive : Backend → Int → String
  | .stoolap, raw => "stored fencing_token " ++ toString raw ++
      " is not positive; the sequence starts at 1"
  | .postgres, raw => "stored fencing_token " ++ toString raw ++
      " is not positive; the sequence starts at 1 and the table's own CHECK forbids anything else"

def Backend.tokenFromStorage (b : Backend) (raw : Int) : Except ReservationError FencingToken :=
  if raw ≤ 0 then .error (.backend (b.notPositive raw))
  else if h : raw.toNat < 2 ^ 64 then .ok ⟨raw.toNat, h⟩
  else .error (.backend ("stored fencing_token " ++ toString raw ++ " is not representable"))

/-! ## Statements

Each returns the table and the number of rows it affected. -/

/-- The row of a first attempt. -/
def insertedRow (req : ReserveRequest) : Row where
  fingerprint := req.fingerprint.value
  ownerId := req.ownerId.value
  fencingToken := FencingToken.initial.value
  leaseUntil := req.leaseUntil
  state := .inProgress
  completedAt := none
  response := none

/-- `INSERT ... ON CONFLICT DO NOTHING`. -/
def insertReservation (b : Backend) (table : Table) (req : ReserveRequest) : Table × Nat :=
  match table.lookup (b.rowKey req.operationId) with
  | some _ => (table, 0)
  | none => (table.insert (b.rowKey req.operationId) (insertedRow req), 1)

/-- The takeover's `WHERE`: still in progress, under the token that was read,
with an expired lease. The fingerprint is not looked at again. -/
def Row.takeable (row : Row) (readToken : Int) (now : Timestamp) : Bool :=
  decide (row.state = .inProgress) && decide (row.fencingToken = readToken) &&
    decide (row.leaseUntil ≤ now)

def Row.takenBy (row : Row) (req : ReserveRequest) (next : Int) : Row :=
  { row with
    ownerId := req.ownerId.value
    fencingToken := next
    leaseUntil := req.leaseUntil }

/-- The takeover's `UPDATE`. -/
def takeOver (b : Backend) (table : Table) (req : ReserveRequest) (readToken next : Int)
    (now : Timestamp) : Table × Nat :=
  match table.lookup (b.rowKey req.operationId) with
  | some row =>
    if row.takeable readToken now then
      (table.insert (b.rowKey req.operationId) (row.takenBy req next), 1)
    else (table, 0)
  | none => (table, 0)

/-- The `WHERE` of `renew`, `complete` and `abandon`. -/
def Row.heldBy (row : Row) (fence : OwnerFence) (token : Int) (now : Timestamp) : Bool :=
  decide (row.ownerId = fence.ownerId.value) && decide (row.fencingToken = token) &&
    decide (row.state = .inProgress) && decide (now < row.leaseUntil)

/-- What `renew` and `complete` set; `abandon` deletes the row. -/
def Row.set [Base64] (b : Backend) (row : Row) (call : Call) (now : Timestamp) : Option Row :=
  match call with
  | .renew _ until' => some { row with leaseUntil := until' }
  | .complete _ response =>
    some { row with
      state := .completed
      completedAt := some now
      response := some (b.encodeResponse response) }
  | _ => none

/-- The table after the row under `key` is set, or deleted. -/
def mutated (table : Table) (key : RowKey) : Option Row → Table
  | some row => table.insert key row
  | none => table.erase key

/-- The one statement of `renew`, `complete` and `abandon`. -/
def mutateOwned [Base64] (b : Backend) (table : Table) (call : Call) (fence : OwnerFence)
    (token : Int) (now : Timestamp) : Table × Nat :=
  match table.lookup (b.rowKey fence.operationId) with
  | some row =>
    if row.heldBy fence token now then
      (mutated table (b.rowKey fence.operationId) (row.set b call now), 1)
    else (table, 0)
  | none => (table, 0)

/-- An order in which the database happens to visit the rows. -/
structure ScanOrder where
  arrange : List RowKey → List RowKey
  perm : ∀ l, (arrange l).Perm l

def ScanOrder.stored : ScanOrder := ⟨id, fun _ => .refl _⟩

/-- `state = 'completed' AND completed_at < cutoff`. -/
def Row.purgeable (cutoff : Timestamp) (row : Row) : Bool :=
  match row.state, row.completedAt with
  | .completed, some at' => decide (at' < cutoff)
  | _, _ => false

/-- Whether the table has a purgeable row under `key`. -/
def eligible (table : Table) (cutoff : Timestamp) (key : RowKey) : Bool :=
  match table.lookup key with
  | some row => row.purgeable cutoff
  | none => false

/-- `SELECT ... WHERE ... LIMIT batch`. A limit above `i64::MAX` is passed as
that, more than any table holds. -/
def purgeSelection (table : Table) (scan : ScanOrder) (cutoff : Timestamp) (batch : Nat) :
    List RowKey :=
  ((scan.arrange table.keys).filter (eligible table cutoff)).take batch

def eraseAll (table : Table) (keys : List RowKey) : Table :=
  keys.foldl (fun table key => table.erase key) table

/-- Stoolap's `DELETE` of one candidate, which asserts its eligibility again. -/
def deleteCandidate (table : Table) (cutoff : Timestamp) (key : RowKey) : Table × Nat :=
  if eligible table cutoff key then (table.erase key, 1) else (table, 0)

/-! ## Calls as programs -/

/-- How far a call has got: what it does next, or what it returned. -/
inductive Progress where
  | reserveInsert (req : ReserveRequest)
  /-- The insert met a row. -/
  | reserveSelect (req : ReserveRequest)
  /-- It read a row in progress under its own fingerprint. -/
  | reserveClock (req : ReserveRequest) (existing : Row)
  /-- It found the lease expired. -/
  | reserveTakeover (req : ReserveRequest) (existing : Row) (next : FencingToken)
      (nextRaw : Int) (now : Timestamp)
  /-- Its takeover matched no row. -/
  | reserveReread (req : ReserveRequest) (now : Timestamp)
  | mutateClock (call : Call) (fence : OwnerFence)
  | mutateStatement (call : Call) (fence : OwnerFence) (token : Int) (now : Timestamp)
  | purgeStatement (cutoff : Timestamp) (batch : Nat)
  /-- Stoolap only: candidates still to be deleted, and the count so far. -/
  | purgeDelete (cutoff : Timestamp) (remaining : List RowKey) (deleted : Nat)
  | returned (reply : Reply)

def begin : Call → Progress
  | .reserve req => .reserveInsert req
  | .renew fence until' => .mutateClock (.renew fence until') fence
  | .complete fence response => .mutateClock (.complete fence response) fence
  | .abandon fence => .mutateClock (.abandon fence) fence
  | .purgeCompletedBefore cutoff batch => .purgeStatement cutoff batch

/-- The errors of a row that vanished between two statements. -/
def disappearedBeforeRead : ReservationError :=
  .backend "the reservation disappeared between the insert conflict and the read; retry the reserve"

def disappearedDuringTakeover : ReservationError :=
  .backend "the reservation disappeared during a takeover race; retry the reserve"

/-- A call that returns one of them asks its caller to try again. -/
def Disappeared (reply : Reply) : Prop :=
  reply = .failed disappearedBeforeRead ∨ reply = .failed disappearedDuringTakeover

instance (reply : Reply) : Decidable (Disappeared reply) :=
  inferInstanceAs (Decidable (_ ∨ _))

@[simp] theorem not_disappeared_outcome (o : ReservationOutcome) : ¬ Disappeared (.outcome o) := by
  simp [Disappeared]

@[simp] theorem not_disappeared_done : ¬ Disappeared .done := by
  simp [Disappeared]

@[simp] theorem not_disappeared_purged (count : Nat) : ¬ Disappeared (.purged count) := by
  simp [Disappeared]

@[simp] theorem not_disappeared_staleOwner : ¬ Disappeared (.failed .staleOwner) := by
  simp [Disappeared, disappearedBeforeRead, disappearedDuringTakeover]

/-- `OwnedInProgress` or `OtherInProgress`, by the owner of the row. -/
def inProgressReply (b : Backend) (req : ReserveRequest) (row : Row) : Reply :=
  if row.ownerId = req.ownerId.value then
    match b.tokenFromStorage row.fencingToken with
    | .ok token =>
      .outcome (.ownedInProgress ⟨req.operationId, req.ownerId, token, row.leaseUntil⟩)
    | .error e => .failed e
  else .outcome .otherInProgress

variable [Base64]

/-- The reply to a reserve that reads a completed row. The base64 crate's own
text is left out of the message. -/
def completedReply (b : Backend) (row : Row) : Reply :=
  match row.response with
  | none => .failed (.backend (match b with
      | .stoolap => "a completed reservation has no stored response"
      | .postgres => "a completed reservation has no stored response, which the table's own " ++
          "CHECK constraint forbids"))
  | some cell =>
    match b.decodeResponse cell with
    | some response => .outcome (.succeeded response)
    | none => .failed (.backend "response decode")

/-- After the first read: the fingerprint before anything else. -/
def afterSelect (b : Backend) (req : ReserveRequest) (found : Option Row) : Progress :=
  match found with
  | none => .returned (.failed disappearedBeforeRead)
  | some existing =>
    -- another fingerprint is a conflict whatever the lease or the completion says
    if existing.fingerprint ≠ req.fingerprint.value then .returned (.outcome .conflict)
    else if existing.state = .completed then .returned (completedReply b existing)
    else .reserveClock req existing

/-- After the clock reading: report a live lease, or go for the takeover. -/
def afterClock (b : Backend) (req : ReserveRequest) (existing : Row) (now : Timestamp) :
    Progress :=
  if existing.leaseUntil ≤ now then
    match b.tokenFromStorage existing.fencingToken with
    | .error e => .returned (.failed e)
    | .ok displaced =>
      match displaced.next with
      | none => .returned (.failed .fencingExhausted)
      | some next =>
        -- a token the column cannot hold ends the call before the update is sent
        match tokenForStorage next with
        | .error e => .returned (.failed e)
        | .ok nextRaw => .reserveTakeover req existing next nextRaw now
  else .returned (inProgressReply b req existing)

/-- After the second read: neither the fingerprint, nor the state, nor the
lease of the row is looked at. -/
def afterReread (b : Backend) (req : ReserveRequest) (found : Option Row) : Progress :=
  match found with
  | none => .returned (.failed disappearedDuringTakeover)
  | some after => .returned (inProgressReply b req after)

/-- The next statement of a purge over its candidates. -/
def nextDelete (cutoff : Timestamp) (remaining : List RowKey) (deleted : Nat) : Progress :=
  match remaining with
  | [] => .returned (.purged deleted)
  | _ => .purgeDelete cutoff remaining deleted

/-- One statement, or one clock reading, of a call. `now` is what the clock
shows and `scan` the order a `SELECT` with a limit visits the rows in. -/
def advance (b : Backend) (table : Table) (now : Timestamp) (scan : ScanOrder) :
    Progress → Table × Progress
  | .reserveInsert req =>
    match insertReservation b table req with
    | (table', 1) => (table', .returned (.outcome (.fresh
        ⟨req.operationId, req.ownerId, .initial, req.leaseUntil⟩)))
    | (table', _) => (table', .reserveSelect req)
  | .reserveSelect req => (table, afterSelect b req (table.lookup (b.rowKey req.operationId)))
  | .reserveClock req existing => (table, afterClock b req existing now)
  | .reserveTakeover req existing next nextRaw at' =>
    match takeOver b table req existing.fencingToken nextRaw at' with
    | (table', 1) => (table', .returned (.outcome (.takenOver
        ⟨req.operationId, req.ownerId, next, req.leaseUntil⟩)))
    | (table', _) => (table', .reserveReread req at')
  | .reserveReread req _ => (table, afterReread b req (table.lookup (b.rowKey req.operationId)))
  | .mutateClock call fence =>
    match tokenForStorage fence.fencingToken with
    | .error e => (table, .returned (.failed e))
    | .ok token => (table, .mutateStatement call fence token now)
  | .mutateStatement call fence token at' =>
    match mutateOwned b table call fence token at' with
    -- gone, another owner or token, completed, expired: one answer for all
    | (table', 0) => (table', .returned (.failed .staleOwner))
    | (table', _) => (table', .returned .done)
  | .purgeStatement cutoff batch =>
    let selection := purgeSelection table scan cutoff batch
    match b with
    -- Postgres deletes in the statement that selects, Stoolap one by one later
    | .postgres => (eraseAll table selection, .returned (.purged selection.length))
    | .stoolap => (table, nextDelete cutoff selection 0)
  | .purgeDelete cutoff (key :: rest) deleted =>
    match deleteCandidate table cutoff key with
    | (table', affected) => (table', nextDelete cutoff rest (deleted + affected))
  | .purgeDelete _ [] deleted => (table, .returned (.purged deleted))
  | .returned reply => (table, .returned reply)

/-! ## Runs -/

structure CallState where
  call : Call
  progress : Progress

structure State where
  table : Table
  /-- Every call made so far, in the order they were made. -/
  calls : List CallState

inductive Input where
  | invoke (call : Call)
  /-- Call `i` goes on while the clock shows `now`. -/
  | advance (i : Nat) (now : Timestamp) (scan : ScanOrder := ScanOrder.stored)

inductive Output where
  | invoked (i : Nat)
  | advanced
  | returned (i : Nat) (reply : Reply)
  /-- There is no such call, or it has already returned. -/
  | idle
  deriving DecidableEq

/-- What a step of call `i` shows. -/
def outputOf (i : Nat) : Progress → Output
  | .returned reply => .returned i reply
  | _ => .advanced

def State.step (b : Backend) (s : State) : Input → State × Output
  | .invoke call => ({ s with calls := s.calls ++ [⟨call, begin call⟩] }, .invoked s.calls.length)
  | .advance i now scan =>
    match s.calls[i]? with
    | none => (s, .idle)
    | some ⟨_, .returned _⟩ => (s, .idle)
    | some ⟨call, progress⟩ =>
      match advance b s.table now scan progress with
      | (table, progress') => (⟨table, s.calls.set i ⟨call, progress'⟩⟩, outputOf i progress')

/-- A durable store as a machine, starting with an empty table. -/
def store (b : Backend) : Machine State Input Output where
  init := ⟨∅, []⟩
  step := State.step b

abbrev Event : Type := Transition State Input Output

abbrev History : Type := List Event

end EgoRs.Durable
