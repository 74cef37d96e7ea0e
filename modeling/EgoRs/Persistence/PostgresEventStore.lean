import EgoRs.Framework.Transactions
import EgoRs.Persistence.EventStore

/-! # The Postgres Event Store

`PostgreSQLEventStore` and its unit of work, of
`persistence/src/postgres/event_store.rs`, over the `events` and
`operation_receipts` tables of the migrations. Any number of direct
appends and units of work run at once, one statement at a time, in READ
COMMITTED transactions.

Rows are never deleted, and each falls under exactly one of the partial
unique indexes. A statement that fails aborts its transaction: the rows
are gone, every later statement is refused, and the `COMMIT` of an aborted
transaction rolls back and reports no error. An answer to a `COMMIT` may
be lost after it took effect. Versions stay far below `2^63`.
-/

namespace EgoRs.Postgres

open Framework EventStore

variable {E : Type}

/-! ## Rows -/

/-- `IS NOT DISTINCT FROM`: two NULLs are alike, a NULL and a tenant are not. -/
def isNotDistinctFrom : Option String → Option String → Bool
  | none, none => true
  | some a, some b => decide (a = b)
  | _, _ => false

/-- A row of `events`. -/
structure EventRow (E : Type) where
  aggregateType : String
  aggregateId : String
  tenantId : Option String
  version : Int
  stored : StoredEvent E
  deriving DecidableEq

inductive OutcomeKind where
  | events
  | noEvents
  deriving DecidableEq

/-- A row of `operation_receipts`. -/
structure ReceiptRow where
  tenantId : Option String
  aggregateType : String
  aggregateId : String
  operationKey : String
  fingerprint : String
  outcomeKind : OutcomeKind
  versionFrom : Option Int
  versionTo : Option Int
  deriving DecidableEq

inductive Row (E : Type) where
  | event (row : EventRow E)
  | receipt (row : ReceiptRow)
  deriving DecidableEq

/-- The entry of a row in one of the four partial unique indexes. -/
inductive IndexKey where
  /-- `ux_events_identity_tenant` -/
  | eventsTenant (tenant aggregateType aggregateId : String) (version : Int)
  /-- `ux_events_identity_systemwide` -/
  | eventsSystemwide (aggregateType aggregateId : String) (version : Int)
  /-- `ux_operation_receipts_identity_tenant` -/
  | receiptsTenant (tenant aggregateType aggregateId operationKey : String)
  /-- `ux_operation_receipts_identity_systemwide` -/
  | receiptsSystemwide (aggregateType aggregateId operationKey : String)
  deriving DecidableEq

/-- The `WHERE` clauses of the indexes are complementary: every row has one
entry. -/
def Row.indexKey : Row E → IndexKey
  | .event row =>
    match row.tenantId with
    | some tenant => .eventsTenant tenant row.aggregateType row.aggregateId row.version
    | none => .eventsSystemwide row.aggregateType row.aggregateId row.version
  | .receipt row =>
    match row.tenantId with
    | some tenant => .receiptsTenant tenant row.aggregateType row.aggregateId row.operationKey
    | none => .receiptsSystemwide row.aggregateType row.aggregateId row.operationKey

/-- The `WHERE` clause every query of `events` has. -/
def EventRow.isOf (row : EventRow E) (stream : StreamKey) : Bool :=
  decide (row.aggregateType = stream.aggregateType) &&
    decide (row.aggregateId = stream.aggregateId) &&
    isNotDistinctFrom row.tenantId stream.tenant

/-- The `WHERE` clause every query of `operation_receipts` has. -/
def ReceiptRow.isUnder (row : ReceiptRow) (key : ReceiptKey) : Bool :=
  decide (row.aggregateType = key.aggregateType) &&
    decide (row.aggregateId = key.aggregateId) &&
    isNotDistinctFrom row.tenantId key.tenant &&
    decide (row.operationKey = key.operationKey)

def Row.eventOf (stream : StreamKey) : Row E → Option (EventRow E)
  | .event row => if row.isOf stream then some row else none
  | .receipt _ => none

def Row.receiptUnder (key : ReceiptKey) : Row E → Option ReceiptRow
  | .receipt row => if row.isUnder key then some row else none
  | .event _ => none

def eventsOf (stream : StreamKey) (rows : List (Row E)) : List (EventRow E) :=
  rows.filterMap (Row.eventOf stream)

/-- `SELECT COALESCE(MAX(version), 0)`. -/
def currentVersion (stream : StreamKey) (rows : List (Row E)) : Int :=
  (((eventsOf stream rows).map EventRow.version).max?).getD 0

/-! ## Receipts -/

/-- The columns `confirm_receipt` binds. -/
def receiptRow (receipt : OperationReceipt) : ReceiptRow where
  tenantId := receipt.tenant.map TenantId.value
  aggregateType := receipt.aggregateType
  aggregateId := receipt.aggregateId
  operationKey := receipt.operationKey.value
  fingerprint := receipt.fingerprint.value
  outcomeKind :=
    match receipt.outcome with
    | .noEvents => .noEvents
    | .events _ _ => .events
  versionFrom :=
    match receipt.outcome with
    | .noEvents => none
    | .events versionFrom _ => some versionFrom
  versionTo :=
    match receipt.outcome with
    | .noEvents => none
    | .events _ versionTo => some versionTo

/-- `operation_receipts_outcome_is_consistent`. -/
def ReceiptRow.consistent (row : ReceiptRow) : Bool :=
  match row.outcomeKind, row.versionFrom, row.versionTo with
  | .noEvents, none, none => true
  | .events, some versionFrom, some versionTo => decide (versionFrom ≤ versionTo)
  | _, _, _ => false

/-- The text of `outcome_kind`. -/
def OutcomeKind.text : OutcomeKind → String
  | .events => "events"
  | .noEvents => "no_events"

/-- The `Debug` text of an `Option<i64>`. -/
def optionText : Option Int → String
  | some n => "Some(" ++ toString n ++ ")"
  | none => "None"

def ReceiptRow.outcome (row : ReceiptRow) : Except PersistenceError AggregateOutcome :=
  match row.outcomeKind, row.versionFrom, row.versionTo with
  | .noEvents, none, none => .ok .noEvents
  | .events, some versionFrom, some versionTo =>
    match aggregateOutcomeEvents versionFrom versionTo with
    | .ok outcome => .ok outcome
    | .error e =>
      .error (.internal ("a stored receipt carries an invalid event range: " ++
        aggregateOutcomeErrorText e))
  | _, _, _ =>
    .error (.internal ("a stored receipt carries an outcome this adapter cannot read: kind \"" ++
      row.outcomeKind.text ++ "\", range " ++ optionText row.versionFrom ++ "..=" ++
      optionText row.versionTo))

def ReceiptRow.tenant (row : ReceiptRow) : Except PersistenceError (Option TenantId) :=
  match row.tenantId with
  | none => .ok none
  | some raw =>
    match TenantId.new raw with
    | some tenant => .ok (some tenant)
    | none => .error (.internal "a stored receipt carries a tenant_id the domain rejects")

/-- The receipt a row stands for, looked up under `operationKey`. -/
def ReceiptRow.read (row : ReceiptRow) (aggregateType aggregateId operationKey : String) :
    Except PersistenceError OperationReceipt := do
  let outcome ← row.outcome
  let tenant ← row.tenant
  match OperationKey.parse operationKey with
  | .error e =>
    throw (.internal ("a stored receipt carries an invalid key: " ++ operationKeyErrorText e))
  | .ok key => return ⟨aggregateType, aggregateId, tenant, key, ⟨row.fingerprint⟩, outcome⟩

/-- `find_receipt`, on the committed rows. -/
def findReceipt (rows : List (Row E)) (aggregateType aggregateId : String)
    (tenantId : Option String) (operationKey : String) :
    Except PersistenceError (Option OperationReceipt) := do
  let tenant ← resolveTenant tenantId
  match rows.findSome? (Row.receiptUnder ⟨aggregateType, aggregateId, tenant, operationKey⟩) with
  | none => return none
  | some row =>
    let receipt ← row.read aggregateType aggregateId operationKey
    return some receipt

/-! ## Calls -/

/-- An append whose tenant has been resolved. -/
structure AppendCall (E : Type) where
  args : AppendArgs E
  stream : StreamKey
  resolved : args.key = .ok stream

/-- The row of the event at position `k` of the batch, `current` being what the
version check read. -/
def AppendCall.row (call : AppendCall E) (current : Int) (k : Nat) (stored : StoredEvent E) :
    Row E :=
  .event {
    aggregateType := call.args.aggregateType
    aggregateId := call.args.aggregateId
    tenantId := call.stream.tenant
    version := current + k + 1
    stored := stored }

/-- The statement a session is at. -/
inductive Activity (E : Type) where
  /-- `pool.begin()`, of a direct append or of a unit of work. -/
  | beginning (call : Option (AppendCall E))
  /-- A unit of work between two calls. -/
  | idle
  | selecting (call : AppendCall E)
  | inserting (call : AppendCall E) (current : Int) (inserted : Nat)
  /-- A row of the batch was refused; the stream is read again on another
      connection. -/
  | rereading (call : AppendCall E)
  /-- The `COMMIT` of a direct append. -/
  | committing (call : AppendCall E) (newVersion : Int)
  | confirming (receipt : OperationReceipt)
  /-- The receipt was not inserted, and the one that is there is read. -/
  | comparing (receipt : OperationReceipt)
  /-- The `COMMIT` of a unit of work. -/
  | publishing
  /-- Dropped; the transaction is still to be rolled back. -/
  | closing
  | done

/-- The append a session is in. -/
def Activity.call : Activity E → Option (AppendCall E)
  | .beginning call => call
  | .selecting call => some call
  | .inserting call _ _ => some call
  | .rereading call => some call
  | .committing call _ => some call
  | _ => none

/-- A direct append or a unit of work, with its transaction. -/
structure Session (E : Type) where
  direct : Bool
  aborted : Bool
  activity : Activity E

inductive Answer where
  | begun (result : Except PersistenceError Unit)
  | appended (result : Except PersistenceError Int)
  | confirmed (result : Except PersistenceError Unit)
  | committed (result : Except PersistenceError Unit)
  deriving DecidableEq

namespace Session

def at' (session : Session E) (activity : Activity E) : Session E :=
  { session with activity := activity }

/-- After a call that was answered: a direct append is over, and a unit of work
waits for its next call. -/
def answered (session : Session E) : Session E :=
  session.at' (if session.direct then .done else .idle)

/-- After a statement that failed in the transaction. -/
def abort (session : Session E) : Session E :=
  { session with aborted := true }

end Session

/-- What a session's statement leaves: the tables, the session, the answer. -/
abbrev Outcome (E : Type) : Type := Db (Row E) × Session E × Option Answer

/-! ## Statements -/

/-- The text of a statement in an aborted transaction. -/
def abortedText : String :=
  "current transaction is aborted, commands ignored until end of transaction block"

def duplicateText : String := "duplicate key value violates unique constraint"

def checkText : String := "new row violates check constraint"

/-- What a call answers when its statement fails. -/
def failure (reason : String) : Activity E → Option Answer
  | .beginning none =>
    some (.begun (.error (.internal ("failed to begin transaction: " ++ reason))))
  | .beginning (some _) =>
    some (.appended (.error (.internal ("failed to begin transaction: " ++ reason))))
  | .selecting _ =>
    some (.appended (.error (.internal ("failed to query current version: " ++ reason))))
  | .inserting _ _ _ =>
    some (.appended (.error (.internal ("failed to insert event: " ++ reason))))
  | .rereading _ =>
    some (.appended (.error (.internal ("the stream identity was already taken (" ++
      duplicateText ++ "), and re-reading the stream to report its current version also failed: "
      ++ reason))))
  | .committing _ _ =>
    some (.appended (.error (.internal ("failed to commit transaction: " ++ reason))))
  | .confirming _ =>
    some (.confirmed (.error (.internal ("failed to write receipt: " ++ reason))))
  | .comparing _ =>
    some (.confirmed (.error (.internal ("failed to read the winning receipt: " ++ reason))))
  | .publishing =>
    some (.committed (.error (.internal ("failed to commit transaction: " ++ reason))))
  | .idle => none
  | .closing => none
  | .done => none

section
variable (db : Db (Row E)) (i : Nat) (session : Session E)

/-- The statement of session `i` fails, and a `COMMIT` may have taken effect. -/
def fail (reason : String) (tookEffect : Bool) : Outcome E :=
  let answer := failure reason session.activity
  match session.activity with
  | .beginning _ => (db, session.at' .done, answer)
  | .committing _ _ =>
    (if tookEffect then db.publish i else db.discard i, session.at' .done, answer)
  | .publishing =>
    (if tookEffect && !session.aborted then db.publish i else db.discard i,
      session.at' .done, answer)
  -- this statement is not in the transaction
  | .rereading _ => (db, session.answered, answer)
  | .idle => (db, session, none)
  | .closing => (db, session, none)
  | .done => (db, session, none)
  | _ => (db.discard i, session.answered.abort, answer)

/-- The batch goes on after `inserted` of its rows. -/
def proceed (call : AppendCall E) (current : Int) (inserted : Nat) : Outcome E :=
  let newVersion := current + call.args.events.length
  if inserted < call.args.events.length then
    (db, session.at' (.inserting call current inserted), none)
  else if session.direct then (db, session.at' (.committing call newVersion), none)
  else (db, session.at' .idle, some (.appended (.ok newVersion)))

/-- The version check. -/
def select (call : AppendCall E) : Outcome E :=
  let current := currentVersion call.stream (db.visible i)
  if current ≠ call.args.expectedVersion then
    -- a direct append drops its transaction, which has no rows
    (db, session.answered, some (.appended (.error (call.args.versionConflict current))))
  else proceed db session call current 0

/-- One `INSERT` of the batch. -/
def insertEvent (call : AppendCall E) (current : Int) (inserted : Nat) : Outcome E :=
  match call.args.events[inserted]? with
  | none => (db, session, none)
  | some stored =>
    let row := call.row current inserted stored
    if db.heldByOther Row.indexKey i row.indexKey then (db, session, none)
    else if db.taken Row.indexKey i row.indexKey then
      -- 23505
      (db.discard i, (session.at' (.rereading call)).abort, none)
    else proceed (db.insert i row) session call current (inserted + 1)

/-- `INSERT ... ON CONFLICT DO NOTHING`. -/
def insertReceipt (receipt : OperationReceipt) : Outcome E :=
  let row : Row E := .receipt (receiptRow receipt)
  if (receiptRow receipt).consistent = false then fail db i session checkText false
  else if db.heldByOther Row.indexKey i row.indexKey then (db, session, none)
  else if db.taken Row.indexKey i row.indexKey then
    (db, session.at' (.comparing receipt), none)
  else (db.insert i row, session.at' .idle, some (.confirmed (.ok ())))

/-- What `confirm_receipt` makes of the fingerprint that is there. -/
def compare (found : Option ReceiptRow) (receipt : OperationReceipt) :
    Except PersistenceError Unit :=
  match found with
  | some row =>
    if row.fingerprint = receipt.fingerprint.value then .ok ()
    else .error (.conflict (receipt.aggregateType ++ "-" ++ receipt.aggregateId) 0 0)
  | none =>
    .error (.internal ("a receipt insert conflicted with a row the equivalent lookup cannot " ++
      "find; the write and read identities disagree"))

/-- The next statement of session `i`, if it need not wait. -/
def advance : Outcome E :=
  match session.activity with
  | .beginning none => (db, session.at' .idle, some (.begun (.ok ())))
  | .beginning (some call) => (db, session.at' (.selecting call), none)
  | .selecting call =>
    if session.aborted then fail db i session abortedText false else select db i session call
  | .inserting call current inserted => insertEvent db i session call current inserted
  | .rereading call =>
    let actual := currentVersion call.stream db.committed
    (db, session.answered, some (.appended (.error (call.args.versionConflict actual))))
  | .committing _ newVersion => (db.publish i, session.at' .done, some (.appended (.ok newVersion)))
  | .confirming receipt =>
    if session.aborted then fail db i session abortedText false
    else insertReceipt db i session receipt
  | .comparing receipt =>
    let found := (db.visible i).findSome? (Row.receiptUnder (receiptKey receipt))
    (db, session.at' .idle, some (.confirmed (compare found receipt)))
  | .publishing =>
    (if session.aborted then db.discard i else db.publish i,
      session.at' .done, some (.committed (.ok ())))
  | .closing => (db.discard i, session.at' .done, none)
  | .idle => (db, session, none)
  | .done => (db, session, none)

end

/-! ## Runs -/

structure State (E : Type) where
  db : Db (Row E)
  sessions : List (Session E)

/-- The calls a unit of work takes. -/
inductive UnitCall (E : Type) where
  | append (args : AppendArgs E)
  | confirmReceipt (receipt : OperationReceipt)
  | commit

inductive Input (E : Type) where
  /-- A direct append is called. -/
  | append (args : AppendArgs E)
  /-- A unit of work is asked for. -/
  | begin
  | call (i : Nat) (call : UnitCall E)
  /-- The caller drops the unit of work, or the future of a direct append. -/
  | drop (i : Nat)
  /-- Session `i` goes on. -/
  | advance (i : Nat)
  /-- The statement session `i` is at fails. -/
  | fail (i : Nat) (reason : String) (tookEffect : Bool)

/-- The session whose call a step answers, and the answer. -/
abbrev Output : Type := Option (Nat × Answer)

/-- The append, once its tenant is resolved. -/
def resolve (args : AppendArgs E) : Except PersistenceError (AppendCall E) :=
  match h : args.key with
  | .error e => .error e
  | .ok stream => .ok ⟨args, stream, h⟩

/-- A call on an idle unit of work. -/
def accept (session : Session E) : UnitCall E → Session E × Option Answer
  | .append args =>
    match resolve args with
    | .error e => (session, some (.appended (.error e)))
    | .ok call => (session.at' (.selecting call), none)
  | .confirmReceipt receipt => (session.at' (.confirming receipt), none)
  | .commit => (session.at' .publishing, none)

def Activity.droppable : Activity E → Bool
  | .committing _ _ => false
  | .publishing => false
  | .closing => false
  | .done => false
  | _ => true

namespace State

/-- A session more, and its transaction. -/
def opened (s : State E) (session : Session E) : State E :=
  ⟨s.db.start, s.sessions ++ [session]⟩

/-- What session `i` leaves. -/
def moved (s : State E) (i : Nat) (o : Outcome E) : State E × Output :=
  (⟨o.1, s.sessions.set i o.2.1⟩, o.2.2.map fun answer => (i, answer))

def step (s : State E) : Input E → State E × Output
  | .append args =>
    match resolve args with
    | .error e =>
      (s.opened ⟨true, false, .done⟩, some (s.sessions.length, .appended (.error e)))
    | .ok call => (s.opened ⟨true, false, .beginning (some call)⟩, none)
  | .begin => (s.opened ⟨false, false, .beginning none⟩, none)
  | .call i call =>
    match s.sessions[i]? with
    | some ⟨false, aborted, .idle⟩ => s.moved i (s.db, accept ⟨false, aborted, .idle⟩ call)
    | _ => (s, none)
  | .drop i =>
    match s.sessions[i]? with
    | none => (s, none)
    | some session =>
      if session.activity.droppable then s.moved i (s.db, session.at' .closing, none)
      else (s, none)
  | .advance i =>
    match s.sessions[i]? with
    | none => (s, none)
    | some session => s.moved i (Postgres.advance s.db i session)
  | .fail i reason tookEffect =>
    match s.sessions[i]? with
    | none => (s, none)
    | some session => s.moved i (Postgres.fail s.db i session reason tookEffect)

end State

/-- The store as a machine over empty tables. -/
def postgres (E : Type) : Machine (State E) (Input E) Output where
  init := ⟨⟨[], []⟩, []⟩
  step := State.step

abbrev Event (E : Type) : Type := Transition (State E) (Input E) Output

abbrev History (E : Type) : Type := List (Event E)

end EgoRs.Postgres
