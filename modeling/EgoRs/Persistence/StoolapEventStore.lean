import Mathlib.Data.List.Infix
import EgoRs.Framework.Transactions
import EgoRs.Persistence.EventStore

/-! # The Stoolap Event Store

The appends and the unit of work of `StoolapEventStore`, of
`persistence-stoolap/src/event_sourcing/event_store.rs`, any number of them
at once, one statement at a time.

The engine is snapshot isolated: a transaction sees what was committed when
it began and its own rows. A row whose key another transaction has written
since is a collision. The engine raises it at the insert, or lets the row
in and raises it at the commit; the error is one that `is_write_conflict`
recognises either way. A failed insert leaves the transaction open, with
the rows that went in before it.

Any statement may also fail for reasons of its own. Versions stay far below
`2^63`.
-/

namespace EgoRs.Stoolap

open Framework EventStore

variable {E P : Type}

/-! ## Errors -/

/-- The variants of `stoolap::Error` that `is_write_conflict` tells apart. -/
inductive ErrorKind where
  | uniqueConstraint
  | transactionAborted
  | lockAcquisitionFailed
  | databaseLocked
  | internal (message : String)
  | other
  deriving DecidableEq

/-- `stoolap::Error`, with its `Display` text. -/
structure StoolapError where
  kind : ErrorKind
  text : String
  deriving DecidableEq

def isWriteConflict (e : StoolapError) : Bool :=
  match e.kind with
  | .uniqueConstraint => true
  | .transactionAborted => true
  | .lockAcquisitionFailed => true
  | .databaseLocked => true
  | .internal message =>
    decide ("uncommitted changes from transaction".toList <:+: message.toList) ||
      decide ("write conflict:".toList <+: message.toList)
  | .other => false

/-- What the engine raises for a collision. -/
abbrev WriteConflict : Type := { e : StoolapError // isWriteConflict e = true }

def internalErr (e : StoolapError) : PersistenceError := .internal e.text

/-! ## Rows -/

/-- `SYSTEMWIDE_SCOPE`. -/
def systemwideScope : String := ""

def encodeTenant (resolved : Option String) : String := resolved.getD systemwideScope

/-- A stream, as the table names it. -/
structure ScopedStream where
  scope : String
  aggregateType : String
  aggregateId : String
  deriving DecidableEq

/-- The columns of one event: `P` is its type, payload text and timestamp. -/
structure EventColumns (P : Type) where
  event : P
  operationKey : Option String
  deriving DecidableEq

/-- A row of `events`. -/
structure EventRow (P : Type) where
  stream : ScopedStream
  version : Int
  columns : EventColumns P
  deriving DecidableEq

/-- `UNIQUE (tenant_id, aggregate_type, aggregate_id, version)`. -/
def EventRow.key (row : EventRow P) : ScopedStream × Int := (row.stream, row.version)

def versionsOf (stream : ScopedStream) (rows : List (EventRow P)) : List Int :=
  (rows.filter fun row => decide (row.stream = stream)).map EventRow.version

/-- `SELECT_MAX_VERSION`. -/
def maxVersion (stream : ScopedStream) (rows : List (EventRow P)) : Int :=
  ((versionsOf stream rows).max?).getD 0

/-- `to_event_row`; the payload's serialisation is the caller's type's. -/
def toEventRow (serialize : E → Except String P) (stored : StoredEvent E) :
    Except PersistenceError (EventColumns P) :=
  match serialize stored.event with
  | .ok event => .ok ⟨event, stored.operationKey.map OperationKey.value⟩
  | .error e => .error (.internal e)

/-! ## Calls -/

/-- An append as it enters its transaction. -/
structure AppendCall (P : Type) where
  stream : ScopedStream
  expectedVersion : Int
  rows : List (EventColumns P)
  deriving DecidableEq

/-- What both `append` methods do before their transaction. -/
def prepare (serialize : E → Except String P) (args : AppendArgs E) :
    Except PersistenceError (AppendCall P) := do
  let tenant ← resolveTenant args.tenantId
  let rows ← args.events.mapM (toEventRow serialize)
  return ⟨⟨encodeTenant tenant, args.aggregateType, args.aggregateId⟩, args.expectedVersion, rows⟩

def AppendCall.conflict (call : AppendCall P) (actual : Int) : PersistenceError :=
  .conflict (call.stream.aggregateType ++ "-" ++ call.stream.aggregateId) call.expectedVersion
    actual

/-- The row at position `k` of the batch. -/
def AppendCall.row (call : AppendCall P) (current : Int) (k : Nat) (columns : EventColumns P) :
    EventRow P :=
  ⟨call.stream, current + k + 1, columns⟩

inductive Activity (P : Type) where
  /-- `db.begin()`, of a direct append or of a unit of work. -/
  | beginning (call : Option (AppendCall P))
  /-- A unit of work between two calls. -/
  | idle
  | selecting (call : AppendCall P)
  | inserting (call : AppendCall P) (current : Int) (inserted : Nat)
  /-- The commit of a direct append. -/
  | committing (call : AppendCall P) (newVersion : Int)
  /-- That commit met a write conflict, and the stream is read again. -/
  | rereading (call : AppendCall P)
  /-- The commit of a unit of work. -/
  | publishing
  | done
  deriving DecidableEq

def Activity.call : Activity P → Option (AppendCall P)
  | .beginning call => call
  | .selecting call => some call
  | .inserting call _ _ => some call
  | .committing call _ => some call
  | .rereading call => some call
  | _ => none

structure Session (P : Type) where
  direct : Bool
  /-- How many rows were committed when the transaction began. -/
  snapshot : Nat
  activity : Activity P
  deriving DecidableEq

inductive Answer where
  | begun (result : Except PersistenceError Unit)
  | appended (result : Except PersistenceError Int)
  | committed (result : Except PersistenceError Unit)
  deriving DecidableEq

def Session.at' (session : Session P) (activity : Activity P) : Session P :=
  { session with activity := activity }

/-- What a session's statement leaves: the table, the session, the answer. -/
abbrev Outcome (P : Type) : Type := Db (EventRow P) × Session P × Option Answer

section
variable (db : Db (EventRow P)) (i : Nat) (session : Session P)

/-- What session `i` sees. -/
def visible : List (EventRow P) :=
  db.committed.take session.snapshot ++ db.own i

/-- Another transaction has written the row's key. -/
def collides (row : EventRow P) : Bool :=
  decide (row.key ∈ db.committed.map EventRow.key) || db.heldByOther EventRow.key i row.key

/-- A row of transaction `i` is committed by another: its commit has to fail. -/
def overtaken : Bool :=
  (db.own i).any fun row => decide (row.key ∈ db.committed.map EventRow.key)

/-- The commit of `i` fails. A row two open transactions have may fail the other one instead. -/
def commitCollides (surfaces : Bool) : Bool :=
  overtaken db i || (surfaces && (db.own i).any fun row => db.heldByOther EventRow.key i row.key)

/-! ## Statements -/

/-- An append ends with an error. A direct append drops its transaction; a unit
of work keeps it as it is. -/
def refuse (e : PersistenceError) : Outcome P :=
  if session.direct then (db.discard i, session.at' .done, some (.appended (.error e)))
  else (db, session.at' .idle, some (.appended (.error e)))

/-- `append_into_tx` goes on after `inserted` of its rows. -/
def proceed (call : AppendCall P) (current : Int) (inserted : Nat) : Outcome P :=
  let newVersion := current + call.rows.length
  if inserted < call.rows.length then
    (db, session.at' (.inserting call current inserted), none)
  else if session.direct then (db, session.at' (.committing call newVersion), none)
  else (db, session.at' .idle, some (.appended (.ok newVersion)))

/-- The version check of `append_into_tx`. -/
def select (call : AppendCall P) : Outcome P :=
  let current := maxVersion call.stream (visible db i session)
  if current ≠ call.expectedVersion then refuse db i session (call.conflict current)
  else proceed db session call current 0

/-- One `INSERT` of `append_into_tx`, whose errors all become `Internal`. -/
def insertEvent (call : AppendCall P) (current : Int) (inserted : Nat) (raised : WriteConflict)
    (surfaces : Bool) : Outcome P :=
  match call.rows[inserted]? with
  | none => (db, session, none)
  | some columns =>
    let row := call.row current inserted columns
    if surfaces && collides db i row then refuse db i session (internalErr raised.val)
    else proceed (db.insert i row) session call current (inserted + 1)

/-- The next statement of session `i`; `raised` and `surfaces` are the engine's choices at a
collision. -/
def advance (raised : WriteConflict) (surfaces : Bool) : Outcome P :=
  match session.activity with
  | .beginning none =>
    (db, { session with snapshot := db.committed.length, activity := .idle },
      some (.begun (.ok ())))
  | .beginning (some call) =>
    (db, { session with snapshot := db.committed.length, activity := .selecting call }, none)
  | .selecting call => select db i session call
  | .inserting call current inserted =>
    insertEvent db i session call current inserted raised surfaces
  | .committing call newVersion =>
    if commitCollides db i surfaces then
      -- the error is one that `is_write_conflict` recognises
      (db.discard i, session.at' (.rereading call), none)
    else (db.publish i, session.at' .done, some (.appended (.ok newVersion)))
  | .rereading call =>
    (db, session.at' .done,
      some (.appended (.error (call.conflict (maxVersion call.stream db.committed)))))
  | .publishing =>
    if commitCollides db i surfaces then
      (db.discard i, session.at' .done, some (.committed (.error (internalErr raised.val))))
    else (db.publish i, session.at' .done, some (.committed (.ok ())))
  | .idle => (db, session, none)
  | .done => (db, session, none)

/-- The statement of session `i` fails with `e`, and not for a collision. -/
def fail (e : StoolapError) : Outcome P :=
  match session.activity with
  | .beginning none =>
    (db, session.at' .done, some (.begun (.error (internalErr e))))
  | .beginning (some _) =>
    (db, session.at' .done, some (.appended (.error (internalErr e))))
  | .selecting _ => refuse db i session (internalErr e)
  | .inserting _ _ _ => refuse db i session (internalErr e)
  | .committing call _ =>
    if isWriteConflict e then (db.discard i, session.at' (.rereading call), none)
    else (db.discard i, session.at' .done, some (.appended (.error (internalErr e))))
  | .rereading _ => (db, session.at' .done, some (.appended (.error (internalErr e))))
  | .publishing =>
    (db.discard i, session.at' .done, some (.committed (.error (internalErr e))))
  | .idle => (db, session, none)
  | .done => (db, session, none)

end

/-! ## Runs -/

structure State (P : Type) where
  db : Db (EventRow P)
  sessions : List (Session P)

inductive UnitCall (E : Type) where
  | append (args : AppendArgs E)
  | commit

inductive Input (E : Type) where
  /-- A direct append is called. -/
  | append (args : AppendArgs E)
  /-- A unit of work is asked for. -/
  | begin
  | call (i : Nat) (call : UnitCall E)
  /-- The caller drops the unit of work. -/
  | drop (i : Nat)
  /-- Session `i` goes on. -/
  | advance (i : Nat) (raised : WriteConflict) (surfaces : Bool)
  /-- The statement session `i` is at fails for a reason of its own. -/
  | fail (i : Nat) (e : StoolapError)

abbrev Output : Type := Option (Nat × Answer)

def accept (serialize : E → Except String P) (session : Session P) :
    UnitCall E → Session P × Option Answer
  | .append args =>
    match prepare serialize args with
    | .error e => (session, some (.appended (.error e)))
    | .ok call => (session.at' (.selecting call), none)
  | .commit => (session.at' .publishing, none)

namespace State

def opened (s : State P) (session : Session P) : State P :=
  ⟨s.db.start, s.sessions ++ [session]⟩

/-- What session `i` leaves. -/
def moved (s : State P) (i : Nat) (o : Outcome P) : State P × Output :=
  (⟨o.1, s.sessions.set i o.2.1⟩, o.2.2.map fun answer => (i, answer))

def step (serialize : E → Except String P) (s : State P) : Input E → State P × Output
  | .append args =>
    match prepare serialize args with
    | .error e => (s.opened ⟨true, 0, .done⟩, some (s.sessions.length, .appended (.error e)))
    | .ok call => (s.opened ⟨true, 0, .beginning (some call)⟩, none)
  | .begin => (s.opened ⟨false, 0, .beginning none⟩, none)
  | .call i call =>
    match s.sessions[i]? with
    | some ⟨false, snapshot, .idle⟩ =>
      s.moved i (s.db, accept serialize ⟨false, snapshot, .idle⟩ call)
    | _ => (s, none)
  | .drop i =>
    match s.sessions[i]? with
    | some ⟨false, snapshot, .idle⟩ => s.moved i (s.db.discard i, ⟨false, snapshot, .done⟩, none)
    | _ => (s, none)
  | .advance i raised surfaces =>
    match s.sessions[i]? with
    | none => (s, none)
    | some session => s.moved i (Stoolap.advance s.db i session raised surfaces)
  | .fail i e =>
    match s.sessions[i]? with
    | none => (s, none)
    | some session => s.moved i (Stoolap.fail s.db i session e)

end State

/-- The store as a machine over an empty table. -/
def stoolap (serialize : E → Except String P) : Machine (State P) (Input E) Output where
  init := ⟨⟨[], []⟩, []⟩
  step := State.step serialize

abbrev Event (E P : Type) : Type := Transition (State P) (Input E) Output

abbrev History (E P : Type) : Type := List (Event E P)

end EgoRs.Stoolap
