import EgoRs.Persistence.EventStore

/-! # Aggregate Repositories

`InMemoryRepository` of `persistence-memory`, whose methods borrow it
mutably and so run one at a time, and `PostgreSQLRepository` of
`persistence`, any number of whose calls run at once, statement by
statement.

The Postgres half is READ COMMITTED with row locks. A statement sees the
rows that are committed when it starts. `SELECT ... FOR UPDATE` and
`DELETE` then wait for the lock of the row they saw; when they get it they
go on with the row as it has become, or without it if it was deleted, even
if another has been inserted under its key. The upsert waits for whoever
holds the key, then updates the row it meets or inserts one. A refused
`save` drops its transaction, which is rolled back some time later.

A row that is deleted and inserted again is another row; `incarnation`
tells them apart. Any statement may fail, and the answer to one that
commits may be lost after the commit. Versions count saves and stay far
below `2^63`.
-/

namespace EgoRs.Repository

open Framework EventStore

/-- `(aggregate_id, tenant_id)`: the two partial unique indexes allow one row
for each. -/
structure RepoKey where
  aggregateId : String
  tenant : Option String
  deriving DecidableEq

variable {A P : Type}

/-! ## Calls -/

inductive Call (A : Type) where
  | save (aggregateId : String) (aggregate : A) (tenantId : Option String)
      (expectedVersion : Int)
  | load (aggregateId : String) (tenantId : Option String)
  | delete (aggregateId : String) (tenantId : Option String)

namespace Call

def aggregateId : Call A → String
  | .save id _ _ _ => id
  | .load id _ => id
  | .delete id _ => id

def tenantId : Call A → Option String
  | .save _ _ tenant _ => tenant
  | .load _ tenant => tenant
  | .delete _ tenant => tenant

/-- The row a call is about. -/
def key (call : Call A) : Except PersistenceError RepoKey := do
  let tenant ← resolveTenant call.tenantId
  return ⟨call.aggregateId, tenant⟩

end Call

/-- What a call returns; one constructor for each method's success. -/
inductive Answer (A : Type) where
  | saved (version : Int)
  | loaded (aggregate : A)
  | deleted
  | failed (e : PersistenceError)

/-! ## In memory -/

abbrev InMemoryRepository (A : Type) : Type := AList (fun _ : RepoKey => A × Int)

namespace InMemoryRepository

variable (repo : InMemoryRepository A)

/-- The version under `key`; an absent aggregate is at 0. -/
def version (key : RepoKey) : Int :=
  ((repo.lookup key).map Prod.snd).getD 0

def save (key : RepoKey) (aggregate : A) (expectedVersion : Int) :
    InMemoryRepository A × Answer A :=
  let current := repo.version key
  if current ≠ expectedVersion then
    (repo, .failed (.conflict key.aggregateId expectedVersion current))
  else (repo.insert key (aggregate, current + 1), .saved (current + 1))

def load (key : RepoKey) : Answer A :=
  match repo.lookup key with
  | some (aggregate, _) => .loaded aggregate
  | none => .failed (.notFound key.aggregateId)

def delete (key : RepoKey) : InMemoryRepository A × Answer A :=
  match repo.lookup key with
  | some _ => (repo.erase key, .deleted)
  | none => (repo, .failed (.notFound key.aggregateId))

/-- One call, its tenant resolved first. -/
def perform (call : Call A) : InMemoryRepository A × Answer A :=
  match call.key with
  | .error e => (repo, .failed e)
  | .ok key =>
    match call with
    | .save _ aggregate _ expectedVersion => repo.save key aggregate expectedVersion
    | .load _ _ => (repo, repo.load key)
    | .delete _ _ => repo.delete key

end InMemoryRepository

/-! ## Postgres -/

/-- `serde_json::to_value` and the deserializer the repository is built with. -/
structure Codec (A P : Type) where
  serialize : A → Except String P
  deserialize : P → Except PersistenceError A

/-- A row of `aggregates`. -/
structure AggregateRow (P : Type) where
  incarnation : Nat
  version : Int
  payload : P
  deriving DecidableEq

/-- How far a call has got. A `save` carries its serialised aggregate. -/
inductive Activity (P : Type) where
  | opening (payload : P)
  | selecting (payload : P)
  /-- The `SELECT` saw this row and waits for its lock. -/
  | locking (payload : P) (incarnation : Nat)
  /-- The `SELECT` returned this, and the version is the one to write. -/
  | upserting (payload : P) (observed : Option (AggregateRow P)) (newVersion : Int)
  | committing (payload : P) (observed : Option (AggregateRow P)) (newVersion : Int)
  /-- Refused; the transaction is still to be rolled back. -/
  | closing
  | deleting
  /-- The `DELETE` saw this row and waits for its lock. -/
  | removing (incarnation : Nat)
  | loading
  | done

structure Session (A P : Type) where
  call : Call A
  key : RepoKey
  activity : Activity P

structure State (A P : Type) where
  rows : RepoKey → Option (AggregateRow P)
  /-- The session that holds the row under a key, or has written it. -/
  locks : RepoKey → Option Nat
  nextIncarnation : Nat
  sessions : List (Session A P)

inductive Input (A : Type) where
  | invoke (call : Call A)
  /-- Session `i` goes on. -/
  | advance (i : Nat)
  /-- The statement session `i` is at fails; a commit may have taken effect. -/
  | fail (i : Nat) (reason : String) (tookEffect : Bool)

/-- What a step shows: the session whose change it committed, and the session
it answered. -/
structure Output (A : Type) where
  committed : Option Nat
  answer : Option (Nat × Answer A)

def Output.silent : Output A := ⟨none, none⟩

def Output.answered (i : Nat) (answer : Answer A) : Output A := ⟨none, some (i, answer)⟩

namespace State

variable (s : State A P) (i : Nat)

/-- Session `i` is at `activity`. -/
def set (session : Session A P) (activity : Activity P) : State A P :=
  { s with sessions := s.sessions.set i { session with activity := activity } }

def lock (key : RepoKey) : State A P :=
  { s with locks := Function.update s.locks key (some i) }

/-- The lock is gone, if session `i` has it. -/
def unlock (key : RepoKey) : State A P :=
  if s.locks key = some i then { s with locks := Function.update s.locks key none } else s

/-- Another session holds the row. -/
def lockedByOther (key : RepoKey) : Bool :=
  match s.locks key with
  | some j => j ≠ i
  | none => false

/-- The row `incarnation` as it is now, if it is still there. -/
def current (key : RepoKey) (incarnation : Nat) : Option (AggregateRow P) :=
  (s.rows key).filter fun row => row.incarnation = incarnation

/-- The version under `key`; an absent aggregate is at 0. -/
def version (key : RepoKey) : Int :=
  ((s.rows key).map AggregateRow.version).getD 0

end State

section
variable (codec : Codec A P) (s : State A P) (i : Nat) (session : Session A P)

/-- `save` once its `SELECT ... FOR UPDATE` has returned. Without a row the
expected version is not looked at. -/
def afterSelect (payload : P) (expectedVersion : Int) :
    Option (AggregateRow P) → Except Int (Activity P)
  | none => .ok (.upserting payload none 1)
  | some row =>
    if row.version ≠ expectedVersion then .error row.version
    else .ok (.upserting payload (some row) (expectedVersion + 1))

/-- The `SELECT` of session `i` returns `found`, whose lock it has taken. -/
def selected (payload : P) (expectedVersion : Int) (found : Option (AggregateRow P)) :
    State A P × Output A :=
  match afterSelect payload expectedVersion found with
  | .ok activity => (s.set i session activity, .silent)
  | .error actual =>
    (s.set i session .closing, .answered i
      (.failed (.conflict session.key.aggregateId expectedVersion actual)))

/-- The row the upsert leaves, once committed. -/
def upserted (key : RepoKey) (payload : P) (newVersion : Int) : AggregateRow P :=
  ⟨((s.rows key).map AggregateRow.incarnation).getD s.nextIncarnation, newVersion, payload⟩

/-- The commit of a `save`. -/
def commitSave (payload : P) (newVersion : Int) : State A P :=
  ({ s with
      rows := Function.update s.rows session.key
        (some (upserted s session.key payload newVersion))
      nextIncarnation := s.nextIncarnation + 1 }.unlock i session.key).set i session .done

/-- The `DELETE`, which commits by itself. -/
def commitDelete : State A P :=
  { s with rows := Function.update s.rows session.key none }.set i session .done

/-- The transaction of session `i` is gone. -/
def rollback : State A P :=
  (s.unlock i session.key).set i session .done

/-- One statement of session `i`, if it need not wait. -/
def advance : State A P × Output A :=
  match session.activity, session.call with
  | .opening payload, _ => (s.set i session (.selecting payload), .silent)
  | .selecting payload, .save _ _ _ expectedVersion =>
    match s.rows session.key with
    | none => selected s i session payload expectedVersion none
    | some row => (s.set i session (.locking payload row.incarnation), .silent)
  | .locking payload incarnation, .save _ _ _ expectedVersion =>
    if s.lockedByOther i session.key then (s, .silent)
    else
      match s.current session.key incarnation with
      | none => selected s i session payload expectedVersion none
      | some row => selected (s.lock i session.key) i session payload expectedVersion (some row)
  | .upserting payload observed newVersion, _ =>
    if s.lockedByOther i session.key then (s, .silent)
    else ((s.lock i session.key).set i session (.committing payload observed newVersion), .silent)
  | .committing payload _ newVersion, _ =>
    (commitSave s i session payload newVersion, ⟨some i, some (i, .saved newVersion)⟩)
  | .closing, _ => (rollback s i session, .silent)
  | .deleting, _ =>
    match s.rows session.key with
    | none =>
      (s.set i session .done, .answered i (.failed (.notFound session.key.aggregateId)))
    | some row => (s.set i session (.removing row.incarnation), .silent)
  | .removing incarnation, _ =>
    if s.lockedByOther i session.key then (s, .silent)
    else
      match s.current session.key incarnation with
      | none =>
        (s.set i session .done, .answered i (.failed (.notFound session.key.aggregateId)))
      | some _ => (commitDelete s i session, ⟨some i, some (i, .deleted)⟩)
  | .loading, _ =>
    match s.rows session.key with
    | none =>
      (s.set i session .done, .answered i (.failed (.notFound session.key.aggregateId)))
    | some row =>
      (s.set i session .done, .answered i (match codec.deserialize row.payload with
        | .ok aggregate => .loaded aggregate
        | .error e => .failed e))
  | _, _ => (s, .silent)

def failureText (reason : String) : Activity P → String
  | .opening _ => "failed to begin transaction: " ++ reason
  | .selecting _ => "failed to query current version: " ++ reason
  | .locking _ _ => "failed to query current version: " ++ reason
  | .upserting _ _ _ => "failed to save aggregate: " ++ reason
  | .committing _ _ _ => "failed to commit transaction: " ++ reason
  | .deleting => "failed to delete aggregate: " ++ reason
  | .removing _ => "failed to delete aggregate: " ++ reason
  | .loading => "failed to query aggregate: " ++ reason
  -- these are answered already
  | .closing => ""
  | .done => ""

/-- The statement of session `i` fails. -/
def fail (reason : String) (tookEffect : Bool) : State A P × Output A :=
  let answer : Answer A := .failed (.internal (failureText reason session.activity))
  match session.activity with
  | .done => (s, .silent)
  | .closing => (s, .silent)
  | .committing payload _ newVersion =>
    if tookEffect then
      (commitSave s i session payload newVersion, ⟨some i, some (i, answer)⟩)
    else (rollback s i session, .answered i answer)
  | .removing incarnation =>
    if tookEffect ∧ ¬ s.lockedByOther i session.key ∧
        (s.current session.key incarnation).isSome then
      (commitDelete s i session, ⟨some i, some (i, answer)⟩)
    else (rollback s i session, .answered i answer)
  | _ => (rollback s i session, .answered i answer)

end

/-- Where a call starts, or what it answers without a statement. -/
def start (codec : Codec A P) (call : Call A) :
    Except PersistenceError (RepoKey × Activity P) := do
  let key ← call.key
  match call with
  | .save _ aggregate _ _ =>
    match codec.serialize aggregate with
    | .ok payload => return (key, .opening payload)
    | .error e => throw (.internal ("failed to serialize aggregate: " ++ e))
  | .load _ _ => return (key, .loading)
  | .delete _ _ => return (key, .deleting)

def State.step (codec : Codec A P) (s : State A P) : Input A → State A P × Output A
  | .invoke call =>
    match start codec call with
    | .ok (key, activity) => ({ s with sessions := s.sessions ++ [⟨call, key, activity⟩] }, .silent)
    | .error e =>
      ({ s with sessions := s.sessions ++ [⟨call, ⟨call.aggregateId, none⟩, .done⟩] },
        .answered s.sessions.length (.failed e))
  | .advance i =>
    match s.sessions[i]? with
    | none => (s, .silent)
    | some session => advance codec s i session
  | .fail i reason tookEffect =>
    match s.sessions[i]? with
    | none => (s, .silent)
    | some session => fail s i session reason tookEffect

/-- The repository as a machine over an empty table. -/
def postgres (codec : Codec A P) : Machine (State A P) (Input A) (Output A) where
  init := ⟨fun _ => none, fun _ => none, 0, []⟩
  step := State.step codec

abbrev Event (A P : Type) : Type := Transition (State A P) (Input A) (Output A)

abbrev History (A P : Type) : Type := List (Event A P)

end EgoRs.Repository
