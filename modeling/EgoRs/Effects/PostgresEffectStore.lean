import EgoRs.Effects.SqlEffectStore
import EgoRs.Framework.Machine

/-! # The Postgres Effect Store

`PostgresEffectStore` of `effect-store/src/postgres/mod.rs`. `claim_due`
gives a worker a claim on rows, with a lease; every transition checks it.
`mark_in_flight` takes a claim of its own where nobody has one, and
`mark_retryable` gives it up.
-/

namespace EgoRs.Effects

open Framework

structure WorkerId where
  uuid : String
  deriving DecidableEq

/-- `claim_owner`, `claim_expires_at` and `claim_epoch`. -/
structure Claim where
  owner : Option WorkerId
  expiresAt : Option Timestamp
  epoch : Nat
  deriving DecidableEq

/-- `claim_expires_at < now`. -/
def Claim.expired (claim : Claim) (now : Timestamp) : Bool :=
  match claim.expiresAt with
  | some expiresAt => decide (expiresAt < now)
  | none => false

/-- `claim_expires_at > now`. -/
def Claim.live (claim : Claim) (now : Timestamp) : Bool :=
  match claim.expiresAt with
  | some expiresAt => decide (now < expiresAt)
  | none => false

/-- A worker's connection. -/
structure PostgresEffectStore where
  workerId : WorkerId
  lease : Int
  deriving DecidableEq

namespace PostgresEffectStore

/-- The conditions on the claim columns, at the clock reading `now`. -/
def rules (store : PostgresEffectStore) (now : Timestamp) : ClaimRules Claim where
  fresh := ⟨none, none, 0⟩
  mayStart := fun claim =>
    (decide (claim.owner = none) || decide (claim.owner = some store.workerId)) &&
      (decide (claim.expiresAt = none) || claim.live now)
  start := fun claim =>
    { claim with owner := some store.workerId, expiresAt := some (now + store.lease) }
  mayFinish := fun claim => decide (claim.owner = some store.workerId) && claim.live now
  retry := fun claim => { claim with owner := none, expiresAt := none }
  claimable := fun row =>
    (row.record.due now && (decide (row.claim.owner = none) || row.claim.expired now)) ||
      (decide (row.record.state = .inFlight) && row.claim.expired now)
  stamp := fun claim => ⟨some store.workerId, some (now + store.lease), claim.epoch + 1⟩
  recoverable := fun claim => claim.expired now
  refused := fun id _ _ =>
    .conflict ("effect " ++ id.uuid ++ " is claimed by another worker, or its lease has expired")
  refused_permanent := by
    intro id current target message h
    cases h

variable (store : PostgresEffectStore) (now : Timestamp) (tables : EffectTables Claim)

def accept (effect : AcceptedEffect) : EffectTables Claim × Except EffectStoreError Unit :=
  tables.accept (store.rules now) effect

def markInFlight (id : EffectId) : EffectTables Claim × Except EffectStoreError Unit :=
  tables.markInFlight (store.rules now) id

def markSucceeded (wall : Timestamp) (id : EffectId) :
    EffectTables Claim × Except EffectStoreError Unit :=
  tables.markSucceeded (store.rules now) wall id

def markRetryable (id : EffectId) (attempt : Nat) (nextAt : Timestamp) :
    EffectTables Claim × Except EffectStoreError Unit :=
  tables.markRetryable (store.rules now) id attempt nextAt

def markTerminal (wall : Timestamp) (id : EffectId) (reason : TerminalReason) :
    EffectTables Claim × Except EffectStoreError Unit :=
  tables.markTerminal (store.rules now) wall id reason

def claimDue (limit : Nat) (scan : Scan) : EffectTables Claim × List StoredEffect :=
  tables.claimDue (store.rules now) now limit scan

def recoverInFlight : EffectTables Claim := tables.recoverInFlight (store.rules now) now

end PostgresEffectStore

/-- `run_retention` may delete the row. -/
def EffectRow.purgeable (row : EffectRow Claim) (cutoff : Timestamp) : Bool :=
  decide (row.record.state = .succeeded ∨ row.record.state = .terminalFailed) &&
    match row.settledAt with
    | some settledAt => decide (settledAt < cutoff)
    | none => false

/-- The DELETE on `effect_state` of `run_retention`. -/
def runRetention (tables : EffectTables Claim) (cutoff : Timestamp) (batch : Nat)
    (order : IterOrder) : EffectTables Claim :=
  let eligible := ((order.arrange tables.states.keys).filter fun id =>
    (tables.states.lookup id).any fun row => row.purgeable cutoff).take batch
  let states := tables.states.deleteWhere
    fun id row => decide (id ∈ eligible) && row.purgeable cutoff
  { tables with states := states }

/-! ## Workers on one table -/

/-- The shared clock and the tables. -/
structure Shared where
  clock : Timestamp
  tables : EffectTables Claim

/-- A statement of a worker. It is sent with a clock reading, which is `back` old
when the statement is executed. -/
inductive Statement where
  | accept (effect : AcceptedEffect)
  | claimDue (limit : Nat) (scan : Scan)
  | markInFlight (id : EffectId)
  | markSucceeded (wall : Timestamp) (id : EffectId)
  | markRetryable (id : EffectId) (attempt : Nat) (nextAt : Timestamp)
  | markTerminal (wall : Timestamp) (id : EffectId) (reason : TerminalReason)
  | recoverInFlight

inductive SharedInput where
  | advance (time : Nat)
  | call (worker : WorkerId) (back : Nat) (statement : Statement)
  | retention (cutoff : Timestamp) (batch : Nat) (order : IterOrder)

inductive Answer where
  | none
  | claimed (copies : List StoredEffect)
  | result (result : Except EffectStoreError Unit)

/-- What a statement does to the tables, and its answer. -/
def Statement.run (store : PostgresEffectStore) (now : Timestamp) (tables : EffectTables Claim) :
    Statement → EffectTables Claim × Answer
  | .accept effect =>
    let (tables', result) := store.accept now tables effect
    (tables', .result result)
  | .claimDue limit scan =>
    let (tables', copies) := store.claimDue now tables limit scan
    (tables', .claimed copies)
  | .markInFlight id =>
    let (tables', result) := store.markInFlight now tables id
    (tables', .result result)
  | .markSucceeded wall id =>
    let (tables', result) := store.markSucceeded now tables wall id
    (tables', .result result)
  | .markRetryable id attempt nextAt =>
    let (tables', result) := store.markRetryable now tables id attempt nextAt
    (tables', .result result)
  | .markTerminal wall id reason =>
    let (tables', result) := store.markTerminal now tables wall id reason
    (tables', .result result)
  | .recoverInFlight => (store.recoverInFlight now tables, .none)

/-- Any number of workers over one database, each with its lease. -/
def effectTable (lease : WorkerId → Int) : Machine Shared SharedInput Answer where
  init := ⟨0, .new⟩
  step := fun s input =>
    match input with
    | .advance time => ({ s with clock := s.clock + time }, .none)
    | .call worker back statement =>
      let (tables, answer) :=
        statement.run ⟨worker, lease worker⟩ (s.clock - back) s.tables
      ({ s with tables := tables }, answer)
    | .retention cutoff batch order =>
      ({ s with tables := runRetention s.tables cutoff batch order }, .none)

abbrev SharedEvent : Type := Transition Shared SharedInput Answer

abbrev SharedHistory : Type := List SharedEvent

end EgoRs.Effects
