import EgoRs.Framework.Table
import EgoRs.Operation.DurableStore

/-! # Read-Side Claims

The port of `persistence-api/src/read_side/claim.rs`, and its two durable
stores: `StoolapReadSideClaimStore`
(`persistence-stoolap/src/read_side/claim.rs`) and
`PostgreSQLReadSideClaimStore`
(`persistence/src/postgres/read_side_claim.rs`).

A call is a small program of statements and readings of the clock. Stoolap
takes a claim with an INSERT, a SELECT, a reading and an UPDATE that checks
again what was read; Postgres with a reading and one statement. `renew` and
`release` are the same UPDATE in both. A run interleaves the statements and
readings of any number of calls.

A statement may fail in the database, which ends its call. It may have taken
effect then: the answer of one that went through can be lost.
-/

namespace EgoRs.ReadSide

open Framework Durable

/-! ## The port -/

@[ext]
structure EventTag where
  value : String
  nonempty : value ≠ ""

instance : DecidableEq EventTag := fun _ _ => decidable_of_iff _ EventTag.ext_iff.symm

def orderTag : EventTag := ⟨"order-events", by decide⟩

structure ClaimId where
  projectionId : String
  tag : EventTag
  tenant : String
  deriving DecidableEq

/-- The triple every mutating call presents. -/
structure ClaimFence where
  claimId : ClaimId
  ownerId : OwnerId
  fencingToken : FencingToken
  deriving DecidableEq

inductive ClaimError where
  | staleOwner
  | fencingExhausted
  | transient (message : String)
  | fatal (message : String)
  deriving DecidableEq

/-- `to_string` of an error. -/
def ClaimError.text : ClaimError → String
  | .staleOwner => "stale owner: the presented fence no longer matches the current claim"
  | .fencingExhausted => "fencing token sequence exhausted for this claim"
  | .transient message => "transient claim store error: " ++ message
  | .fatal message => "fatal claim store error: " ++ message

def toClaimError : ReservationError → ClaimError
  | .fencingExhausted => .fencingExhausted
  | .backend message => .fatal message
  | .staleOwner => .fatal ("unexpected reservation error: " ++
      "stale owner: the presented fence no longer matches the current reservation")

/-- The arguments of `try_claim`. -/
structure TryClaim where
  claimId : ClaimId
  ownerId : OwnerId
  leaseUntil : Timestamp
  deriving DecidableEq

inductive ClaimCall where
  | tryClaim (req : TryClaim)
  | renew (fence : ClaimFence) (leaseUntil : Timestamp)
  | release (fence : ClaimFence)
  deriving DecidableEq

inductive ClaimReply where
  | claimed (fence : Option ClaimFence)
  | done
  | failed (e : ClaimError)
  deriving DecidableEq

/-! ## The table -/

/-- A row of `projection_claims`, without its key. -/
structure ClaimRow where
  ownerId : OwnerId
  /-- A `BIGINT`. -/
  fencingToken : Int
  leaseUntil : Timestamp
  deriving DecidableEq

abbrev ClaimTable : Type := Framework.Table ClaimId ClaimRow

/-- The INSERT of Stoolap's `try_claim`. -/
def insertClaim (table : ClaimTable) (req : TryClaim) : ClaimTable × Bool :=
  table.insertNew req.claimId ⟨req.ownerId, FencingToken.initial.value, req.leaseUntil⟩

/-- Its UPDATE: still the token that was read, and the lease has lapsed. -/
def takeOver (table : ClaimTable) (req : TryClaim) (displaced next : Int) (now : Timestamp) :
    ClaimTable × Bool :=
  table.updateRow req.claimId
    (fun row => decide (row.fencingToken = displaced) && decide (row.leaseUntil ≤ now))
    fun _ => ⟨req.ownerId, next, req.leaseUntil⟩

/-- The one statement of Postgres' `try_claim`, and the token it returns. A token the
column can not hold is an error of the statement. -/
def upsertClaim (table : ClaimTable) (req : TryClaim) (now : Timestamp) :
    ClaimTable × Except ClaimError (Option Int) :=
  match table.lookup req.claimId with
  | none => (table.insert req.claimId ⟨req.ownerId, 1, req.leaseUntil⟩, .ok (some 1))
  | some row =>
    if row.leaseUntil ≤ now then
      if row.fencingToken + 1 < 2 ^ 63 then
        (table.insert req.claimId ⟨req.ownerId, row.fencingToken + 1, req.leaseUntil⟩,
          .ok (some (row.fencingToken + 1)))
      else (table, .error .fencingExhausted)
    else (table, .ok none)

/-- The UPDATE of `renew` and `release`. -/
def setLease (table : ClaimTable) (fence : ClaimFence) (token : Int) (leaseUntil now : Timestamp) :
    ClaimTable × Bool :=
  table.updateRow fence.claimId
    (fun row => decide (row.ownerId = fence.ownerId) && decide (row.fencingToken = token) &&
      decide (now < row.leaseUntil))
    fun row => { row with leaseUntil := leaseUntil }

/-! ## Calls as programs -/

/-- How far a call has got: what it does next, or what it returned. -/
inductive ClaimProgress where
  | insert (req : TryClaim)
  /-- The INSERT met a row. -/
  | select (req : TryClaim)
  /-- It read this row; the clock is next. -/
  | takeOverClock (req : TryClaim) (existing : ClaimRow)
  /-- The lease had lapsed at `now`. -/
  | takeOver (req : TryClaim) (displaced : Int) (next : FencingToken) (nextRaw : Int)
      (now : Timestamp)
  | upsertClock (req : TryClaim)
  | upsert (req : TryClaim) (now : Timestamp)
  /-- Stoolap reads the new lease of a `release` off the clock. -/
  | releaseClock (fence : ClaimFence)
  /-- With no new lease yet, it is the reading. -/
  | mutateClock (fence : ClaimFence) (isRelease : Bool) (leaseUntil : Option Timestamp)
  | mutate (fence : ClaimFence) (isRelease : Bool) (token : Int) (leaseUntil now : Timestamp)
  | returned (reply : ClaimReply)
  deriving DecidableEq

def ClaimCall.begin (b : Backend) : ClaimCall → ClaimProgress
  | .tryClaim req =>
    match b with
    | .stoolap => .insert req
    | .postgres => .upsertClock req
  | .renew fence leaseUntil => .mutateClock fence false (some leaseUntil)
  | .release fence =>
    match b with
    | .stoolap => .releaseClock fence
    | .postgres => .mutateClock fence true none

def afterSelect (req : TryClaim) : Option ClaimRow → ClaimProgress
  | none => .returned (.failed (.transient "claim row vanished after the insert conflict; retry"))
  | some row => .takeOverClock req row

/-- After the reading: a live lease is a refusal. -/
def afterClock (b : Backend) (req : TryClaim) (existing : ClaimRow) (now : Timestamp) :
    ClaimProgress :=
  if now < existing.leaseUntil then .returned (.claimed none)
  else
    match b.tokenFromStorage existing.fencingToken with
    | .error e => .returned (.failed (toClaimError e))
    | .ok displaced =>
      match displaced.next with
      | none => .returned (.failed .fencingExhausted)
      | some next =>
        match tokenForStorage next with
        | .error e => .returned (.failed (toClaimError e))
        | .ok nextRaw => .takeOver req existing.fencingToken next nextRaw now

/-- After Postgres' statement. -/
def afterUpsert (b : Backend) (req : TryClaim) : Except ClaimError (Option Int) → ClaimReply
  | .error e => .failed e
  | .ok none => .claimed none
  | .ok (some raw) =>
    match b.tokenFromStorage raw with
    | .error e => .failed (toClaimError e)
    | .ok token => .claimed (some ⟨req.claimId, req.ownerId, token⟩)

/-- One statement, or one reading of the clock. -/
def advance (b : Backend) (table : ClaimTable) (clock : Timestamp) :
    ClaimProgress → ClaimTable × ClaimProgress
  | .insert req =>
    match insertClaim table req with
    | (table', true) =>
      (table', .returned (.claimed (some ⟨req.claimId, req.ownerId, .initial⟩)))
    | (table', false) => (table', .select req)
  | .select req => (table, afterSelect req (table.lookup req.claimId))
  | .takeOverClock req existing => (table, afterClock b req existing clock)
  | .takeOver req displaced next nextRaw now =>
    match takeOver table req displaced nextRaw now with
    | (table', true) => (table', .returned (.claimed (some ⟨req.claimId, req.ownerId, next⟩)))
    -- a peer took it over, or the owner renewed
    | (table', false) => (table', .returned (.claimed none))
  | .upsertClock req => (table, .upsert req clock)
  | .upsert req now =>
    let (table', result) := upsertClaim table req now
    (table', .returned (afterUpsert b req result))
  | .releaseClock fence => (table, .mutateClock fence true (some clock))
  | .mutateClock fence isRelease leaseUntil =>
    match tokenForStorage fence.fencingToken with
    | .error e => (table, .returned (.failed (toClaimError e)))
    | .ok token => (table, .mutate fence isRelease token (leaseUntil.getD clock) clock)
  | .mutate fence _ token leaseUntil now =>
    match setLease table fence token leaseUntil now with
    | (table', true) => (table', .returned .done)
    | (table', false) => (table', .returned (.failed .staleOwner))
  | .returned reply => (table, .returned reply)

/-! ## Runs -/

structure ClaimState where
  clock : Timestamp
  table : ClaimTable
  /-- Every call made so far, in the order they were made. -/
  calls : List ClaimProgress

inductive ClaimInput where
  | tick (time : Nat)
  | invoke (call : ClaimCall)
  /-- Call `k` goes on. -/
  | advance (k : Nat)
  /-- The next statement of call `k` fails. -/
  | fail (k : Nat) (e : ClaimError)
  /-- It takes effect, and the answer is lost: the call fails all the same. -/
  | lose (k : Nat) (e : ClaimError)

inductive ClaimOutput where
  | idle
  | invoked (k : Nat)
  | advanced
  | returned (k : Nat) (reply : ClaimReply)
  /-- The call fails where it would have returned this. -/
  | lost (k : Nat) (reply : ClaimReply)
  deriving DecidableEq

def ClaimProgress.pending : ClaimProgress → Bool
  | .returned _ => false
  | _ => true

/-- What a step of call `k` shows. -/
def claimOutput (k : Nat) : ClaimProgress → ClaimOutput
  | .returned reply => .returned k reply
  | _ => .advanced

/-- What a step of call `k` shows whose answer is lost. -/
def lostOutput (k : Nat) (e : ClaimError) : ClaimProgress → ClaimOutput
  | .returned reply => .lost k reply
  | _ => .returned k (.failed e)

def ClaimState.step (b : Backend) (s : ClaimState) : ClaimInput → ClaimState × ClaimOutput
  | .tick time => ({ s with clock := s.clock + time }, .idle)
  | .invoke call => ({ s with calls := s.calls ++ [call.begin b] }, .invoked s.calls.length)
  | .advance k =>
    match s.calls[k]? with
    | none => (s, .idle)
    | some progress =>
      if progress.pending then
        let (table, progress') := advance b s.table s.clock progress
        ({ s with table := table, calls := s.calls.set k progress' }, claimOutput k progress')
      else (s, .idle)
  | .fail k e =>
    match s.calls[k]? with
    | none => (s, .idle)
    | some progress =>
      if progress.pending then
        ({ s with calls := s.calls.set k (.returned (.failed e)) }, .returned k (.failed e))
      else (s, .idle)
  | .lose k e =>
    match s.calls[k]? with
    | none => (s, .idle)
    | some progress =>
      if progress.pending then
        let (table, progress') := advance b s.table s.clock progress
        ({ s with table := table, calls := s.calls.set k (.returned (.failed e)) },
          lostOutput k e progress')
      else (s, .idle)

/-- A claim store, at time 0 and without claims. -/
def claimStore (b : Backend) : Machine ClaimState ClaimInput ClaimOutput where
  init := ⟨0, ∅, []⟩
  step := ClaimState.step b

abbrev ClaimEvent : Type := Transition ClaimState ClaimInput ClaimOutput

abbrev ClaimHistory : Type := List ClaimEvent

end EgoRs.ReadSide
