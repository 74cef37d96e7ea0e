import EgoRs.ReadSide.Stream

/-! # Read-Side Sessions

`ReadSideSession::execute` and `run_batch`
(`domain/src/read_side/session.rs`): claim the stream, read the offset, fetch
a batch, drop what was seen, call the handler, renew the claim, mark the
events, write the offset, release the claim.

A session is at one of these points, and a step takes it over the next call
of a store or of the handler, or the next reading of the clock. Any number of
sessions run interleaved over the same stores. A call of a store may fail,
and one that writes may have written or not when it does; a process may stop
at any point.

Claims are granted as the port promises: not while a lease is live, under a
greater token than any before. Which token that is, is up to the store.
-/

namespace EgoRs.ReadSide

open Framework

/-! ## Errors -/

inductive ProjectionError where
  | transient (message : String)
  | fatal (message : String)
  | poisonEvent (message : String)
  deriving DecidableEq

/-- The errors of the read, dedup and offset stores, which differ in the name only. -/
inductive StoreError where
  | transient (message : String)
  | fatal (message : String)
  deriving DecidableEq

/-- `to_string` of an error. -/
def StoreError.text (store : String) : StoreError → String
  | .transient message => "transient " ++ store ++ " error: " ++ message
  | .fatal message => "fatal " ++ store ++ " error: " ++ message

def StoreError.claimError : StoreError → ClaimError
  | .transient message => .transient message
  | .fatal message => .fatal message

/-! ## The promise of a claim store -/

/-- `try_claim`, for a store that would grant the claim under `token`. -/
def tryClaim (claims : ClaimTable) (req : TryClaim) (token : FencingToken) (now : Timestamp) :
    ClaimTable × Except ClaimError (Option ClaimFence) :=
  let granted := (claims.insert req.claimId ⟨req.ownerId, token.value, req.leaseUntil⟩,
    .ok (some ⟨req.claimId, req.ownerId, token⟩))
  match claims.lookup req.claimId with
  | none => granted
  | some row =>
    if now < row.leaseUntil then (claims, .ok none)
    else if row.fencingToken < token.value then granted
    else (claims, .error .fencingExhausted)

/-- `renew`, and `release` with the present as its lease: whether the fence held. -/
def renewClaim (claims : ClaimTable) (fence : ClaimFence) (leaseUntil now : Timestamp) :
    ClaimTable × Bool :=
  setLease claims fence fence.fencingToken.value leaseUntil now

/-! ## Sessions -/

structure ReadSideClaiming where
  owner : OwnerId
  lease : Int
  deriving DecidableEq

structure ReadSideSession where
  projectionId : String
  tag : EventTag
  tenant : String
  batchSize : Nat
  claiming : Option ReadSideClaiming
  deriving DecidableEq

def ReadSideSession.claimId (session : ReadSideSession) : ClaimId :=
  ⟨session.projectionId, session.tag, session.tenant⟩

def ReadSideSession.dedupKey {E : Type} (session : ReadSideSession) (event : EventStreamElement E) :
    DedupKey :=
  ⟨session.projectionId, session.tag, event.eventId⟩

/-- What `run_batch` returns. -/
abbrev BatchResult : Type := Except ProjectionError (Option Offset)

/-- Where `run_batch` is: the next call, or its result. -/
inductive BatchPhase (E : Type) where
  | readOffset
  | fetch (lastOffset : Option Offset)
  | check (rest unique : TagStream E)
  | handle (unique : TagStream E)
  | renewClock (unique : TagStream E)
  | renew (unique : TagStream E) (leaseUntil : Timestamp)
  /-- `lease` is the one the claim was renewed for, if there is a claim. -/
  | mark (newOffset : Offset) (rest : TagStream E) (lease : Option Timestamp)
  | write (newOffset : Offset) (stage : WriteStage) (lease : Option Timestamp)
  | ended (result : BatchResult)

/-- Where `execute` is. -/
inductive Phase (E : Type) where
  | claimClock (claiming : ReadSideClaiming)
  | claim (claiming : ReadSideClaiming) (leaseUntil : Timestamp)
  | batch (fence : Option ClaimFence) (phase : BatchPhase E)
  | release (fence : ClaimFence) (result : BatchResult)
  | returned (result : BatchResult)
  /-- The process has stopped. -/
  | stopped

def Phase.inProgress {E : Type} : Phase E → Bool
  | .returned _ => false
  | .stopped => false
  | _ => true

/-- The stores, and the clock all sessions share. -/
structure Stores (E : Type) where
  clock : Timestamp
  streams : Streams E
  marks : Marks
  offsets : Offsets
  claims : ClaimTable

/-- A call of a store that fails, after it has had its effect or before. -/
structure Fault where
  error : StoreError
  applied : Bool
  deriving DecidableEq

/-- What a step gets from outside: whether the call fails, what the handler answers, and
the token a claim would be granted under. -/
structure Answer where
  fault : Option Fault
  handler : Except ProjectionError Unit
  token : FencingToken

/-! ## One batch -/

section
variable {E : Type}

def afterFetch (events : TagStream E) : BatchPhase E :=
  if events.isEmpty then .ended (.ok none) else .check events []

def afterCheck (rest unique : TagStream E) : BatchPhase E :=
  match rest with
  | [] => if unique.isEmpty then .ended (.ok none) else .handle unique
  | _ :: _ => .check rest unique

/-- `Offset::sequence(unique_events.last().unwrap().event_version())`. -/
def newOffset (unique : TagStream E) : Offset :=
  .sequence ((unique.getLast?.map EventStreamElement.eventVersion).getD 0)

def afterMark (offset : Offset) (rest : TagStream E) (lease : Option Timestamp) : BatchPhase E :=
  match rest with
  | [] => .write offset .update lease
  | _ :: _ => .mark offset rest lease

/-- The handler has returned `Ok`: with a claim, the ownership is verified once more. -/
def afterHandle (session : ReadSideSession) (fence : Option ClaimFence) (unique : TagStream E) :
    BatchPhase E :=
  match session.claiming, fence with
  | some _, some _ => .renewClock unique
  | _, _ => afterMark (newOffset unique) unique none

/-- A call that fails with this message ends the batch. -/
def failed (message : String) : BatchPhase E := .ended (.error (.transient message))

/-- A writing call: its effect, and what follows. -/
def writing (stores stores' : Stores E) (answer : Answer) (context store : String)
    (next : BatchPhase E) : Stores E × BatchPhase E :=
  match answer.fault with
  | none => (stores', next)
  | some fault => (if fault.applied then stores' else stores,
      failed (context ++ fault.error.text store))

def staleOwnerMessage : String :=
  "claim lost before commit; this batch's offset and dedup writes were withheld so a " ++
    "replaced owner cannot rewind the current owner's offset"

/-- What follows a statement of `write_offset`. -/
def afterWrite (offset : Offset) (lease : Option Timestamp) : Written → BatchPhase E
  | .done => .ended (.ok (some offset))
  | .next stage => .write offset stage lease
  | .vanished => failed ("write offset failed: " ++ (StoreError.transient
      "write_offset: row vanished between the fallback insert and the re-UPDATE; retry").text
        "offset store")

/-- One call of `run_batch`. -/
def ReadSideSession.runBatch (backend : OffsetBackend) (session : ReadSideSession)
    (fence : Option ClaimFence) (stores : Stores E) (answer : Answer) :
    BatchPhase E → Stores E × BatchPhase E
  | .readOffset =>
    match answer.fault with
    | some fault => (stores, failed ("read offset failed: " ++ fault.error.text "offset store"))
    | none => (stores, .fetch (stores.offsets.lookup session.claimId))
  | .fetch lastOffset =>
    match answer.fault with
    | some fault => (stores, failed ("fetch failed: " ++ fault.error.text "read side store"))
    | none => (stores, afterFetch (paginate (eventsForTag stores.streams session.tag) session.tenant
        lastOffset session.batchSize))
  | .check [] unique => (stores, afterCheck [] unique)
  | .check (event :: rest) unique =>
    match answer.fault with
    | some fault => (stores, failed ("dedup check failed: " ++ fault.error.text "dedup store"))
    | none =>
      let isDuplicate := stores.marks.seen (session.dedupKey event)
      (stores, afterCheck rest (if isDuplicate then unique else unique ++ [event]))
  | .handle unique =>
    match answer.handler with
    | .ok () => (stores, afterHandle session fence unique)
    | .error e => (stores, .ended (.error e))
  | .renewClock unique =>
    (stores, .renew unique (stores.clock + (session.claiming.map ReadSideClaiming.lease).getD 0))
  | .renew unique leaseUntil =>
    match fence with
    | none => (stores, .renew unique leaseUntil)
    | some held =>
      let (claims, holds) := renewClaim stores.claims held leaseUntil stores.clock
      match answer.fault with
      | some fault => (if fault.applied then { stores with claims := claims } else stores,
          failed ("claim renew failed: " ++ fault.error.claimError.text))
      | none =>
        if holds then
          ({ stores with claims := claims }, afterMark (newOffset unique) unique (some leaseUntil))
        else (stores, failed staleOwnerMessage)
  | .mark offset [] lease => (stores, afterMark offset [] lease)
  | .mark offset (event :: rest) lease =>
    writing stores { stores with marks := stores.marks.markSeen (session.dedupKey event) } answer
      "mark dedup failed: " "dedup store" (afterMark offset rest lease)
  | .write offset stage lease =>
    let (offsets, written) := writeOffset backend stores.offsets session.claimId offset stage
    writing stores { stores with offsets := offsets } answer "write offset failed: " "offset store"
      (afterWrite offset lease written)
  | .ended result => (stores, .ended result)

/-! ## One execution -/

/-- With the batch over, the claim is released. -/
def settle (fence : Option ClaimFence) : BatchPhase E → Phase E
  | .ended result =>
    match fence with
    | none => .returned result
    | some held => .release held result
  | phase => .batch fence phase

def ReadSideSession.begin (session : ReadSideSession) : Phase E :=
  match session.claiming with
  | none => .batch none .readOffset
  | some claiming => .claimClock claiming

/-- One call of `execute`. -/
def ReadSideSession.resume (backend : OffsetBackend) (session : ReadSideSession) (stores : Stores E)
    (answer : Answer) : Phase E → Stores E × Phase E
  | .claimClock claiming => (stores, .claim claiming (stores.clock + claiming.lease))
  | .claim claiming leaseUntil =>
    let (claims, result) := tryClaim stores.claims ⟨session.claimId, claiming.owner, leaseUntil⟩
      answer.token stores.clock
    match answer.fault with
    | some fault => (if fault.applied then { stores with claims := claims } else stores,
        .returned (.error (.transient
          ("claim acquisition failed: " ++ fault.error.claimError.text))))
    | none =>
      match result with
      | .error e =>
        (stores, .returned (.error (.transient ("claim acquisition failed: " ++ e.text))))
      -- another worker holds an unexpired lease
      | .ok none => (stores, .returned (.ok none))
      | .ok (some fence) => ({ stores with claims := claims }, .batch (some fence) .readOffset)
  | .batch fence phase =>
    let (stores', phase') := session.runBatch backend fence stores answer phase
    (stores', settle fence phase')
  | .release fence result =>
    -- what `release` answers is dropped
    let (claims, _) := renewClaim stores.claims fence stores.clock stores.clock
    let released := match answer.fault with
      | none => true
      | some fault => fault.applied
    (if released then { stores with claims := claims } else stores, .returned result)
  | .returned result => (stores, .returned result)
  | .stopped => (stores, .stopped)

end

/-! ## Runs -/

section
variable (E : Type)

structure ReadSideState where
  stores : Stores E
  /-- Every execution so far, in the order they were started. -/
  sessions : List (ReadSideSession × Phase E)

inductive ReadSideInput where
  | tick (time : Nat)
  | insert (event : EventStreamElement E)
  | execute (session : ReadSideSession)
  /-- Execution `i` goes on. -/
  | resume (i : Nat) (answer : Answer)
  /-- The process of execution `i` stops. -/
  | stop (i : Nat)

inductive ReadSideOutput where
  | idle
  | started (i : Nat)
  | resumed (i : Nat)
  /-- The handler was called with a batch. -/
  | handled (session : ReadSideSession) (batch : TagStream E)
      (result : Except ProjectionError Unit)
  | stopped (i : Nat)

variable {E}

/-- What a step of execution `i` shows. -/
def resumeOutput (i : Nat) (session : ReadSideSession) (answer : Answer) :
    Phase E → ReadSideOutput E
  | .batch _ (.handle unique) => .handled session unique answer.handler
  | _ => .resumed i

def ReadSideState.step (backend : OffsetBackend) (s : ReadSideState E) :
    ReadSideInput E → ReadSideState E × ReadSideOutput E
  | .tick time => ({ s with stores := { s.stores with clock := s.stores.clock + time } }, .idle)
  | .insert event =>
    ({ s with stores := { s.stores with streams := insertEvent s.stores.streams event } }, .idle)
  | .execute session =>
    ({ s with sessions := s.sessions ++ [(session, session.begin)] }, .started s.sessions.length)
  | .resume i answer =>
    match s.sessions[i]? with
    | none => (s, .idle)
    | some (session, phase) =>
      if phase.inProgress then
        let (stores, phase') := session.resume backend s.stores answer phase
        (⟨stores, s.sessions.set i (session, phase')⟩, resumeOutput i session answer phase)
      else (s, .idle)
  | .stop i =>
    match s.sessions[i]? with
    | none => (s, .idle)
    | some (session, phase) =>
      if phase.inProgress then
        ({ s with sessions := s.sessions.set i (session, .stopped) }, .stopped i)
      else (s, .idle)

variable (E) in
/-- The read side, at time 0, without events. -/
def readSide (backend : OffsetBackend) :
    Machine (ReadSideState E) (ReadSideInput E) (ReadSideOutput E) where
  init := ⟨⟨0, ∅, [], ∅, ∅⟩, []⟩
  step := ReadSideState.step backend

variable (E) in
abbrev ReadSideEvent : Type :=
  Transition (ReadSideState E) (ReadSideInput E) (ReadSideOutput E)

variable (E) in
abbrev ReadSideHistory : Type := List (ReadSideEvent E)

end

end EgoRs.ReadSide
