import EgoRs.ReadSide.ClaimRun
import EgoRs.ReadSide.Session

/-! # Steps of Sessions

What one call of `run_batch` and of `execute` can do, and what an input can do
to the sessions and their stores. Everything about runs is proved from these
three relations.
-/

namespace EgoRs.ReadSide

open Framework

variable {E : Type}

/-- The fence is the one of the row, and its lease is live. -/
def HeldBy (claims : ClaimTable) (fence : ClaimFence) (now : Timestamp) : Prop :=
  ∃ row, claims.lookup fence.claimId = some row ∧ row.ownerId = fence.ownerId ∧
    row.fencingToken = fence.fencingToken.value ∧ now < row.leaseUntil

/-- The table with the claim of the fence leased. -/
def leased (claims : ClaimTable) (fence : ClaimFence) (leaseUntil : Timestamp) : ClaimTable :=
  claims.insert fence.claimId ⟨fence.ownerId, fence.fencingToken.value, leaseUntil⟩

variable {fence : ClaimFence} {claims : ClaimTable} {leaseUntil now : Timestamp}

theorem renewClaim_of_held (h : HeldBy claims fence now) :
    renewClaim claims fence leaseUntil now = (leased claims fence leaseUntil, true) := by
  obtain ⟨row, hrow, howner, htoken, hlive⟩ := h
  unfold renewClaim setLease leased
  rw [Table.updateRow_of_match _ hrow (by simp [howner, htoken, hlive]), ← howner, ← htoken]

theorem renewClaim_of_not_held (h : ¬ HeldBy claims fence now) :
    renewClaim claims fence leaseUntil now = (claims, false) := by
  unfold renewClaim setLease
  apply Table.updateRow_of_not_match
  intro row hrow
  by_contra hp
  apply h
  refine ⟨row, hrow, ?_⟩
  simpa [and_assoc] using hp

/-- The claim can be granted under this token. -/
def Claimable (claims : ClaimTable) (key : ClaimId) (token : FencingToken)
    (now : Timestamp) : Prop :=
  ∀ row, claims.lookup key = some row → row.leaseUntil ≤ now ∧ row.fencingToken < token.value

theorem tryClaim_cases (claims : ClaimTable) (req : TryClaim) (token : FencingToken)
    (now : Timestamp) : (∃ result, tryClaim claims req token now = (claims, result) ∧
      ∀ fence, result ≠ .ok (some fence)) ∨ Claimable claims req.claimId token now ∧
      tryClaim claims req token now =
        (leased claims ⟨req.claimId, req.ownerId, token⟩ req.leaseUntil,
          .ok (some ⟨req.claimId, req.ownerId, token⟩)) := by
  unfold tryClaim leased
  cases hrow : claims.lookup req.claimId with
  | none =>
    refine .inr ⟨?_, rfl⟩
    intro row hrow'
    rw [hrow] at hrow'
    cases hrow'
  | some row =>
    by_cases hlive : now < row.leaseUntil
    · refine .inl ⟨.ok none, ?_, by simp⟩
      simp only [if_pos hlive]
    · by_cases htoken : row.fencingToken < token.value
      · refine .inr ⟨?_, by simp only [if_neg hlive, if_pos htoken]⟩
        intro row' hrow'
        obtain rfl := Option.mem_unique hrow hrow'
        exact ⟨Int.not_lt.mp hlive, htoken⟩
      · refine .inl ⟨.error .fencingExhausted, ?_, by simp⟩
        simp only [if_neg hlive, if_neg htoken]

/-- **The claim stores keep the promise**: what either of them grants, it grants as
`tryClaim` does at that moment. -/
theorem Grantable.tryClaim {table : ClaimTable} {clock : Timestamp} {req : TryClaim}
    {token : FencingToken} (free : Grantable clock (table.lookup req.claimId) token) :
    ReadSide.tryClaim table req token clock =
      (table.insert req.claimId ⟨req.ownerId, token.value, req.leaseUntil⟩,
        .ok (some ⟨req.claimId, req.ownerId, token⟩)) := by
  unfold ReadSide.tryClaim
  rcases free with ⟨hnone, rfl⟩ | ⟨row, hrow, hlapsed, hnext⟩
  · simp only [hnone]
  · have hless : row.fencingToken < token.value := by omega
    simp only [hrow, if_neg (Int.not_lt.mpr hlapsed), if_pos hless]

/-- **The claim stores refine the promise**: in every run a step leaves the table, grants
what its call asks for as `tryClaim` does, or moves the lease of the call's
fence, which held when it read the clock; the caller is told or, if the answer
is lost, sees an error. -/
theorem claimStore_refines (b : Durable.Backend) (inputs : List ClaimInput) (input : ClaimInput) :
    let s := (claimStore b).after (claimStore b).init inputs
    let r := s.step b input
    (r.1.table = s.table ∧ r.2.writes = false) ∨
      (∃ k fence progress req, Answered k (.claimed (some fence)) input r.2 ∧
        s.calls[k]? = some progress ∧ progress.taking = some req ∧
        tryClaim s.table req fence.fencingToken s.clock = (r.1.table, .ok (some fence))) ∨
      ∃ k fence isRelease leaseUntil, ∃ now ≤ s.clock, Answered k .done input r.2 ∧
        s.calls[k]? = some (.mutate fence isRelease fence.fencingToken.value leaseUntil now) ∧
        renewClaim s.table fence leaseUntil now = (r.1.table, true) := by
  intro s r
  have hinv : ClaimInv s := claimInv_run ((claimStore b).exec_trace _ inputs)
  have hsteps : ClaimSteps s input r.1 r.2 := claimSteps_step b hinv input
  generalize r.1 = s', r.2 = output at hsteps
  cases hsteps with
  | quiet _ table silent => exact .inl ⟨table, silent⟩
  | granted k progress req token answered at' taking free _ _ table =>
    exact .inr (.inl ⟨k, _, progress, req, answered, at', taking, table ▸ free.tryClaim⟩)
  | extended k fence _ _ _ row answered at' found owner token live _ table =>
    refine .inr (.inr ⟨k, fence, _, _, _, (hinv.calls k _ at').2.1, answered, at', ?_⟩)
    rw [renewClaim_of_held ⟨row, found, owner, token, live⟩, table, leased, owner, token]

/-! ## One batch -/

/-- A phase whose call writes nothing. -/
def BatchPhase.reading : BatchPhase E → Bool
  | .readOffset => true
  | .fetch _ => true
  | .check _ _ => true
  | .handle _ => true
  | _ => false

section
variable (backend : OffsetBackend) (session : ReadSideSession) (fence : Option ClaimFence)
  (stores : Stores E) (answer : Answer)

/-- What a call of `run_batch` can do. -/
inductive BatchMoves : BatchPhase E → Stores E → BatchPhase E → Prop where
  | failed (phase : BatchPhase E) (e : ProjectionError) (reading : phase.reading = true)
      (cause : answer.fault ≠ none ∨ answer.handler ≠ .ok ()) :
      BatchMoves phase stores (.ended (.error e))
  | readOffset : BatchMoves .readOffset stores (.fetch (stores.offsets.lookup session.claimId))
  | fetched (lastOffset : Option Offset) : BatchMoves (.fetch lastOffset) stores
        (afterFetch (paginate (eventsForTag stores.streams session.tag) session.tenant lastOffset
          session.batchSize))
  | checked (event : EventStreamElement E) (rest unique : TagStream E) :
      BatchMoves (.check (event :: rest) unique) stores (afterCheck rest
          (if stores.marks.seen (session.dedupKey event) then unique else unique ++ [event]))
  | checkedAll (unique : TagStream E) : BatchMoves (.check [] unique) stores (afterCheck [] unique)
  | handled (unique : TagStream E) (accepted : answer.handler = .ok ()) :
      BatchMoves (.handle unique) stores (afterHandle session fence unique)
  | renewClock (unique : TagStream E) (leaseUntil : Timestamp) :
      BatchMoves (.renewClock unique) stores (.renew unique leaseUntil)
  | unclaimed (unique : TagStream E) (leaseUntil : Timestamp) (free : fence = none) :
      BatchMoves (.renew unique leaseUntil) stores (.renew unique leaseUntil)
  | renewed (unique : TagStream E) (leaseUntil : Timestamp) (held : ClaimFence)
      (isFence : fence = some held) (holds : HeldBy stores.claims held stores.clock) :
      BatchMoves (.renew unique leaseUntil)
        { stores with claims := leased stores.claims held leaseUntil }
        (afterMark (newOffset unique) unique (some leaseUntil))
  | renewFailed (unique : TagStream E) (leaseUntil : Timestamp) (e : ProjectionError) :
      BatchMoves (.renew unique leaseUntil) stores (.ended (.error e))
  | renewLost (unique : TagStream E) (leaseUntil : Timestamp) (held : ClaimFence)
      (e : ProjectionError) (isFence : fence = some held)
      (holds : HeldBy stores.claims held stores.clock) : BatchMoves (.renew unique leaseUntil)
        { stores with claims := leased stores.claims held leaseUntil } (.ended (.error e))
  | marked (offset : Offset) (event : EventStreamElement E) (rest : TagStream E)
      (lease : Option Timestamp) : BatchMoves (.mark offset (event :: rest) lease)
        { stores with marks := stores.marks.markSeen (session.dedupKey event) }
        (afterMark offset rest lease)
  | markedAll (offset : Offset) (lease : Option Timestamp) :
      BatchMoves (.mark offset [] lease) stores (afterMark offset [] lease)
  | markFailed (offset : Offset) (event : EventStreamElement E) (rest : TagStream E)
      (lease : Option Timestamp) (e : ProjectionError) (cause : answer.fault ≠ none) :
      BatchMoves (.mark offset (event :: rest) lease) stores (.ended (.error e))
  | markLost (offset : Offset) (event : EventStreamElement E) (rest : TagStream E)
      (lease : Option Timestamp) (e : ProjectionError) (fault : Fault)
      (isFault : answer.fault = some fault) (applied : fault.applied = true) :
      BatchMoves (.mark offset (event :: rest) lease)
        { stores with marks := stores.marks.markSeen (session.dedupKey event) } (.ended (.error e))
  | wrote (offset : Offset) (stage : WriteStage) (lease : Option Timestamp) :
      BatchMoves (.write offset stage lease)
        { stores with offsets := stores.offsets.insert session.claimId offset }
        (.ended (.ok (some offset)))
  | writeMissed (offset : Offset) (stage stage' : WriteStage) (lease : Option Timestamp)
      (stoolap : backend = .stoolap) : BatchMoves (.write offset stage lease) stores
        (.write offset stage' lease)
  | writeFailed (offset : Offset) (stage : WriteStage) (lease : Option Timestamp)
      (e : ProjectionError)
      (cause : backend = .memory → ∃ fault, answer.fault = some fault ∧ fault.applied = false) :
      BatchMoves (.write offset stage lease) stores (.ended (.error e))
  | writeLost (offset : Offset) (stage : WriteStage) (lease : Option Timestamp)
      (e : ProjectionError) (cause : answer.fault ≠ none) : BatchMoves (.write offset stage lease)
        { stores with offsets := stores.offsets.insert session.claimId offset } (.ended (.error e))
  | ended (result : BatchResult) : BatchMoves (.ended result) stores (.ended result)

end

section
variable {backend : OffsetBackend} {session : ReadSideSession} {fence : Option ClaimFence}
  {stores : Stores E} {answer : Answer}

theorem batchMoves_renew (unique : TagStream E) (leaseUntil : Timestamp) :
    let r := session.runBatch backend fence stores answer (.renew unique leaseUntil)
    BatchMoves backend session fence stores answer (.renew unique leaseUntil) r.1 r.2 := by
  cases hfence : fence with
  | none => exact .unclaimed unique leaseUntil rfl
  | some held =>
    simp only [ReadSideSession.runBatch]
    by_cases hholds : HeldBy stores.claims held stores.clock
    · rw [renewClaim_of_held hholds]
      cases answer.fault with
      | none => exact .renewed unique leaseUntil held rfl hholds
      | some fault =>
        dsimp only
        split
        · exact .renewLost unique leaseUntil held _ rfl hholds
        · exact .renewFailed unique leaseUntil _
    · rw [renewClaim_of_not_held hholds]
      cases answer.fault with
      | none => exact .renewFailed unique leaseUntil _
      | some =>
        simp only [ite_self]
        exact .renewFailed unique leaseUntil _

theorem batchMoves_mark (offset : Offset) (event : EventStreamElement E) (rest : TagStream E)
    (lease : Option Timestamp) :
    BatchMoves backend session fence stores answer (.mark offset (event :: rest) lease)
      (session.runBatch backend fence stores answer (.mark offset (event :: rest) lease)).1
      (session.runBatch backend fence stores answer (.mark offset (event :: rest) lease)).2 := by
  simp only [ReadSideSession.runBatch, writing]
  cases hfault : answer.fault with
  | none => exact .marked offset event rest lease
  | some fault =>
    dsimp only
    split
    · rename_i hcase
      exact .markLost offset event rest lease _ fault hfault hcase
    · exact .markFailed offset event rest lease _ (by simp [hfault])

theorem batchMoves_write (offset : Offset) (stage : WriteStage) (lease : Option Timestamp) :
    let r := session.runBatch backend fence stores answer (.write offset stage lease)
    BatchMoves backend session fence stores answer (.write offset stage lease) r.1 r.2 := by
  simp only [ReadSideSession.runBatch, writing]
  rcases writeOffset_cases backend stores.offsets session.claimId offset stage with heq |
    ⟨written, heq, hmissed⟩
  · rw [heq]
    cases hfault : answer.fault with
    | none => exact .wrote offset stage lease
    | some fault =>
      dsimp only
      split
      · exact .writeLost offset stage lease _ (by simp [hfault])
      · rename_i hcase
        exact .writeFailed offset stage lease _ fun _ => ⟨fault, hfault, by simpa using hcase⟩
  · have hstoolap : backend = .stoolap := by
      cases backend with
      | memory => exact absurd (congrArg Prod.snd heq).symm hmissed
      | stoolap => rfl
    rw [heq]
    have hcause : backend = .memory → ∃ fault, answer.fault = some fault ∧ fault.applied = false :=
      fun hmemory => by rw [hstoolap] at hmemory; cases hmemory
    cases hfault : answer.fault with
    | none =>
      cases written with
      | done => exact absurd rfl hmissed
      | next stage' => exact .writeMissed offset stage stage' lease hstoolap
      | vanished => exact .writeFailed offset stage lease _ hcause
    | some =>
      simp only [ite_self]
      exact .writeFailed offset stage lease _ hcause

/-- **Every call of `run_batch` is one of these.** -/
theorem batchMoves_runBatch (phase : BatchPhase E) :
    let r := session.runBatch backend fence stores answer phase
    BatchMoves backend session fence stores answer phase r.1 r.2 := by
  cases phase with
  | readOffset =>
    simp only [ReadSideSession.runBatch]
    cases hfault : answer.fault with
    | none => exact .readOffset
    | some => exact .failed _ _ rfl (.inl (by simp [hfault]))
  | fetch lastOffset =>
    simp only [ReadSideSession.runBatch]
    cases hfault : answer.fault with
    | none => exact .fetched lastOffset
    | some => exact .failed _ _ rfl (.inl (by simp [hfault]))
  | check rest unique =>
    cases rest with
    | nil => exact .checkedAll unique
    | cons event rest =>
      simp only [ReadSideSession.runBatch]
      cases hfault : answer.fault with
      | none => exact .checked event rest unique
      | some => exact .failed _ _ rfl (.inl (by simp [hfault]))
  | handle unique =>
    simp only [ReadSideSession.runBatch]
    cases hanswer : answer.handler with
    | ok => exact .handled unique hanswer
    | error e => exact .failed _ e rfl (.inr (by simp [hanswer]))
  | renewClock unique => exact .renewClock unique _
  | renew unique leaseUntil => exact batchMoves_renew unique leaseUntil
  | mark offset rest lease =>
    cases rest with
    | nil => exact .markedAll offset lease
    | cons event rest => exact batchMoves_mark offset event rest lease
  | write offset stage lease => exact batchMoves_write offset stage lease
  | ended result => exact .ended result

end

/-! ## One execution -/

section
variable (backend : OffsetBackend) (session : ReadSideSession) (stores : Stores E) (answer : Answer)

/-- What a call of `execute` can do. -/
inductive SessionMoves : Phase E → Stores E → Phase E → Prop where
  | claimClock (claiming : ReadSideClaiming) (leaseUntil : Timestamp) :
      SessionMoves (.claimClock claiming) stores (.claim claiming leaseUntil)
  | notClaimed (claiming : ReadSideClaiming) (leaseUntil : Timestamp) (result : BatchResult) :
      SessionMoves (.claim claiming leaseUntil) stores (.returned result)
  | claimed (claiming : ReadSideClaiming) (leaseUntil : Timestamp)
      (free : Claimable stores.claims session.claimId answer.token stores.clock) :
      SessionMoves (.claim claiming leaseUntil) { stores with
          claims := leased stores.claims ⟨session.claimId, claiming.owner, answer.token⟩
            leaseUntil }
        (.batch (some ⟨session.claimId, claiming.owner, answer.token⟩) .readOffset)
  | claimLost (claiming : ReadSideClaiming) (leaseUntil : Timestamp) (e : ProjectionError)
      (free : Claimable stores.claims session.claimId answer.token stores.clock) :
      SessionMoves (.claim claiming leaseUntil) { stores with
          claims := leased stores.claims ⟨session.claimId, claiming.owner, answer.token⟩
            leaseUntil }
        (.returned (.error e))
  | batch (fence : Option ClaimFence) (phase phase' : BatchPhase E) (stores' : Stores E)
      (moves : BatchMoves backend session fence stores answer phase stores' phase') :
      SessionMoves (.batch fence phase) stores' (settle fence phase')
  | released (fence : ClaimFence) (result : BatchResult)
      (holds : HeldBy stores.claims fence stores.clock) : SessionMoves (.release fence result)
        { stores with claims := leased stores.claims fence stores.clock } (.returned result)
  | notReleased (fence : ClaimFence) (result : BatchResult) :
      SessionMoves (.release fence result) stores (.returned result)

end

section
variable {backend : OffsetBackend} {session : ReadSideSession} {stores : Stores E} {answer : Answer}

theorem sessionMoves_claim (claiming : ReadSideClaiming) (leaseUntil : Timestamp) :
    let r := session.resume backend stores answer (.claim claiming leaseUntil)
    SessionMoves backend session stores answer (.claim claiming leaseUntil) r.1 r.2 := by
  simp only [ReadSideSession.resume]
  rcases tryClaim_cases stores.claims ⟨session.claimId, claiming.owner, leaseUntil⟩ answer.token
    stores.clock with ⟨result, heq, hnone⟩ | ⟨hfree, heq⟩
  · rw [heq]
    cases answer.fault with
    | none =>
      cases result with
      | error => exact .notClaimed claiming leaseUntil _
      | ok fence =>
        cases fence with
        | none => exact .notClaimed claiming leaseUntil _
        | some fence => exact absurd rfl (hnone fence)
    | some =>
      simp only [ite_self]
      exact .notClaimed claiming leaseUntil _
  · rw [heq]
    cases answer.fault with
    | none => exact .claimed claiming leaseUntil hfree
    | some fault =>
      dsimp only
      split
      · exact .claimLost claiming leaseUntil _ hfree
      · exact .notClaimed claiming leaseUntil _

theorem sessionMoves_release (fence : ClaimFence) (result : BatchResult) :
    let r := session.resume backend stores answer (.release fence result)
    SessionMoves backend session stores answer (.release fence result) r.1 r.2 := by
  simp only [ReadSideSession.resume]
  by_cases hholds : HeldBy stores.claims fence stores.clock
  · rw [renewClaim_of_held hholds]
    cases answer.fault with
    | none => exact .released fence result hholds
    | some fault =>
      dsimp only
      split
      · exact .released fence result hholds
      · exact .notReleased fence result
  · rw [renewClaim_of_not_held hholds]
    simp only [ite_self]
    exact .notReleased fence result

/-- **Every call of `execute` is one of these.** -/
theorem sessionMoves_resume {phase : Phase E} (hprogress : phase.inProgress = true) :
    SessionMoves backend session stores answer phase (session.resume backend stores answer phase).1
      (session.resume backend stores answer phase).2 := by
  cases phase with
  | claimClock claiming => exact .claimClock claiming _
  | claim claiming leaseUntil => exact sessionMoves_claim claiming leaseUntil
  | batch fence phase => exact .batch fence phase _ _ (batchMoves_runBatch phase)
  | release fence result => exact sessionMoves_release fence result
  | returned | stopped => cases hprogress

end

/-- What a call of `execute` leaves of the stores: a mark is set and an offset written in
their phases only. -/
structure SessionEffect (session : ReadSideSession) (stores : Stores E) (phase : Phase E)
    (stores' : Stores E) : Prop where
  clock : stores'.clock = stores.clock
  streams : stores'.streams = stores.streams
  marks : stores'.marks = stores.marks ∨ ∃ fence offset event rest lease,
    phase = .batch fence (.mark offset (event :: rest) lease) ∧
      stores'.marks = stores.marks.markSeen (session.dedupKey event)
  offsets : stores'.offsets = stores.offsets ∨ ∃ fence offset stage lease,
    phase = .batch fence (.write offset stage lease) ∧
      stores'.offsets = stores.offsets.insert session.claimId offset

theorem SessionMoves.effect {backend : OffsetBackend} {session : ReadSideSession}
    {stores stores' : Stores E} {answer : Answer} {phase phase' : Phase E}
    (h : SessionMoves backend session stores answer phase stores' phase') :
    SessionEffect session stores phase stores' := by
  cases h with
  | batch _ _ _ _ moves =>
    cases moves with
    | marked | markLost =>
      exact ⟨rfl, rfl, .inr ⟨_, _, _, _, _, rfl, rfl⟩, .inl rfl⟩
    | wrote => exact ⟨rfl, rfl, .inl rfl, .inr ⟨_, _, _, _, rfl, rfl⟩⟩
    | writeLost =>
      exact ⟨rfl, rfl, .inl rfl, .inr ⟨_, _, _, _, rfl, rfl⟩⟩
    | _ => exact ⟨rfl, rfl, .inl rfl, .inl rfl⟩
  | _ => exact ⟨rfl, rfl, .inl rfl, .inl rfl⟩

/-! ## Steps of the machine -/

section
variable (backend : OffsetBackend) (s : ReadSideState E)

/-- What an input can do. -/
inductive ReadSideSteps : ReadSideInput E → ReadSideState E → ReadSideOutput E → Prop where
  | idle (input : ReadSideInput E) (noInsert : ∀ event, input ≠ .insert event)
      (noExecute : ∀ session, input ≠ .execute session)
      (noResume : ∀ i answer, input = .resume i answer → ∀ session phase,
        s.sessions[i]? = some (session, phase) → phase.inProgress = false) :
      ReadSideSteps input s .idle
  | tick (time : Nat) : ReadSideSteps (.tick time)
        { s with stores := { s.stores with clock := s.stores.clock + time } } .idle
  | insert (event : EventStreamElement E) : ReadSideSteps (.insert event)
        { s with stores := { s.stores with streams := insertEvent s.stores.streams event } } .idle
  | execute (session : ReadSideSession) : ReadSideSteps (.execute session)
        { s with sessions := s.sessions ++ [(session, session.begin)] } (.started s.sessions.length)
  | resume (i : Nat) (answer : Answer) (session : ReadSideSession) (phase phase' : Phase E)
      (stores' : Stores E) (at' : s.sessions[i]? = some (session, phase))
      (inProgress : phase.inProgress = true)
      (moves : SessionMoves backend session s.stores answer phase stores' phase') :
      ReadSideSteps (.resume i answer)
        ⟨stores', s.sessions.set i (session, phase')⟩ (resumeOutput i session answer phase)
  | stop (i : Nat) (session : ReadSideSession) (phase : Phase E)
      (at' : s.sessions[i]? = some (session, phase)) (inProgress : phase.inProgress = true) :
      ReadSideSteps (.stop i)
        { s with sessions := s.sessions.set i (session, .stopped) } (.stopped i)

end

/-- **Every step is one of these.** -/
theorem readSideSteps_step (backend : OffsetBackend) (s : ReadSideState E)
    (input : ReadSideInput E) :
    ReadSideSteps backend s input (s.step backend input).1 (s.step backend input).2 := by
  cases input with
  | tick time => exact .tick time
  | insert event => exact .insert event
  | execute session => exact .execute session
  | resume i answer =>
    simp only [ReadSideState.step]
    cases hat : s.sessions[i]? with
    | none =>
      refine .idle _ (by simp) (by simp) ?_
      intro j answer' heq session phase hat'
      cases heq
      rw [hat] at hat'
      cases hat'
    | some entry =>
      obtain ⟨session, phase⟩ := entry
      cases hprogress : phase.inProgress with
      | false =>
        simp only [hprogress, Bool.false_eq_true, if_false]
        refine .idle _ (by simp) (by simp) ?_
        intro j answer' heq session' phase' hat'
        cases heq
        rw [hat] at hat'
        cases hat'
        exact hprogress
      | true =>
        simp only [hprogress, if_true]
        exact .resume i answer session phase _ _ hat hprogress (sessionMoves_resume hprogress)
  | stop i =>
    simp only [ReadSideState.step]
    cases hat : s.sessions[i]? with
    | none => exact .idle _ (by simp) (by simp) (by simp)
    | some entry =>
      obtain ⟨session, phase⟩ := entry
      cases hprogress : phase.inProgress with
      | false =>
        simp only [hprogress, Bool.false_eq_true, if_false]
        exact .idle _ (by simp) (by simp) (by simp)
      | true =>
        simp only [hprogress, if_true]
        exact .stop i session phase hat hprogress

end EgoRs.ReadSide
