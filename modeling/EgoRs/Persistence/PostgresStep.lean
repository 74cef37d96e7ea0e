import EgoRs.Persistence.PostgresEventStore

/-! # One Statement of the Postgres Event Store

What the indexes and the `WHERE` clauses say about rows, and `Moves`:
everything a session can do next, with what its statement found. What is
proved about runs is proved from it.
-/

namespace EgoRs.Postgres

open Framework EventStore

variable {E : Type}

/-! ## Rows -/

theorem isNotDistinctFrom_iff {a b : Option String} : isNotDistinctFrom a b = true ↔ a = b := by
  cases a <;> cases b <;> simp [isNotDistinctFrom]

def EventRow.stream (row : EventRow E) : StreamKey :=
  ⟨row.aggregateType, row.aggregateId, row.tenantId⟩

variable {row : EventRow E}

theorem EventRow.isOf_iff {stream : StreamKey} : row.isOf stream = true ↔ row.stream = stream := by
  obtain ⟨aggregateType, aggregateId, tenant⟩ := stream
  simp [EventRow.isOf, EventRow.stream, isNotDistinctFrom_iff, and_assoc]

/-- The two partial indexes on `events` together allow one row for each version
of a stream. -/
theorem indexKey_event_inj {a b : EventRow E} : (Row.event a).indexKey = (Row.event b).indexKey ↔
      a.stream = b.stream ∧ a.version = b.version := by
  obtain ⟨aggregateType, aggregateId, tenant, version, stored⟩ := a
  obtain ⟨aggregateType', aggregateId', tenant', version', stored'⟩ := b
  cases tenant <;> cases tenant' <;> simp [Row.indexKey, EventRow.stream, and_assoc, and_left_comm]

theorem indexKey_event_ne_receipt (a : EventRow E) (b : ReceiptRow) :
    (Row.event a).indexKey ≠ (Row.receipt b : Row E).indexKey := by
  obtain ⟨aggregateType, aggregateId, tenant, version, stored⟩ := a
  obtain ⟨tenant', aggregateType', aggregateId', operationKey, fingerprint, kind, f, t⟩ := b
  cases tenant <;> cases tenant' <;> simp [Row.indexKey]

/-- The versions of a stream, in the order of the rows. -/
def versionsOf (stream : StreamKey) (rows : List (Row E)) : List Int :=
  (eventsOf stream rows).map EventRow.version

section
variable {stream : StreamKey} {rows rows' : List (Row E)}

@[simp] theorem eventsOf_nil : eventsOf stream ([] : List (Row E)) = [] := rfl

@[simp] theorem eventsOf_append :
    eventsOf stream (rows ++ rows') = eventsOf stream rows ++ eventsOf stream rows' :=
  List.filterMap_append

@[simp] theorem versionsOf_nil : versionsOf stream ([] : List (Row E)) = [] := rfl

@[simp] theorem versionsOf_append :
    versionsOf stream (rows ++ rows') = versionsOf stream rows ++ versionsOf stream rows' := by
  simp [versionsOf]

theorem eventsOf_event :
    eventsOf stream [Row.event row] = if row.stream = stream then [row] else [] := by
  by_cases h : row.stream = stream
  · simp [eventsOf, Row.eventOf, EventRow.isOf_iff.mpr h, h]
  · have hno : ¬ row.isOf stream = true := fun hof => h (EventRow.isOf_iff.mp hof)
    simp [eventsOf, Row.eventOf, hno, h]

@[simp] theorem eventsOf_receipt (row : ReceiptRow) :
    eventsOf stream [(Row.receipt row : Row E)] = [] := rfl

theorem mem_eventsOf : row ∈ eventsOf stream rows ↔ Row.event row ∈ rows ∧ row.stream = stream := by
  simp only [eventsOf, List.mem_filterMap]
  constructor
  · rintro ⟨x, hx, hof⟩
    cases x with
    | receipt => simp [Row.eventOf] at hof
    | event =>
      simp only [Row.eventOf, Option.ite_none_right_eq_some, Option.some.injEq] at hof
      obtain ⟨hof, rfl⟩ := hof
      exact ⟨hx, EventRow.isOf_iff.mp hof⟩
  · rintro ⟨hx, hs⟩
    exact ⟨.event row, hx, by simp [Row.eventOf, EventRow.isOf_iff.mpr hs]⟩

/-- An event's index entry is taken when its stream has its version. -/
theorem indexKey_mem_iff : (Row.event row).indexKey ∈ rows.map Row.indexKey ↔
      row.version ∈ versionsOf row.stream rows := by
  simp only [versionsOf, List.mem_map]
  constructor
  · rintro ⟨x, hx, hkey⟩
    cases x with
    | receipt r => exact absurd hkey.symm (indexKey_event_ne_receipt row r)
    | event r =>
      obtain ⟨hs, hv⟩ := indexKey_event_inj.mp hkey
      exact ⟨r, mem_eventsOf.mpr ⟨hx, hs⟩, hv⟩
  · rintro ⟨r, hr, hv⟩
    obtain ⟨hx, hs⟩ := mem_eventsOf.mp hr
    exact ⟨.event r, hx, indexKey_event_inj.mpr ⟨hs, hv⟩⟩

end

/-! ### The rows of a batch -/

/-- The row of a batch, without its constructor. -/
def AppendCall.eventRow (call : AppendCall E) (current : Int) (k : Nat) (stored : StoredEvent E) :
    EventRow E where
  aggregateType := call.args.aggregateType
  aggregateId := call.args.aggregateId
  tenantId := call.stream.tenant
  version := current + k + 1
  stored := stored

section
variable (call : AppendCall E) (current : Int) (k : Nat) (stored : StoredEvent E)
include call current k stored

theorem AppendCall.row_eq :
    call.row current k stored = .event (call.eventRow current k stored) := rfl

@[simp] theorem AppendCall.eventRow_stream :
    (call.eventRow current k stored).stream = call.stream := by
  obtain ⟨args, stream, hkey⟩ := call
  unfold AppendArgs.key at hkey
  cases ht : resolveTenant args.tenantId with
  | error =>
    rw [ht] at hkey
    cases hkey
  | ok =>
    rw [ht] at hkey
    obtain rfl := Except.ok.inj hkey
    rfl

theorem versionsOf_row (stream : StreamKey) :
    versionsOf stream [call.row current k stored] =
      if call.stream = stream then [current + k + 1] else [] := by
  rw [AppendCall.row_eq, versionsOf, eventsOf_event, AppendCall.eventRow_stream]
  by_cases h : call.stream = stream
  · simp [h, AppendCall.eventRow]
  · simp [h]

end

variable {call : AppendCall E}

theorem row_indexKey_mem_iff {current : Int} {k : Nat}
    {stored : StoredEvent E} {rows : List (Row E)} :
    (call.row current k stored).indexKey ∈ rows.map Row.indexKey ↔
      current + k + 1 ∈ versionsOf call.stream rows := by
  rw [AppendCall.row_eq, indexKey_mem_iff, AppendCall.eventRow_stream]
  rfl

/-! ## What a batch does next -/

section
variable (db : Db (Row E)) (session : Session E) (call : AppendCall E) (current : Int) (k : Nat)

/-- The three ways a batch goes on. -/
inductive Proceeds : Outcome E → Prop where
  | more (left : k < call.args.events.length) :
      Proceeds (db, session.at' (.inserting call current k), none)
  | committing (full : call.args.events.length ≤ k) (direct : session.direct = true) : Proceeds
        (db, session.at' (.committing call (current + call.args.events.length)), none)
  | answered (full : call.args.events.length ≤ k) (isUnit : session.direct = false) : Proceeds
        (db, session.at' .idle, some (.appended (.ok (current + call.args.events.length))))

end

theorem proceeds (db : Db (Row E)) (session : Session E) (call : AppendCall E) (current : Int)
    (k : Nat) : Proceeds db session call current k (proceed db session call current k) := by
  unfold proceed
  by_cases hlt : k < call.args.events.length
  · simp only [if_pos hlt]
    exact .more hlt
  · simp only [if_neg hlt]
    cases hd : session.direct with
    | true => exact .committing (by omega) hd
    | false => exact .answered (by omega) hd

theorem Proceeds.db_eq {db : Db (Row E)} {session : Session E} {current : Int}
    {k : Nat} {o : Outcome E} (ho : Proceeds db session call current k o) : o.1 = db := by
  cases ho <;> rfl

/-- A session that has its answer waits for a call, or is over. -/
theorem Session.answered_activity (session : Session E) :
    session.answered.activity = .idle ∨ session.answered.activity = .done := by
  unfold Session.answered Session.at'
  cases session.direct
  · exact .inl rfl
  · exact .inr rfl

/-! ## Moves -/

/-- Why a session moves. -/
inductive Cause (E : Type) where
  | call (call : UnitCall E)
  | drop
  | statement
  | failure

/-- The session an input is for. -/
def Input.target : Input E → Option (Nat × Cause E)
  | .append _ => none
  | .begin => none
  | .call i c => some (i, .call c)
  | .drop i => some (i, .drop)
  | .advance i => some (i, .statement)
  | .fail i _ _ => some (i, .failure)

section
variable (db : Db (Row E)) (i : Nat) (session : Session E)

/-- Everything session `i` can do next. -/
inductive Moves : Cause E → Outcome E → Prop where
  /-- A statement waits, or there is none. -/
  | waits (cause : Cause E) : Moves cause (db, session, none)
  /-- An append to a unit of work whose tenant does not resolve. -/
  | unresolved (e : PersistenceError) (args : AppendArgs E) (resolved : args.key = .error e) :
      Moves (.call (.append args)) (db, session, some (.appended (.error e)))
  | begun (at' : session.activity = .beginning none) :
      Moves .statement (db, session.at' .idle, some (.begun (.ok ())))
  | opened (call : AppendCall E) (at' : session.activity = .beginning (some call)) :
      Moves .statement (db, session.at' (.selecting call), none)
  | called (call : AppendCall E) (at' : session.activity = .idle)
      (isUnit : session.direct = false) :
      Moves (.call (.append call.args)) (db, session.at' (.selecting call), none)
  | calledConfirm (receipt : OperationReceipt) (at' : session.activity = .idle)
      (isUnit : session.direct = false) : Moves (.call (.confirmReceipt receipt))
        (db, session.at' (.confirming receipt), none)
  | calledCommit (at' : session.activity = .idle) (isUnit : session.direct = false) :
      Moves (.call .commit) (db, session.at' .publishing, none)
  | dropped (at' : session.activity.droppable = true) : Moves .drop (db, session.at' .closing, none)
  | refused (call : AppendCall E) (at' : session.activity = .selecting call)
      (differs : currentVersion call.stream (db.visible i) ≠ call.args.expectedVersion) :
      Moves .statement (db, session.answered, some (.appended (.error
        (call.args.versionConflict (currentVersion call.stream (db.visible i))))))
  | checked {o : Outcome E} (call : AppendCall E) (current : Int)
      (at' : session.activity = .selecting call) (live : session.aborted = false)
      (read : current = currentVersion call.stream (db.visible i))
      (version : current = call.args.expectedVersion)
      (goes : Proceeds db session call current 0 o) : Moves .statement o
  | inserted {o : Outcome E} (call : AppendCall E) (current : Int) (k : Nat)
      (stored : StoredEvent E) (at' : session.activity = .inserting call current k)
      (event : call.args.events[k]? = some stored)
      (free : db.heldByOther Row.indexKey i (call.row current k stored).indexKey = false)
      (new : db.taken Row.indexKey i (call.row current k stored).indexKey = false)
      (goes : Proceeds (db.insert i (call.row current k stored)) session call current (k + 1) o) :
      Moves .statement o
  /-- The row's index entry is there already. -/
  | collided (call : AppendCall E) (current : Int) (k : Nat) (stored : StoredEvent E)
      (at' : session.activity = .inserting call current k)
      (event : call.args.events[k]? = some stored)
      (taken : db.taken Row.indexKey i (call.row current k stored).indexKey = true) :
      Moves .statement (db.discard i, (session.at' (.rereading call)).abort, none)
  | reread (call : AppendCall E) (at' : session.activity = .rereading call) :
      Moves .statement (db, session.answered, some (.appended (.error
        (call.args.versionConflict (currentVersion call.stream db.committed)))))
  | committed (cause : Cause E) (call : AppendCall E) (newVersion : Int)
      (result : Except PersistenceError Int)
      (at' : session.activity = .committing call newVersion)
      (results : result = .ok newVersion ∨ ∃ text, result = .error (.internal text)) :
      Moves cause (db.publish i, session.at' .done, some (.appended result))
  | confirmed (receipt : OperationReceipt) (at' : session.activity = .confirming receipt)
      (live : session.aborted = false) (consistent : (receiptRow receipt).consistent = true)
      (free : db.heldByOther Row.indexKey i
        (Row.receipt (receiptRow receipt) : Row E).indexKey = false)
      (new : db.taken Row.indexKey i
        (Row.receipt (receiptRow receipt) : Row E).indexKey = false) : Moves .statement
        (db.insert i (.receipt (receiptRow receipt)), session.at' .idle,
          some (.confirmed (.ok ())))
  /-- `DO NOTHING`. -/
  | suppressed (receipt : OperationReceipt) (at' : session.activity = .confirming receipt)
      (taken : db.taken Row.indexKey i
        (Row.receipt (receiptRow receipt) : Row E).indexKey = true) :
      Moves .statement (db, session.at' (.comparing receipt), none)
  | compared (receipt : OperationReceipt) (result : Except PersistenceError Unit)
      (at' : session.activity = .comparing receipt) :
      Moves .statement (db, session.at' .idle, some (.confirmed result))
  | published (cause : Cause E) (result : Except PersistenceError Unit)
      (at' : session.activity = .publishing) (live : session.aborted = false)
      (results : result = .ok () ∨ ∃ text, result = .error (.internal text)) :
      Moves cause (db.publish i, session.at' .done, some (.committed result))
  /-- The `COMMIT` of an aborted transaction. -/
  | rolledBack (at' : session.activity = .publishing) (dead : session.aborted = true) :
      Moves .statement (db.discard i, session.at' .done, some (.committed (.ok ())))
  | closed (at' : session.activity = .closing) :
      Moves .statement (db.discard i, session.at' .done, none)
  /-- A statement of the transaction fails. -/
  | failed (cause : Cause E) (answer : Answer) (running : session.activity ≠ .done)
      (answers : (∃ text, answer = .appended (.error (.internal text))) ∨
        ∃ text, answer = .confirmed (.error (.internal text))) :
      Moves cause (db.discard i, session.answered.abort, some answer)
  | failedBegin (call : Option (AppendCall E)) (answer : Answer)
      (at' : session.activity = .beginning call)
      (answers : (∃ text, answer = .appended (.error (.internal text))) ∨
        ∃ text, answer = .begun (.error (.internal text))) :
      Moves .failure (db, session.at' .done, some answer)
  | failedReread (call : AppendCall E) (text : String)
      (at' : session.activity = .rereading call) : Moves .failure
        (db, session.answered, some (.appended (.error (.internal text))))
  | failedCommit (answer : Answer)
      (answers : (∃ text, answer = .appended (.error (.internal text))) ∨
        ∃ text, answer = .committed (.error (.internal text))) :
      Moves .failure (db.discard i, session.at' .done, some answer)

end

section
variable {db : Db (Row E)} {i : Nat} {session : Session E}

theorem moves_fail (reason : String) (tookEffect : Bool) :
    Moves db i session .failure (fail db i session reason tookEffect) := by
  obtain ⟨direct, aborted, activity⟩ := session
  cases activity with
  | beginning call =>
    cases call with
    | none => exact .failedBegin none _ rfl (.inr ⟨_, rfl⟩)
    | some call => exact .failedBegin (some call) _ rfl (.inl ⟨_, rfl⟩)
  | committing call newVersion =>
    cases tookEffect with
    | true => exact .committed _ call newVersion _ rfl (.inr ⟨_, rfl⟩)
    | false => exact .failedCommit _ (.inl ⟨_, rfl⟩)
  | publishing =>
    cases tookEffect with
    | false => exact .failedCommit _ (.inr ⟨_, rfl⟩)
    | true =>
      cases aborted with
      | true => exact .failedCommit _ (.inr ⟨_, rfl⟩)
      | false => exact .published _ _ rfl rfl (.inr ⟨_, rfl⟩)
  | rereading call => exact .failedReread call _ rfl
  | selecting | inserting => exact .failed _ _ (by simp) (.inl ⟨_, rfl⟩)
  | confirming | comparing => exact .failed _ _ (by simp) (.inr ⟨_, rfl⟩)
  | idle | closing | done => exact .waits _

theorem moves_select (hat : session.activity = .selecting call) (hlive : session.aborted = false) :
    Moves db i session .statement (select db i session call) := by
  unfold select
  by_cases hv : currentVersion call.stream (db.visible i) = call.args.expectedVersion
  · simp only [hv, ne_eq, not_true_eq_false, if_false]
    exact .checked call _ hat hlive hv.symm rfl (proceeds ..)
  · simp only [ne_eq, hv, not_false_eq_true, if_true]
    exact .refused call hat hv

theorem moves_insertEvent {current : Int} {k : Nat}
    (hat : session.activity = .inserting call current k) :
    Moves db i session .statement (insertEvent db i session call current k) := by
  unfold insertEvent
  cases hev : call.args.events[k]? with
  | none => exact .waits _
  | some stored =>
    show Moves db i session .statement (if db.heldByOther Row.indexKey i _ then _ else _)
    cases hheld : db.heldByOther Row.indexKey i (call.row current k stored).indexKey with
    | true => exact .waits _
    | false =>
      show Moves db i session .statement (if db.taken Row.indexKey i _ then _ else _)
      cases htaken : db.taken Row.indexKey i (call.row current k stored).indexKey with
      | true => exact .collided call current k stored hat hev htaken
      | false => exact .inserted call current k stored hat hev hheld htaken (proceeds ..)

theorem moves_insertReceipt {receipt : OperationReceipt}
    (hat : session.activity = .confirming receipt) (hlive : session.aborted = false) :
    Moves db i session .statement (insertReceipt db i session receipt) := by
  unfold insertReceipt
  cases hcheck : (receiptRow receipt).consistent with
  | false =>
    -- the CHECK constraint comes before the indexes
    simp only [if_true, fail, hat]
    exact .failed _ _ (by simp [hat]) (.inr ⟨_, rfl⟩)
  | true =>
    simp only [Bool.true_eq_false, if_false]
    cases hheld : db.heldByOther Row.indexKey i
        (Row.receipt (receiptRow receipt) : Row E).indexKey with
    | true => exact .waits _
    | false =>
      simp only [Bool.false_eq_true, if_false]
      cases htaken : db.taken Row.indexKey i
          (Row.receipt (receiptRow receipt) : Row E).indexKey with
      | true => exact .suppressed receipt hat htaken
      | false => exact .confirmed receipt hat hlive hcheck hheld htaken

/-- **A statement is one of the moves.** -/
theorem moves_advance : Moves db i session .statement (advance db i session) := by
  obtain ⟨direct, aborted, activity⟩ := session
  cases activity with
  | beginning call =>
    cases call with
    | none => exact .begun rfl
    | some call => exact .opened call rfl
  | selecting =>
    cases aborted with
    | true => exact .failed _ _ (by simp) (.inl ⟨_, rfl⟩)
    | false => exact moves_select rfl rfl
  | inserting => exact moves_insertEvent rfl
  | rereading call => exact .reread call rfl
  | committing call newVersion => exact .committed _ call newVersion _ rfl (.inl rfl)
  | confirming =>
    cases aborted with
    | true => exact .failed _ _ (by simp) (.inr ⟨_, rfl⟩)
    | false => exact moves_insertReceipt rfl rfl
  | comparing receipt => exact .compared receipt _ rfl
  | publishing =>
    cases aborted with
    | true => exact .rolledBack rfl rfl
    | false => exact .published _ _ rfl rfl (.inl rfl)
  | closing => exact .closed rfl
  | idle | done => exact .waits _

theorem resolve_error {args : AppendArgs E} {e : PersistenceError}
    (h : resolve args = .error e) : args.key = .error e := by
  unfold resolve at h
  split at h
  · rename_i e' hkey
    rw [hkey, Except.error.inj h]
  · cases h

theorem resolve_args {args : AppendArgs E} (h : resolve args = .ok call) : call.args = args := by
  unfold resolve at h
  split at h
  · cases h
  · obtain rfl := Except.ok.inj h
    rfl

theorem moves_accept (hat : session.activity = .idle) (hunit : session.direct = false)
    (call : UnitCall E) : Moves db i session (.call call) (db, accept session call) := by
  cases call with
  | append args =>
    cases hr : resolve args with
    | error e =>
      simp only [accept, hr]
      exact .unresolved e args (resolve_error hr)
    | ok call =>
      simp only [accept, hr]
      rw [← resolve_args hr]
      exact .called call hat hunit
  | confirmReceipt receipt => exact .calledConfirm receipt hat hunit
  | commit => exact .calledCommit hat hunit

end

/-! ## Steps -/

/-- What an input can do to the whole state. -/
inductive Steps (s : State E) (input : Input E) : State E × Output → Prop where
  | ignored : Steps s input (s, none)
  /-- A direct append is called, or a unit of work asked for. -/
  | opened (session : Session E) (output : Output) (live : session.aborted = false)
      (starts : (∃ e, session.activity = .done ∧
          output = some (s.sessions.length, .appended (.error e)) ∧
          ∀ id expected actual, e ≠ .conflict id expected actual) ∨
        (∃ call, session.activity = .beginning call ∧ output = none)) :
      Steps s input (s.opened session, output)
  | moved (i : Nat) (session : Session E) (cause : Cause E) (o : Outcome E)
      (target : input.target = some (i, cause)) (at' : s.sessions[i]? = some session)
      (moves : Moves s.db i session cause o) :
      Steps s input (s.moved i o)

theorem resolveTenant_error {tenantId : Option String} {e : PersistenceError}
    (h : resolveTenant tenantId = .error e) : e = .missingTenant := by
  unfold resolveTenant at h
  split at h
  · cases h
  · split at h
    · exact (Except.error.inj h).symm
    · cases h

/-- An append that does not resolve has no tenant. -/
theorem key_error {args : AppendArgs E} {e : PersistenceError} (h : args.key = .error e) :
    e = .missingTenant := by
  unfold AppendArgs.key at h
  cases ht : resolveTenant args.tenantId with
  | ok =>
    rw [ht] at h
    cases h
  | error e' =>
    rw [ht] at h
    obtain rfl : e' = e := Except.error.inj h
    exact resolveTenant_error ht

theorem steps_step (s : State E) (input : Input E) : Steps s input (s.step input) := by
  cases input with
  | append args =>
    simp only [State.step]
    cases hr : resolve args with
    | error e =>
      refine .opened ⟨true, false, .done⟩ _ rfl (.inl ⟨e, rfl, rfl, ?_⟩)
      rw [key_error (resolve_error hr)]
      simp
    | ok call => exact .opened ⟨true, false, .beginning (some call)⟩ _ rfl (.inr ⟨_, rfl, rfl⟩)
  | begin => exact .opened ⟨false, false, .beginning none⟩ _ rfl (.inr ⟨_, rfl, rfl⟩)
  | call i call =>
    simp only [State.step]
    split
    · rename_i aborted hat
      exact .moved i _ _ _ rfl hat (moves_accept rfl rfl call)
    · exact .ignored
  | drop i =>
    simp only [State.step]
    cases hat : s.sessions[i]? with
    | none => exact .ignored
    | some session =>
      show Steps s _ (if session.activity.droppable then _ else _)
      cases hd : session.activity.droppable with
      | true => exact .moved i session _ _ rfl hat (.dropped hd)
      | false => exact .ignored
  | advance i =>
    simp only [State.step]
    cases hat : s.sessions[i]? with
    | none => exact .ignored
    | some session => exact .moved i session _ _ rfl hat moves_advance
  | fail i reason tookEffect =>
    simp only [State.step]
    cases hat : s.sessions[i]? with
    | none => exact .ignored
    | some session => exact .moved i session _ _ rfl hat (moves_fail reason tookEffect)

end EgoRs.Postgres
