import EgoRs.Persistence.StoolapEventStore

/-! # One Statement of the Stoolap Event Store

`Moves` lists everything a session can do next, with what its statement
found; `Steps` lists everything an input can do to the whole state.
`Proceeds` and `Refuses` take apart the two outcomes that are not the same
for a direct append and a unit of work.
-/

namespace EgoRs.Stoolap

open Framework EventStore

variable {E P : Type}

/-! ## Outcomes that depend on the kind of session -/

section
variable (db : Db (EventRow P)) (session : Session P) (call : AppendCall P) (current : Int)
  (k : Nat)

inductive Proceeds : Outcome P → Prop where
  | more (left : k < call.rows.length) :
      Proceeds (db, session.at' (.inserting call current k), none)
  | committing (full : call.rows.length ≤ k) (direct : session.direct = true) : Proceeds
        (db, session.at' (.committing call (current + call.rows.length)), none)
  | answered (full : call.rows.length ≤ k) (isUnit : session.direct = false) : Proceeds
        (db, session.at' .idle, some (.appended (.ok (current + call.rows.length))))

end

theorem proceeds (db : Db (EventRow P)) (session : Session P) (call : AppendCall P)
    (current : Int) (k : Nat) :
    Proceeds db session call current k (proceed db session call current k) := by
  unfold proceed
  by_cases hlt : k < call.rows.length
  · simp only [if_pos hlt]
    exact .more hlt
  · simp only [if_neg hlt]
    cases hd : session.direct with
    | true => exact .committing (by omega) hd
    | false => exact .answered (by omega) hd

/-- The two ways an append is refused. -/
inductive Refuses (db : Db (EventRow P)) (i : Nat) (session : Session P) (e : PersistenceError) :
    Outcome P → Prop where
  | direct (isDirect : session.direct = true) :
      Refuses db i session e (db.discard i, session.at' .done, some (.appended (.error e)))
  | inUnit (isUnit : session.direct = false) :
      Refuses db i session e (db, session.at' .idle, some (.appended (.error e)))

theorem refuses (db : Db (EventRow P)) (i : Nat) (session : Session P) (e : PersistenceError) :
    Refuses db i session e (refuse db i session e) := by
  unfold refuse
  cases hd : session.direct with
  | true => exact .direct hd
  | false => exact .inUnit hd

variable {call : AppendCall P}

theorem Proceeds.db_eq {db : Db (EventRow P)} {session : Session P}
    {current : Int} {k : Nat} {o : Outcome P} (ho : Proceeds db session call current k o) :
    o.1 = db := by
  cases ho <;> rfl

/-! ## Moves -/

inductive Cause (E : Type) where
  | call (call : UnitCall E)
  | drop
  | statement (surfaces : Bool)
  | failure

def Input.target : Input E → Option (Nat × Cause E)
  | .append _ => none
  | .begin => none
  | .call i c => some (i, .call c)
  | .drop i => some (i, .drop)
  | .advance i _ surfaces => some (i, .statement surfaces)
  | .fail i _ => some (i, .failure)

section
variable (db : Db (EventRow P)) (i : Nat) (session : Session P)

/-- Everything session `i` can do next. -/
inductive Moves : Cause E → Outcome P → Prop where
  | waits (cause : Cause E) : Moves cause (db, session, none)
  /-- An append to a unit of work that does not get to its transaction. -/
  | unprepared (args : AppendArgs E) (e : PersistenceError) (at' : session.activity = .idle) :
      Moves (.call (.append args)) (db, session, some (.appended (.error e)))
  | begun (surfaces : Bool) (at' : session.activity = .beginning none) : Moves (.statement surfaces)
        (db, { session with snapshot := db.committed.length, activity := .idle },
          some (.begun (.ok ())))
  | opened (surfaces : Bool) (call : AppendCall P)
      (at' : session.activity = .beginning (some call)) : Moves (.statement surfaces)
        (db, { session with snapshot := db.committed.length, activity := .selecting call }, none)
  | called (args : AppendArgs E) (call : AppendCall P) (at' : session.activity = .idle)
      (isUnit : session.direct = false) :
      Moves (.call (.append args)) (db, session.at' (.selecting call), none)
  | calledCommit (at' : session.activity = .idle) (isUnit : session.direct = false) :
      Moves (.call .commit) (db, session.at' .publishing, none)
  | dropped (at' : session.activity = .idle) : Moves .drop (db.discard i, session.at' .done, none)
  | refused {o : Outcome P} (surfaces : Bool) (call : AppendCall P) (actual : Int)
      (at' : session.activity = .selecting call)
      (refuses : Refuses db i session (call.conflict actual) o) : Moves (.statement surfaces) o
  | checked {o : Outcome P} (surfaces : Bool) (call : AppendCall P) (current : Int)
      (at' : session.activity = .selecting call)
      (read : current = maxVersion call.stream (visible db i session))
      (version : current = call.expectedVersion)
      (goes : Proceeds db session call current 0 o) : Moves (.statement surfaces) o
  | inserted {o : Outcome P} (surfaces : Bool) (call : AppendCall P) (current : Int) (k : Nat)
      (columns : EventColumns P) (at' : session.activity = .inserting call current k)
      (event : call.rows[k]? = some columns)
      (goes : Proceeds (db.insert i (call.row current k columns)) session call current (k + 1) o) :
      Moves (.statement surfaces) o
  /-- A collision is raised at the insert. -/
  | collided {o : Outcome P} (surfaces : Bool) (call : AppendCall P) (current : Int) (k : Nat)
      (columns : EventColumns P) (e : PersistenceError)
      (at' : session.activity = .inserting call current k)
      (event : call.rows[k]? = some columns)
      (collision : (surfaces && collides db i (call.row current k columns)) = true)
      (refuses : Refuses db i session e o) : Moves (.statement surfaces) o
  | committed (surfaces : Bool) (call : AppendCall P) (newVersion : Int)
      (at' : session.activity = .committing call newVersion)
      (clear : commitCollides db i surfaces = false) : Moves (.statement surfaces)
        (db.publish i, session.at' .done, some (.appended (.ok newVersion)))
  /-- The commit of a direct append meets a write conflict. -/
  | outrun (cause : Cause E) (call : AppendCall P) (newVersion : Int)
      (at' : session.activity = .committing call newVersion) :
      Moves cause (db.discard i, session.at' (.rereading call), none)
  | reread (surfaces : Bool) (call : AppendCall P) (actual : Int)
      (at' : session.activity = .rereading call) : Moves (.statement surfaces)
        (db, session.at' .done, some (.appended (.error (call.conflict actual))))
  | published (surfaces : Bool) (at' : session.activity = .publishing)
      (clear : commitCollides db i surfaces = false) : Moves (.statement surfaces)
        (db.publish i, session.at' .done, some (.committed (.ok ())))
  /-- A collision is raised at the commit of a unit of work. -/
  | lost (surfaces : Bool) (e : PersistenceError) (at' : session.activity = .publishing)
      (collision : commitCollides db i surfaces = true) : Moves (.statement surfaces)
        (db.discard i, session.at' .done, some (.committed (.error e)))
  /-- A statement of `append_into_tx` fails for a reason of its own. -/
  | failedAppend {o : Outcome P} (e : PersistenceError) (running : session.activity ≠ .done)
      (refuses : Refuses db i session e o) : Moves .failure o
  | failedBegin (call : Option (AppendCall P)) (answer : Answer)
      (at' : session.activity = .beginning call)
      (answers : (∃ e, answer = .begun (.error e)) ∨ ∃ e, answer = .appended (.error e)) :
      Moves .failure (db, session.at' .done, some answer)
  | failedEnd (answer : Answer)
      (answers : (∃ e, answer = .committed (.error e)) ∨ ∃ e, answer = .appended (.error e)) :
      Moves .failure (db.discard i, session.at' .done, some answer)
  | failedReread (call : AppendCall P) (e : PersistenceError)
      (at' : session.activity = .rereading call) :
      Moves .failure (db, session.at' .done, some (.appended (.error e)))

end

section
variable {db : Db (EventRow P)} {i : Nat} {session : Session P}

theorem moves_fail (e : StoolapError) :
    Moves (E := E) db i session .failure (fail db i session e) := by
  obtain ⟨direct, snapshot, activity⟩ := session
  cases activity with
  | beginning call =>
    cases call with
    | none => exact .failedBegin none _ rfl (.inl ⟨_, rfl⟩)
    | some call => exact .failedBegin (some call) _ rfl (.inr ⟨_, rfl⟩)
  | selecting | inserting => exact .failedAppend _ (by simp) (refuses ..)
  | committing call newVersion =>
    unfold fail
    cases hw : isWriteConflict e with
    | true =>
      simp only [if_true]
      exact .outrun _ call newVersion rfl
    | false =>
      simp only [Bool.false_eq_true, if_false]
      exact .failedEnd _ (.inr ⟨_, rfl⟩)
  | rereading call => exact .failedReread call _ rfl
  | publishing => exact .failedEnd _ (.inl ⟨_, rfl⟩)
  | idle | done => exact .waits _

theorem moves_select (surfaces : Bool) (hat : session.activity = .selecting call) :
    Moves (E := E) db i session (.statement surfaces) (select db i session call) := by
  unfold select
  by_cases hv : maxVersion call.stream (visible db i session) = call.expectedVersion
  · simp only [hv, ne_eq, not_true_eq_false, if_false]
    exact .checked surfaces call _ hat hv.symm rfl (proceeds ..)
  · simp only [ne_eq, hv, not_false_eq_true, if_true]
    exact .refused surfaces call _ hat (refuses ..)

theorem moves_insertEvent {current : Int} {k : Nat} (raised : WriteConflict) (surfaces : Bool)
    (hat : session.activity = .inserting call current k) :
    Moves (E := E) db i session (.statement surfaces)
      (insertEvent db i session call current k raised surfaces) := by
  unfold insertEvent
  cases hev : call.rows[k]? with
  | none => exact .waits _
  | some columns =>
    cases hcollides : (surfaces && collides db i (call.row current k columns)) with
    | true =>
      simp only [hcollides, if_true]
      exact .collided surfaces call current k columns _ hat hev hcollides (refuses ..)
    | false =>
      simp only [hcollides, Bool.false_eq_true, if_false]
      exact .inserted surfaces call current k columns hat hev (proceeds ..)

/-- **A statement is one of the moves.** -/
theorem moves_advance (raised : WriteConflict) (surfaces : Bool) :
    Moves (E := E) db i session (.statement surfaces) (advance db i session raised surfaces) := by
  obtain ⟨direct, snapshot, activity⟩ := session
  cases activity with
  | beginning call =>
    cases call with
    | none => exact .begun surfaces rfl
    | some call => exact .opened surfaces call rfl
  | selecting => exact moves_select surfaces rfl
  | inserting => exact moves_insertEvent raised surfaces rfl
  | committing call newVersion =>
    unfold advance
    cases hc : commitCollides db i surfaces with
    | true =>
      simp only [if_true]
      exact .outrun _ call newVersion rfl
    | false =>
      simp only [Bool.false_eq_true, if_false]
      exact .committed surfaces call newVersion rfl hc
  | rereading call => exact .reread surfaces call _ rfl
  | publishing =>
    unfold advance
    cases hc : commitCollides db i surfaces with
    | true =>
      simp only [if_true]
      exact .lost surfaces _ rfl hc
    | false =>
      simp only [Bool.false_eq_true, if_false]
      exact .published surfaces rfl hc
  | idle | done => exact .waits _

theorem moves_accept (serialize : E → Except String P) (hat : session.activity = .idle)
    (hunit : session.direct = false) (call : UnitCall E) :
    Moves db i session (.call call) (db, accept serialize session call) := by
  cases call with
  | append args =>
    cases hp : prepare serialize args with
    | error e =>
      simp only [accept, hp]
      exact .unprepared args e hat
    | ok call =>
      simp only [accept, hp]
      exact .called args call hat hunit
  | commit => exact .calledCommit hat hunit

end

/-! ## Steps -/

inductive Steps (s : State P) (input : Input E) : State P × Output → Prop where
  | ignored : Steps s input (s, none)
  | opened (session : Session P) (output : Output) (snapshot : session.snapshot = 0)
      (starts : (∃ e, session.activity = .done ∧
          output = some (s.sessions.length, .appended (.error e))) ∨
        (∃ call, session.activity = .beginning call ∧ output = none))
      (calls : input.target = none) :
      Steps s input (s.opened session, output)
  | moved (i : Nat) (session : Session P) (cause : Cause E) (o : Outcome P)
      (target : input.target = some (i, cause)) (at' : s.sessions[i]? = some session)
      (moves : Moves s.db i session cause o) :
      Steps s input (s.moved i o)

theorem steps_step (serialize : E → Except String P) (s : State P) (input : Input E) :
    Steps s input (s.step serialize input) := by
  cases input with
  | append args =>
    simp only [State.step]
    cases hp : prepare serialize args with
    | error e => exact .opened ⟨true, 0, .done⟩ _ rfl (.inl ⟨e, rfl, rfl⟩) rfl
    | ok call => exact .opened ⟨true, 0, .beginning (some call)⟩ _ rfl (.inr ⟨_, rfl, rfl⟩) rfl
  | begin => exact .opened ⟨false, 0, .beginning none⟩ _ rfl (.inr ⟨_, rfl, rfl⟩) rfl
  | call i call =>
    simp only [State.step]
    split
    · rename_i snapshot hat
      exact .moved i _ _ _ rfl hat (moves_accept serialize rfl rfl call)
    · exact .ignored
  | drop i =>
    simp only [State.step]
    split
    · rename_i snapshot hat
      exact .moved i _ _ _ rfl hat (.dropped rfl)
    · exact .ignored
  | advance i raised surfaces =>
    simp only [State.step]
    cases hat : s.sessions[i]? with
    | none => exact .ignored
    | some session => exact .moved i session _ _ rfl hat (moves_advance raised surfaces)
  | fail i e =>
    simp only [State.step]
    cases hat : s.sessions[i]? with
    | none => exact .ignored
    | some session => exact .moved i session _ _ rfl hat (moves_fail e)

end EgoRs.Stoolap
