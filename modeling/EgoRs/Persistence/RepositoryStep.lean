import EgoRs.Persistence.Repository

/-! # One Statement of a Repository Call

`Moves` lists what a session of the Postgres repository can do next, with
what its statement found. What is proved about runs is proved from it. Its
flag tells a statement that worked from one that failed.
-/

namespace EgoRs.Repository

open EventStore

variable {A P : Type}

/-! ## Moves -/

section
variable (codec : Codec A P) (s : State A P) (i : Nat) (session : Session A P)

inductive Moves : Bool → State A P → Output A → Prop where
  /-- The statement waits for a lock, or there is none left. -/
  | idle (works : Bool) : Moves works s .silent
  | opened (payload : P) (at' : session.activity = .opening payload) :
      Moves true (s.set i session (.selecting payload)) .silent
  /-- The `SELECT` sees no row. -/
  | unseen (payload : P) (at' : session.activity = .selecting payload)
      (absent : s.rows session.key = none) :
      Moves true (s.set i session (.upserting payload none 1)) .silent
  | seen (payload : P) (row : AggregateRow P) (at' : session.activity = .selecting payload)
      (present : s.rows session.key = some row) :
      Moves true (s.set i session (.locking payload row.incarnation)) .silent
  /-- The row was deleted while the `SELECT` waited. -/
  | gone (payload : P) (incarnation : Nat)
      (at' : session.activity = .locking payload incarnation)
      (absent : s.current session.key incarnation = none) :
      Moves true (s.set i session (.upserting payload none 1)) .silent
  | observed (payload : P) (incarnation : Nat) (row : AggregateRow P) (id : String)
      (aggregate : A) (tenant : Option String) (expected : Int)
      (at' : session.activity = .locking payload incarnation)
      (call : session.call = .save id aggregate tenant expected)
      (free : s.lockedByOther i session.key = false) (present : s.rows session.key = some row)
      (version : row.version = expected) : Moves true
        ((s.lock i session.key).set i session (.upserting payload (some row) (expected + 1)))
        .silent
  | conflict (payload : P) (incarnation : Nat) (row : AggregateRow P) (id : String)
      (aggregate : A) (tenant : Option String) (expected : Int)
      (at' : session.activity = .locking payload incarnation)
      (call : session.call = .save id aggregate tenant expected)
      (free : s.lockedByOther i session.key = false) (present : s.rows session.key = some row)
      (version : row.version ≠ expected) :
      Moves true ((s.lock i session.key).set i session .closing)
        (.answered i (.failed (.conflict session.key.aggregateId expected row.version)))
  | upserted (payload : P) (observed : Option (AggregateRow P)) (newVersion : Int)
      (at' : session.activity = .upserting payload observed newVersion)
      (free : s.lockedByOther i session.key = false) : Moves true
        ((s.lock i session.key).set i session (.committing payload observed newVersion)) .silent
  | committed (works : Bool) (payload : P) (observed : Option (AggregateRow P))
      (newVersion : Int) (answer : Answer A)
      (at' : session.activity = .committing payload observed newVersion)
      (answers : answer = .saved newVersion ∨ ∃ reason, answer = .failed (.internal reason))
      (graceful : works = true → answer = .saved newVersion) :
      Moves works (commitSave s i session payload newVersion) ⟨some i, some (i, answer)⟩
  /-- The transaction of a refused `save` is rolled back. -/
  | closed (at' : session.activity = .closing) : Moves true (rollback s i session) .silent
  | notFound (absent : s.rows session.key = none)
      (at' : session.activity = .deleting ∨ session.activity = .loading) :
      Moves true (s.set i session .done) (.answered i (.failed (.notFound session.key.aggregateId)))
  | found (row : AggregateRow P) (at' : session.activity = .deleting)
      (present : s.rows session.key = some row) :
      Moves true (s.set i session (.removing row.incarnation)) .silent
  /-- The row was deleted while the `DELETE` waited. -/
  | vanished (incarnation : Nat) (at' : session.activity = .removing incarnation)
      (absent : s.current session.key incarnation = none) : Moves true (s.set i session .done)
        (.answered i (.failed (.notFound session.key.aggregateId)))
  | removed (works : Bool) (incarnation : Nat) (row : AggregateRow P) (answer : Answer A)
      (at' : session.activity = .removing incarnation)
      (free : s.lockedByOther i session.key = false) (present : s.rows session.key = some row)
      (answers : answer = .deleted ∨ ∃ reason, answer = .failed (.internal reason))
      (graceful : works = true → answer = .deleted) :
      Moves works (commitDelete s i session) ⟨some i, some (i, answer)⟩
  | loaded (row : AggregateRow P) (at' : session.activity = .loading)
      (present : s.rows session.key = some row) : Moves true (s.set i session .done)
        (.answered i (match codec.deserialize row.payload with
          | .ok aggregate => .loaded aggregate
          | .error e => .failed e))
  | failed (answer : Answer A) (reason : String) (live : session.activity ≠ .done)
      (hanswer : answer = .failed (.internal reason)) :
      Moves false (rollback s i session) (.answered i answer)

end

section
variable {codec : Codec A P} {s : State A P} {i : Nat} {session : Session A P}

theorem current_eq_some {key : RepoKey} {incarnation : Nat} {row : AggregateRow P}
    (h : s.current key incarnation = some row) :
    s.rows key = some row ∧ row.incarnation = incarnation := by
  unfold State.current at h
  rw [Option.filter_eq_some_iff] at h
  exact ⟨h.1, by simpa using h.2⟩

/-- The `SELECT` of a `save` returns without a row. -/
theorem selected_none (payload : P) (expected : Int) : selected s i session payload expected none =
      (s.set i session (.upserting payload none 1), .silent) := rfl

theorem selected_some {payload : P} {expected : Int} {row : AggregateRow P} :
    selected s i session payload expected (some row) =
      if row.version = expected then
        (s.set i session (.upserting payload (some row) (expected + 1)), .silent)
      else (s.set i session .closing, .answered i
        (.failed (.conflict session.key.aggregateId expected row.version))) := by
  unfold selected afterSelect
  by_cases h : row.version = expected <;> simp [h]

theorem moves_advance :
    Moves codec s i session true (advance codec s i session).1 (advance codec s i session).2 := by
  obtain ⟨call, key, activity⟩ := session
  cases activity with
  | opening payload => exact .opened payload rfl
  | selecting payload =>
    cases call with
    | load | delete => exact .idle true
    | save =>
      cases hrow : s.rows key with
      | none =>
        simp only [advance, hrow, selected_none]
        exact .unseen payload rfl hrow
      | some row =>
        simp only [advance, hrow]
        exact .seen payload row rfl hrow
  | locking payload incarnation =>
    cases call with
    | load | delete => exact .idle true
    | save id aggregate tenant expected =>
      cases hfree : s.lockedByOther i key with
      | true =>
        simp only [advance, hfree, if_true]
        exact .idle true
      | false =>
        cases hcur : s.current key incarnation with
        | none =>
          simp only [advance, hfree, Bool.false_eq_true, if_false, hcur, selected_none]
          exact .gone payload incarnation rfl hcur
        | some row =>
          obtain ⟨hrow, -⟩ := current_eq_some hcur
          simp only [advance, hfree, Bool.false_eq_true, if_false, hcur, selected_some]
          by_cases hv : row.version = expected
          · simp only [if_pos hv]
            exact .observed payload incarnation row id aggregate tenant expected rfl rfl hfree
              hrow hv
          · simp only [if_neg hv]
            exact .conflict payload incarnation row id aggregate tenant expected rfl rfl hfree
              hrow hv
  | upserting payload observed newVersion =>
    cases hfree : s.lockedByOther i key with
    | true =>
      simp only [advance, hfree, if_true]
      exact .idle true
    | false =>
      simp only [advance, hfree, Bool.false_eq_true, if_false]
      exact .upserted payload observed newVersion rfl hfree
  | committing payload observed newVersion =>
    exact .committed true payload observed newVersion _ rfl (.inl rfl) fun _ => rfl
  | closing => exact .closed rfl
  | deleting =>
    cases hrow : s.rows key with
    | none =>
      simp only [advance, hrow]
      exact .notFound hrow (.inl rfl)
    | some row =>
      simp only [advance, hrow]
      exact .found row rfl hrow
  | removing incarnation =>
    cases hfree : s.lockedByOther i key with
    | true =>
      simp only [advance, hfree, if_true]
      exact .idle true
    | false =>
      cases hcur : s.current key incarnation with
      | none =>
        simp only [advance, hfree, Bool.false_eq_true, if_false, hcur]
        exact .vanished incarnation rfl hcur
      | some row =>
        obtain ⟨hrow, -⟩ := current_eq_some hcur
        simp only [advance, hfree, Bool.false_eq_true, if_false, hcur]
        exact .removed true incarnation row _ rfl hfree hrow (.inl rfl) fun _ => rfl
  | loading =>
    cases hrow : s.rows key with
    | none =>
      simp only [advance, hrow]
      exact .notFound hrow (.inr rfl)
    | some row =>
      simp only [advance, hrow]
      exact .loaded row rfl hrow
  | done => exact .idle true

theorem moves_fail (reason : String) (tookEffect : Bool) :
    Moves codec s i session false (fail s i session reason tookEffect).1
      (fail s i session reason tookEffect).2 := by
  obtain ⟨call, key, activity⟩ := session
  cases activity with
  | done | closing => exact .idle false
  | committing payload observed newVersion =>
    cases tookEffect with
    | true => exact .committed false payload observed newVersion _ rfl (.inr ⟨_, rfl⟩) (by simp)
    | false => exact .failed _ _ (by simp) rfl
  | removing incarnation =>
    by_cases h : tookEffect ∧ ¬ s.lockedByOther i key ∧ (s.current key incarnation).isSome
    · simp only [fail, if_pos h]
      obtain ⟨-, hfree, hcur⟩ := h
      obtain ⟨row, hrow⟩ := Option.isSome_iff_exists.mp hcur
      obtain ⟨hrow, -⟩ := current_eq_some hrow
      exact .removed false incarnation row _ rfl (by simpa using hfree) hrow (.inr ⟨_, rfl⟩)
        (by simp)
    · simp only [fail, if_neg h]
      exact .failed _ _ (by simp) rfl
  | _ => exact .failed _ _ (by simp) rfl

/-- What one step of the machine is. -/
inductive Fires (codec : Codec A P) (s : State A P) :
    Input A → State A P → Output A → Prop where
  | invoked (call : Call A) (post : State A P) (output : Output A)
      (hpost : post = (s.step codec (.invoke call)).1)
      (hout : output = (s.step codec (.invoke call)).2) :
      Fires codec s (.invoke call) post output
  /-- There is no such session. -/
  | nobody (input : Input A) (noCall : ∀ call, input ≠ .invoke call) :
      Fires codec s input s .silent
  | moved (i : Nat) (session : Session A P) (post : State A P) (output : Output A)
      (hi : s.sessions[i]? = some session)
      (move : Moves codec s i session true post output) :
      Fires codec s (.advance i) post output
  | broken (i : Nat) (session : Session A P) (reason : String) (tookEffect : Bool)
      (post : State A P) (output : Output A) (hi : s.sessions[i]? = some session)
      (move : Moves codec s i session false post output) :
      Fires codec s (.fail i reason tookEffect) post output

theorem fires_step (codec : Codec A P) (s : State A P) (input : Input A) :
    Fires codec s input (s.step codec input).1 (s.step codec input).2 := by
  cases input with
  | invoke call => exact .invoked call _ _ rfl rfl
  | advance i =>
    cases hi : s.sessions[i]? with
    | none =>
      simp only [State.step, hi]
      exact .nobody _ (by simp)
    | some session =>
      simp only [State.step, hi]
      exact .moved i session _ _ hi moves_advance
  | fail i reason tookEffect =>
    cases hi : s.sessions[i]? with
    | none =>
      simp only [State.step, hi]
      exact .nobody _ (by simp)
    | some session =>
      simp only [State.step, hi]
      exact .broken i session reason tookEffect _ _ hi (moves_fail reason tookEffect)

end

/-! ## What a move leaves alone -/

section
variable {codec : Codec A P} {s post : State A P} {i : Nat} {session : Session A P} {works : Bool}
  {output : Output A}

@[simp] theorem set_rows (activity : Activity P) : (s.set i session activity).rows = s.rows := rfl

@[simp] theorem unlock_rows (key : RepoKey) : (s.unlock i key).rows = s.rows := by
  unfold State.unlock
  split_ifs <;> rfl

@[simp] theorem unlock_sessions (key : RepoKey) : (s.unlock i key).sessions = s.sessions := by
  unfold State.unlock
  split_ifs <;> rfl

variable {key : RepoKey} {j : Nat}

theorem unlock_locks_of_other {key' : RepoKey} (hj : j ≠ i) (h : s.locks key' = some j) :
    (s.unlock i key).locks key' = some j := by
  unfold State.unlock
  split_ifs with hown
  · have hne : key' ≠ key := by
      rintro rfl
      rw [hown, Option.some.injEq] at h
      exact hj h.symm
    simp [Function.update_of_ne hne, h]
  · exact h

theorem lockedByOther_of_locks (hj : j ≠ i) (h : s.locks key = some j) :
    s.lockedByOther i key = true := by
  simp [State.lockedByOther, h, hj]

theorem lock_locks_of_other {key' : RepoKey} (hj : j ≠ i) (hfree : s.lockedByOther i key = false)
    (h : s.locks key' = some j) : (s.lock i key).locks key' = some j := by
  have hne : key' ≠ key := by
    rintro rfl
    rw [lockedByOther_of_locks hj h] at hfree
    cases hfree
  simp [State.lock, Function.update_of_ne hne, h]

@[simp] theorem lock_locks_self (key : RepoKey) : (s.lock i key).locks key = some i := by
  simp [State.lock]

variable (hm : Moves codec s i session works post output)
include hm

/-- **Locked rows stay**: a move of session `i` leaves a row that session `j` holds. -/
theorem Moves.held (hj : j ≠ i) (h : s.locks key = some j)
    (hcommit : ∀ payload observed v, session.activity = .committing payload observed v →
      s.locks session.key = some i) : post.locks key = some j ∧ post.rows key = s.rows key := by
  -- a row session `i` may write is not the one `j` holds
  have hother : ∀ {k : RepoKey}, s.lockedByOther i k = false → key ≠ k := by
    rintro k hfree rfl
    rw [lockedByOther_of_locks hj h] at hfree
    cases hfree
  cases hm with
  | observed _ _ _ _ _ _ _ _ _ free | conflict _ _ _ _ _ _ _ _ _ free | upserted _ _ _ _ free =>
    exact ⟨lock_locks_of_other hj free h, rfl⟩
  | committed _ payload observed v _ at' =>
    have hne : key ≠ session.key := by
      rintro rfl
      rw [hcommit payload observed v at', Option.some.injEq] at h
      exact hj h.symm
    refine ⟨unlock_locks_of_other hj h, ?_⟩
    simp [commitSave, Function.update_of_ne hne]
  | closed | failed => exact ⟨unlock_locks_of_other hj h, by simp [rollback]⟩
  | removed _ _ _ _ _ free =>
    refine ⟨h, ?_⟩
    simp [commitDelete, Function.update_of_ne (hother free)]
  | _ => exact ⟨h, rfl⟩

theorem Moves.sessions (hi : s.sessions[i]? = some session) :
    ∃ activity, post.sessions = s.sessions.set i { session with activity := activity } := by
  have hsame : s.sessions = s.sessions.set i session := by
    obtain ⟨hlt, rfl⟩ := List.getElem?_eq_some_iff.mp hi
    exact (List.set_getElem_self hlt).symm
  cases hm with
  | idle => exact ⟨session.activity, hsame⟩
  | committed => exact ⟨.done, by simp [commitSave, State.set]⟩
  | closed | failed => exact ⟨.done, by simp [rollback, State.set]⟩
  | _ => exact ⟨_, rfl⟩

theorem Moves.of_done (hdone : session.activity = .done) : post = s := by
  cases hm <;> first | rfl | simp_all

/-- A row changes only by a commit under its key. -/
theorem Moves.rows_of_ne (hne : key ≠ session.key ∨ output.committed = none) :
    post.rows key = s.rows key := by
  cases hm with
  | committed =>
    have hne' : key ≠ session.key := hne.resolve_right (by simp)
    simp [commitSave, Function.update_of_ne hne']
  | removed =>
    have hne' : key ≠ session.key := hne.resolve_right (by simp)
    simp [commitDelete, Function.update_of_ne hne']
  | closed | failed => simp [rollback]
  | _ => rfl

end

end EgoRs.Repository
