import EgoRs.Framework.Ledger
import EgoRs.Persistence.PostgresStreams

/-! # What Postgres Appends Promise

Over every interleaving of direct appends and units of work: committed
versions are `1, ..., n`, a refusal names a version other than the
expected one, and an append reads and writes its own stream only, a
systemwide stream and a tenant's stream of the same name being two. These
hold in every run.

That an append which was acknowledged is in its stream, right after the
version it expected, also depends on the callers. `commit` answers `Ok`
for a transaction that an earlier failed append has aborted, and what the
unit had appended before is lost.
-/

namespace EgoRs.Postgres

open Framework EventStore

variable {E : Type}

/-! ## The promise -/

/-- In `t` session `i` is told that its append `call` went in. -/
def Acknowledges (t : Event E) (i : Nat) (call : AppendCall E) : Prop :=
  (∃ newVersion, t.output = some (i, .appended (.ok newVersion))) ∧
    ∃ session, t.pre.sessions[i]? = some session ∧ session.activity.call = some call

/-- The events of an append are among the rows, right after the version it
expected. -/
def Contributed (call : AppendCall E) (rows : List (Row E)) : Prop :=
  ∀ k stored, call.args.events[k]? = some stored →
    call.row call.args.expectedVersion k stored ∈ rows

/-- Nothing is left to wait for: the session is a direct append, or the unit of
work was told that its commit worked. -/
def Finished (h : History E) (s : State E) (i : Nat) : Prop :=
  (∃ session, s.sessions[i]? = some session ∧ session.direct = true) ∨
    ∃ t ∈ h, t.output = some (i, .committed (.ok ()))

/-- Two tables with the same rows on one stream. -/
structure SameOn (stream : StreamKey) (db db' : Db (Row E)) : Prop where
  committed : eventsOf stream db.committed = eventsOf stream db'.committed
  transactions : db.pending.length = db'.pending.length
  own : ∀ i, eventsOf stream (db.own i) = eventsOf stream (db'.own i)

/-- A statement of an append keeps to its stream. -/
structure KeepsTo (stream : StreamKey) (db : Db (Row E)) (i : Nat) (session : Session E) :
    Prop where
  /-- What it answers, and what the append does next, depends on the rows of
      the stream alone. -/
  reads : ∀ db', SameOn stream db db' → (advance db' i session).2 = (advance db i session).2
  /-- The committed events of every other stream stay. -/
  committed : ∀ other, other ≠ stream →
    eventsOf other (advance db i session).1.committed = eventsOf other db.committed
  /-- So do the rows of every other transaction. -/
  others : ∀ j, j ≠ i → (advance db i session).1.own j = db.own j
  /-- And its own on other streams, unless the transaction is over. -/
  own : ∀ other, other ≠ stream →
    eventsOf other ((advance db i session).1.own i) = eventsOf other (db.own i) ∨
      (advance db i session).1.own i = []

/-- **What Postgres appends promise** of a run `h` that ends in `s`. -/
structure Linear (h : History E) (s : State E) : Prop where
  /-- The committed versions of a stream are `1, ..., n`. -/
  versions : ∀ stream, versionsOf stream s.db.committed =
    (List.range (count stream s.db)).map fun k : Nat => (k : Int) + 1
  /-- An append that was acknowledged, by its unit's commit too, is there. -/
  contributed : ∀ t ∈ h, ∀ i call, Acknowledges t i call → Finished h s i →
    Contributed call s.db.committed
  /-- An append keeps to its stream. -/
  isolated : ∀ t ∈ h, ∀ i session call, t.input = .advance i →
    t.pre.sessions[i]? = some session → session.activity.call = some call →
    KeepsTo call.stream t.pre.db i session
  /-- A conflict reports another version than the expected one. -/
  conflicts : ∀ t ∈ h, ∀ i id expected actual,
    t.output = some (i, .appended (.error (.conflict id expected actual))) → actual ≠ expected

/-- `commit` is called on a unit of work only while its transaction lives. -/
def commitsLive (t : Event E) : Bool :=
  match t.input with
  | .call i .commit =>
    match t.pre.sessions[i]? with
    | some session => !session.aborted
    | none => true
  | _ => true

/-! ## Isolation -/

section
variable {db db' : Db (Row E)} {i : Nat} {session : Session E} {call : AppendCall E}
  {stream : StreamKey}

theorem SameOn.versionsOf_own (hs : SameOn stream db db') (i : Nat) :
    versionsOf stream (db.own i) = versionsOf stream (db'.own i) := by
  unfold versionsOf
  rw [hs.own i]

theorem SameOn.eventsOf_visible (hs : SameOn stream db db') (i : Nat) :
    eventsOf stream (db.visible i) = eventsOf stream (db'.visible i) := by
  unfold Db.visible
  rw [eventsOf_append, eventsOf_append, hs.committed, hs.own i]

theorem SameOn.heldByOther (hs : SameOn call.stream db db') (i : Nat) (current : Int) (k : Nat)
    (stored : StoredEvent E) : db'.heldByOther Row.indexKey i (call.row current k stored).indexKey =
      db.heldByOther Row.indexKey i (call.row current k stored).indexKey := by
  unfold Db.heldByOther
  rw [← hs.transactions]
  congr 1
  funext j
  congr 1
  apply decide_eq_decide.mpr
  rw [row_indexKey_mem_iff, row_indexKey_mem_iff, hs.versionsOf_own j]

theorem SameOn.taken (hs : SameOn call.stream db db') (i : Nat) (current : Int) (k : Nat)
    (stored : StoredEvent E) : db'.taken Row.indexKey i (call.row current k stored).indexKey =
      db.taken Row.indexKey i (call.row current k stored).indexKey := by
  unfold Db.taken
  apply decide_eq_decide.mpr
  rw [row_indexKey_mem_iff, row_indexKey_mem_iff, versionsOf, versionsOf, hs.eventsOf_visible i]

theorem proceed_snd (db db' : Db (Row E)) (session : Session E) (call : AppendCall E)
    (current : Int) (k : Nat) :
    (proceed db' session call current k).2 = (proceed db session call current k).2 := by
  unfold proceed
  split
  · rfl
  · split <;> rfl

theorem select_reads (hs : SameOn call.stream db db') :
    (select db' i session call).2 = (select db i session call).2 := by
  have hcurrent : currentVersion call.stream (db'.visible i) =
      currentVersion call.stream (db.visible i) := by
    unfold currentVersion
    rw [hs.eventsOf_visible i]
  unfold select
  rw [hcurrent]
  by_cases hv : currentVersion call.stream (db.visible i) = call.args.expectedVersion
  · simp only [hv, ne_eq, not_true_eq_false, if_false]
    exact proceed_snd db db' session call _ 0
  · simp only [ne_eq, hv, not_false_eq_true, if_true]

theorem insertEvent_reads (hs : SameOn call.stream db db') (current : Int) (k : Nat) :
    (insertEvent db' i session call current k).2 = (insertEvent db i session call current k).2 := by
  unfold insertEvent
  cases hev : call.args.events[k]? with
  | none => rfl
  | some stored =>
    simp only [hs.heldByOther i current k stored, hs.taken i current k stored]
    split
    · rfl
    · split
      · rfl
      · exact proceed_snd _ _ session call current (k + 1)

/-- **What an append's statement answers depends on its stream alone.** -/
theorem advance_reads (hcall : session.activity.call = some call) (hs : SameOn call.stream db db') :
    (advance db' i session).2 = (advance db i session).2 := by
  obtain ⟨direct, aborted, activity⟩ := session
  cases activity with
  | beginning c =>
    obtain rfl : c = some call := hcall
    rfl
  | selecting c =>
    obtain rfl : c = call := Option.some.inj hcall
    cases aborted with
    | true => rfl
    | false => exact select_reads hs
  | inserting c current k =>
    obtain rfl : c = call := Option.some.inj hcall
    exact insertEvent_reads hs current k
  | rereading c =>
    obtain rfl : c = call := Option.some.inj hcall
    have hcurrent : currentVersion c.stream db'.committed =
      currentVersion c.stream db.committed := by
      unfold currentVersion
      rw [hs.committed]
    simp only [advance, hcurrent]
  | committing => rfl
  | _ => cases hcall

/-- The commit of a direct append publishes rows of its stream only. -/
theorem Moves.committed_other {cause : Cause E} {o : Outcome E}
    (hm : Moves db i session cause o) (hi : SessionInv db i session)
    (hcall : session.activity.call = some call) {other : StreamKey} (hne : other ≠ call.stream) :
    eventsOf other o.1.committed = eventsOf other db.committed := by
  cases hm with
  | committed _ c newVersion _ at' =>
    have hdirect := (hi.stands_at at').1
    rw [Db.committed_publish, eventsOf_append, hi.alone hdirect call hcall other hne,
      List.append_nil]
  | published _ _ at' =>
    rw [at'] at hcall
    cases hcall
  | checked _ _ _ _ _ _ goes | inserted _ _ _ _ _ _ _ _ goes =>
    exact congrArg (eventsOf other ·.committed) goes.db_eq
  | _ => rfl

theorem Moves.own_other {cause : Cause E} {o : Outcome E} (hm : Moves db i session cause o)
    (hlt : i < db.pending.length) (hcall : session.activity.call = some call)
    {other : StreamKey} (hne : other ≠ call.stream) :
    eventsOf other (o.1.own i) = eventsOf other (db.own i) ∨ o.1.own i = [] := by
  cases hm with
  | checked _ _ _ _ _ _ goes =>
    rw [goes.db_eq]
    exact .inl rfl
  | inserted _ _ _ _ at' _ _ _ goes =>
    rw [at'] at hcall
    cases hcall
    rw [goes.db_eq, Db.own_insert_self hlt, eventsOf_append, AppendCall.row_eq, eventsOf_event,
      AppendCall.eventRow_stream, if_neg (Ne.symm hne), List.append_nil]
    exact .inl rfl
  | confirmed _ at' =>
    rw [at'] at hcall
    cases hcall
  | committed | published => exact .inr (Db.own_publish_self db i)
  | collided | rolledBack | closed | failed | failedCommit => exact .inr (Db.own_discard_self db i)
  | _ => exact .inl rfl

theorem keepsTo {s : State E} (hinv : StreamsInv s) (hat : s.sessions[i]? = some session)
    (hcall : session.activity.call = some call) : KeepsTo call.stream s.db i session := by
  have hlt := hinv.lt_pending hat
  have hm : Moves s.db i session .statement (advance s.db i session) := moves_advance
  refine ⟨?_, ?_, ?_, ?_⟩
  · intro db' hs
    exact advance_reads hcall hs
  · intro other hne
    exact hm.committed_other (hinv.sessions i session hat) hcall hne
  · intro j hj
    exact hm.touches.own_ne hj
  · intro other hne
    exact hm.own_other hlt hcall hne

end

/-! ## Conflicts -/

section
variable {db : Db (Row E)} {i : Nat} {session : Session E} {cause : Cause E} {o : Outcome E}

/-- **A conflict names another version**: the check read one, or the stream has
moved past the expected one since. -/
theorem Moves.conflict_differs (hm : Moves db i session cause o) (hn : Numbering db)
    (hi : SessionInv db i session) {id : String} {expected actual : Int}
    (ho : o.2.2 = some (.appended (.error (.conflict id expected actual)))) :
    actual ≠ expected := by
  cases hm with
  | refused _ _ differs =>
    simp only [AppendArgs.versionConflict, Option.some.injEq, Answer.appended.injEq,
      Except.error.injEq, PersistenceError.conflict.injEq] at ho
    obtain ⟨_, rfl, rfl⟩ := ho
    exact differs
  | reread call at' =>
    simp only [AppendArgs.versionConflict, Option.some.injEq, Answer.appended.injEq,
      Except.error.injEq, PersistenceError.conflict.injEq] at ho
    obtain ⟨_, rfl, rfl⟩ := ho
    have hbehind : call.args.expectedVersion < count call.stream db := hi.stands_at at'
    rw [hn.currentVersion_committed]
    omega
  | unresolved _ _ resolved =>
    rw [key_error resolved] at ho
    simp at ho
  | checked _ _ _ _ _ _ goes | inserted _ _ _ _ _ _ _ _ goes => cases goes <;> cases ho
  | committed _ _ _ _ _ results =>
    obtain rfl | ⟨text, rfl⟩ := results <;> simp at ho
  | failed _ _ _ answers | failedBegin _ _ _ answers
  | failedCommit _ answers =>
    obtain ⟨text, rfl⟩ | ⟨text, rfl⟩ := answers <;> simp at ho
  | _ => simp at ho

theorem Steps.conflict_differs {s : State E} {input : Input E} {r : State E × Output}
    (hs : Steps s input r) (hinv : StreamsInv s) {i : Nat} {id : String} {expected actual : Int}
    (ho : r.2 = some (i, .appended (.error (.conflict id expected actual)))) :
    actual ≠ expected := by
  cases hs with
  | ignored => cases ho
  | opened _ _ _ starts =>
    obtain ⟨e, _, hout, hno⟩ | ⟨call, _, hout⟩ := starts
    · rw [hout] at ho
      simp only [Option.some.injEq, Prod.mk.injEq, Answer.appended.injEq, Except.error.injEq] at ho
      exact absurd ho.2 (hno id expected actual)
    · rw [hout] at ho
      cases ho
  | moved j session _ _ _ at' moves =>
    exact moves.conflict_differs hinv.numbering (hinv.sessions j session at') (told_iff.mp ho).2

end

/-! ## Acknowledged appends -/

section
variable {db : Db (Row E)} {i : Nat} {session : Session E} {cause : Cause E} {o : Outcome E}
  {call : AppendCall E}

theorem Contributed.mono {rows rows' : List (Row E)}
    (hc : Contributed call rows) (hsub : rows ⊆ rows') : Contributed call rows' :=
  fun k stored hev => hsub (hc k stored hev)

theorem Batch.contributed (hb : Batch db i call call.args.expectedVersion call.args.events.length) :
    Contributed call (db.own i) := by
  intro j stored hev
  exact hb.staged j stored (List.getElem?_eq_some_iff.mp hev).1 hev

variable (hm : Moves db i session cause o)
include hm

theorem Moves.direct_eq : o.2.1.direct = session.direct := by
  cases hm with
  | checked _ _ _ _ _ _ goes | inserted _ _ _ _ _ _ _ _ goes => cases goes <;> rfl
  | _ => rfl

/-- A session that is over stays so. -/
theorem Moves.done_stays (hdone : session.activity = .done) : o.2.1.activity = .done := by
  cases hm with
  | waits | unresolved => exact hdone
  | committed | published | rolledBack | closed | failedBegin | failedCommit => rfl
  | failed _ _ running => exact absurd hdone running
  | dropped at' => simp [hdone, Activity.droppable] at at'
  | _ => simp_all

theorem Moves.own_grows (hlt : i < db.pending.length) (hlive : o.2.1.aborted = false)
    (hrun : o.2.1.activity ≠ .done) :
    session.aborted = false ∧ session.activity ≠ .done ∧ db.own i ⊆ o.1.own i := by
  have hrunning : session.activity ≠ .done := fun hdone => hrun (hm.done_stays hdone)
  cases hm with
  | checked _ _ _ live _ _ goes =>
    rw [goes.db_eq]
    exact ⟨live, hrunning, List.Subset.refl _⟩
  | inserted _ _ _ _ _ _ _ _ goes =>
    have hlive' : session.aborted = false := by cases goes <;> exact hlive
    rw [goes.db_eq, Db.own_insert_self hlt]
    exact ⟨hlive', hrunning, List.subset_append_left _ _⟩
  | confirmed _ _ live =>
    refine ⟨live, hrunning, ?_⟩
    rw [Db.own_insert_self hlt]
    exact List.subset_append_left _ _
  | committed | published | rolledBack | closed | failedCommit => exact absurd rfl hrun
  | collided | failed => cases hlive
  | _ => exact ⟨hlive, hrunning, List.Subset.refl _⟩

/-- **An append is acknowledged when its batch is complete.** -/
theorem Moves.completes (hn : Numbering db) (hlt : i < db.pending.length)
    (hi : SessionInv db i session) (hcall : session.activity.call = some call)
    {newVersion : Int} (ho : o.2.2 = some (.appended (.ok newVersion))) :
    (o.2.1.direct = false ∧ o.2.1.activity = .idle ∧
        Batch o.1 i call call.args.expectedVersion call.args.events.length) ∨
      (o.2.1.activity = .done ∧ o.1 = db.publish i ∧
        Batch db i call call.args.expectedVersion call.args.events.length) := by
  cases hm with
  | checked _ _ at' _ read version goes =>
    rw [at'] at hcall
    cases hcall
    cases goes with
    | more | committing => cases ho
    | answered full isUnit => exact .inl ⟨isUnit, rfl, (Batch.start hn read version).complete full⟩
  | inserted _ _ _ _ at' event _ new goes =>
    rw [at'] at hcall
    cases hcall
    have hb := (hi.stands_at at').2.insert hn hlt event new
    cases goes with
    | more | committing => cases ho
    | answered full isUnit => exact .inl ⟨isUnit, rfl, hb.complete full⟩
  | committed _ _ version _ at' =>
    rw [at'] at hcall
    cases hcall
    exact .inr ⟨rfl, rfl, (hi.stands_at at').2⟩
  | failed _ _ _ answers | failedBegin _ _ _ answers
  | failedCommit _ answers =>
    obtain ⟨text, rfl⟩ | ⟨text, rfl⟩ := answers <;> simp at ho
  | _ => simp at ho

/-- A commit that is answered with `Ok` publishes, if the transaction lives. -/
theorem Moves.commit_publishes (ho : o.2.2 = some (.committed (.ok ()))) :
    session.activity = .publishing ∧ o.2.1.activity = .done ∧
      (session.aborted = false → o.1 = db.publish i) := by
  cases hm with
  | checked _ _ _ _ _ _ goes | inserted _ _ _ _ _ _ _ _ goes => cases goes <;> cases ho
  | published _ _ at' => exact ⟨at', rfl, fun _ => rfl⟩
  | rolledBack at' dead =>
    refine ⟨at', rfl, fun hlive => ?_⟩
    rw [dead] at hlive
    cases hlive
  | failed _ _ _ answers | failedBegin _ _ _ answers
  | failedCommit _ answers =>
    obtain ⟨text, rfl⟩ | ⟨text, rfl⟩ := answers <;> simp at ho
  | _ => simp at ho

/-- Only a call of `commit` brings a session to its `COMMIT`. -/
theorem Moves.publishing (hact : o.2.1.activity = .publishing) :
    (session.activity = .publishing ∧ o.2.1.aborted = session.aborted) ∨
      (cause = .call .commit ∧ session.direct = false ∧ o.2.1.aborted = session.aborted) := by
  cases hm with
  | waits | unresolved => exact .inl ⟨hact, rfl⟩
  | calledCommit _ isUnit => exact .inr ⟨rfl, isUnit, rfl⟩
  | checked _ _ _ _ _ _ goes | inserted _ _ _ _ _ _ _ _ goes => cases goes <;> cases hact
  | refused | reread | failed | failedReread =>
    obtain h | h := session.answered_activity <;> cases h.symm.trans hact
  | _ => cases hact

end

/-- An append is in when its rows are. -/
def bookkeeping : Bookkeeping (AppendCall E) (Session E) (Row E) where
  has := Contributed
  mono := Contributed.mono
  isUnit session := session.direct = false
  runs session := session.aborted = false ∧ session.activity ≠ .done
  isOver session := session.activity = .done

/-- **What has been acknowledged** in the run `h` that ends in `s`. -/
structure LiveLedger (h : History E) (s : State E) : Prop extends
    Ledger bookkeeping (fun i call => ∃ t ∈ h, Acknowledges t i call)
      (fun i => ∃ t ∈ h, t.output = some (i, .committed (.ok ()))) s.db s.sessions where
  /-- Only units of work whose transaction lives are at their `COMMIT`. -/
  live : ∀ (i : Nat) (session : Session E), s.sessions[i]? = some session →
    session.activity = .publishing → session.direct = false ∧ session.aborted = false

section
variable {h : History E} {s : State E} {input : Input E}

/-- A step that answers nothing, or with the error of an append. -/
def Uneventful (output : Output) : Prop :=
  output = none ∨ ∃ i e, output = some (i, .appended (.error e))

theorem Uneventful.not_ok {output : Output} (hu : Uneventful output) (i : Nat) :
    output ≠ some (i, .committed (.ok ())) := by
  obtain rfl | ⟨j, e, rfl⟩ := hu <;> simp

theorem Uneventful.acknowledges {t : Event E} (hu : Uneventful t.output) (i : Nat)
    (call : AppendCall E) : ¬ Acknowledges t i call := by
  rintro ⟨⟨n, hout⟩, -⟩
  obtain h | ⟨j, e, h⟩ := hu <;> simp [h] at hout

/-- Such a step takes nothing from a session there was. -/
theorem LiveLedger.frame (hl : LiveLedger h s) {last : Event E} {s' : State E}
    (hu : Uneventful last.output) (hsessions : ∀ (i : Nat) session,
      s.sessions[i]? = some session → s'.sessions[i]? = some session)
    (hcommitted : s'.db.committed = s.db.committed) (hown : ∀ i, s'.db.own i = s.db.own i)
    (hlive : ∀ (i : Nat) (session : Session E), s'.sessions[i]? = some session →
      session.activity = .publishing → session.direct = false ∧ session.aborted = false) :
    LiveLedger (h ++ [last]) s' := by
  refine ⟨hl.toLedger.frame ?_ ?_ hcommitted hown hsessions, hlive⟩
  · intro i call ha
    exact (exists_mem_snoc.mp ha).resolve_right (hu.acknowledges i call)
  · intro i hc
    exact (exists_mem_snoc.mp hc).resolve_right (hu.not_ok i)

variable {session : Session E}

theorem ledger_opened (hl : LiveLedger h s) {output : Output}
    (hstart : (∃ e, session.activity = .done ∧
        output = some (s.sessions.length, .appended (.error e))) ∨
      (∃ call, session.activity = .beginning call ∧ output = none)) :
    LiveLedger (h ++ [⟨s, input, output, s.opened session⟩]) (s.opened session) := by
  refine hl.frame ?_ ?_ rfl (Db.own_start s.db) ?_
  · obtain ⟨e, _, hout⟩ | ⟨c, _, hout⟩ := hstart
    · exact .inr ⟨_, e, hout⟩
    · exact .inl hout
  · intro i session' hat
    exact (List.getElem?_append_left (List.getElem?_eq_some_iff.mp hat).1).trans hat
  · intro i session' hat hact
    obtain ⟨_, rfl⟩ | hat' := opened_sessions hat
    · obtain ⟨e, hdone, _⟩ | ⟨c, hbegin, _⟩ := hstart <;> simp_all
    · exact hl.live i session' hat' hact

/-- The acknowledgements of a move are its session's. -/
theorem acknowledges_moved {i j : Nat} {o : Outcome E}
    {call : AppendCall E} (hat : s.sessions[i]? = some session)
    (ha : Acknowledges ⟨s, input, (s.moved i o).2, (s.moved i o).1⟩ j call) :
    j = i ∧ session.activity.call = some call ∧
      ∃ newVersion, o.2.2 = some (.appended (.ok newVersion)) := by
  obtain ⟨⟨n, hout⟩, session', hat', hcall⟩ := ha
  obtain ⟨rfl, hans⟩ := told_iff.mp hout
  obtain rfl : session = session' := Option.mem_unique hat hat'
  exact ⟨rfl, hcall, n, hans⟩

theorem ledger_moved (hl : LiveLedger h s) (hinv : StreamsInv s) {i : Nat} {cause : Cause E}
    {o : Outcome E} (hat : s.sessions[i]? = some session) (hm : Moves s.db i session cause o)
    (hcommit : cause = .call .commit → session.aborted = false) :
    LiveLedger (h ++ [⟨s, input, (s.moved i o).2, (s.moved i o).1⟩]) (s.moved i o).1 := by
  have hlt := hinv.lt_pending hat
  refine ⟨hl.toLedger.moved hat hm.touches hm.direct_eq.trans hm.done_stays ?_
    (o.2.2 = some (.committed (.ok ()))) ?_ (fun call => session.activity.call = some call ∧
      ∃ newVersion, o.2.2 = some (.appended (.ok newVersion))) ?_ ?_ ?_, ?_⟩
  · rintro - ⟨hlive, hrun⟩
    obtain ⟨hlive', hrun', hsub⟩ := hm.own_grows hlt hlive hrun
    exact ⟨⟨hlive', hrun'⟩, hsub⟩
  · intro ho
    obtain ⟨hact, hdone, hpublish⟩ := hm.commit_publishes ho
    have hlive := (hl.live i session hat hact).2
    exact ⟨⟨hlive, by simp [hact]⟩, hpublish hlive, hdone⟩
  · rintro call ⟨hcall, n, ho⟩
    refine ⟨?_, by simp [ho], ?_⟩
    · intro (hdone : session.activity = .done)
      rw [hdone] at hcall
      cases hcall
    · obtain ⟨hunit, -, hb⟩ | ⟨-, hpublish, hb⟩ :=
        hm.completes hinv.numbering hlt (hinv.sessions i session hat) hcall ho
      · exact .inr ⟨hunit, hb.contributed⟩
      · refine .inl ?_
        show Contributed call o.1.committed
        rw [hpublish]
        exact hb.contributed.mono (List.subset_append_right _ _)
  · intro j call ha
    exact (exists_mem_snoc.mp ha).imp_right (acknowledges_moved hat)
  · intro j hc
    exact (exists_mem_snoc.mp hc).imp_right told_iff.mp
  · intro j session' hat' hact
    obtain ⟨rfl, rfl⟩ | ⟨_, hold⟩ := moved_sessions hat hat'
    · rw [hm.direct_eq]
      obtain ⟨hwas, habort⟩ | ⟨hcause, hunit, habort⟩ := hm.publishing hact
      · rw [habort]
        exact hl.live j session hat hwas
      · rw [habort]
        exact ⟨hunit, hcommit hcause⟩
    · exact hl.live j session' hold hact

theorem ledger_init : LiveLedger [] (postgres E).init := by
  refine ⟨⟨by simp, by simp⟩, ?_⟩
  intro i session hat
  simp [postgres] at hat

/-- Only a call of `commit` has it for a cause. -/
theorem input_commit {i : Nat} (h : input.target = some (i, .call .commit)) :
    input = .call i .commit := by
  cases input <;> simp_all [Input.target]

theorem ledger_step (hl : LiveLedger h s) (hinv : StreamsInv s) {r : State E × Output}
    (hs : Steps s input r) (hc : commitsLive (⟨s, input, r.2, r.1⟩ : Event E) = true) :
    LiveLedger (h ++ [⟨s, input, r.2, r.1⟩]) r.1 := by
  cases hs with
  | ignored => exact hl.frame (.inl rfl) (fun _ _ hat => hat) rfl (fun _ => rfl) hl.live
  | opened _ _ _ starts =>
    apply ledger_opened hl
    obtain ⟨e, hact, hout, _⟩ | hbegin := starts
    · exact .inl ⟨e, hact, hout⟩
    · exact .inr hbegin
  | moved _ _ _ _ target at' moves =>
    apply ledger_moved hl hinv at' moves
    intro hcause
    subst hcause
    obtain rfl := input_commit target
    simpa [commitsLive, at'] using hc

theorem ledger_run {h : History E} {s : State E} (he : (postgres E).Run h s)
    (ha : Along (fun _ t => commitsLive t = true) h) : LiveLedger h s := by
  refine he.invariant_along (P := LiveLedger) ledger_init ?_ ha
  intro h s input hex hl hc
  exact ledger_step hl (streams_run hex) (steps_step s input) hc

end

/-! ## Linear streams -/

/-- **Postgres streams are linear**, and every acknowledged append is in its
stream, in every run whose units of work are committed only while their
transactions live. -/
theorem streams_linear {h : History E} {s : State E} (he : (postgres E).Exec (postgres E).init h s)
    (ha : Along (fun _ t => commitsLive t = true) h) : Linear h s where
  versions := by
    intro stream
    exact ((streams_run he).numbering.committed stream).eq_range
  contributed := by
    intro t ht i call hack hfinished
    refine (ledger_run he ha).finished ⟨t, ht, hack⟩ (hfinished.imp_left ?_)
    rintro ⟨session, hat, hdirect⟩
    exact ⟨session, hat, by simp [bookkeeping, hdirect]⟩
  isolated := by
    intro t ht i session call hinput hat hcall
    obtain ⟨h₁, h₂, rfl⟩ := List.append_of_mem ht
    obtain ⟨he₁, _, _⟩ := he.split_at
    exact keepsTo (streams_run he₁) hat hcall
  conflicts := by
    intro t ht i id expected actual hout
    obtain ⟨h₁, h₂, rfl⟩ := List.append_of_mem ht
    obtain ⟨he₁, hfire, _⟩ := he.split_at
    have hinv := streams_run he₁
    rw [hfire] at hout
    exact (steps_step t.pre t.input).conflict_differs hinv hout

/-- A unit of work appends to a systemwide stream while a direct append to it is between its
version check and its first row. -/
def racingAppends : List (Input Nat) :=
  [.begin, .append (sampleAppend 0 7), .append { sampleAppend 0 8 with tenantId := some "acme" },
    .advance 0, .advance 1, .advance 2,
    .call 0 (.append (sampleAppend 0 5)), .advance 0, .advance 1, .advance 2,
    .advance 0, .advance 1, .advance 2, .advance 2,
    .call 0 (.append (sampleAppend 1 6)), .advance 0, .advance 0, .call 0 .commit, .advance 0,
    .advance 1, .advance 1]

/-- In that run the direct append waits for the unit of work and is refused at
the version the unit left. -/
theorem streams_linear_raced :
    ((postgres Nat).trace (postgres Nat).init racingAppends).getLast?.map (fun t => t.output) =
        some (some (1, .appended (.error (.conflict "order-o-1" 0 2)))) ∧
      Linear ((postgres Nat).trace (postgres Nat).init racingAppends)
        ((postgres Nat).after (postgres Nat).init racingAppends) :=
  ⟨by decide, streams_linear (Machine.exec_trace _ _ _) (Along.of_forall (by decide))⟩

/-- A unit of work fails to append to its second order, and is committed all the same. -/
def committedAfterConflict : List (Input Nat) :=
  [.begin, .advance 0, .call 0 (.append (sampleAppend 0 5)), .advance 0, .advance 0,
    .call 0 (.append { sampleAppend 0 6 with aggregateId := "o-2" }), .advance 0,
    .append { sampleAppend 0 7 with aggregateId := "o-2" }, .advance 1, .advance 1, .advance 1,
    .advance 1, .advance 0, .advance 0, .call 0 .commit, .advance 0]

/-- The first append was acknowledged with version 1 and the commit with `Ok`,
and the stream is empty. -/
theorem commit_loses_append :
    ((postgres Nat).trace (postgres Nat).init committedAfterConflict).map (fun t => t.output) =
        [none, some (0, .begun (.ok ())), none, none, some (0, .appended (.ok 1)),
          none, none, none, none, none, none, some (1, .appended (.ok 1)),
          none, some (0, .appended (.error (.conflict "order-o-2" 0 1))),
          none, some (0, .committed (.ok ()))] ∧
      eventsOf sampleStream
        ((postgres Nat).after (postgres Nat).init committedAfterConflict).db.committed = [] ∧
      ¬ Linear ((postgres Nat).trace (postgres Nat).init committedAfterConflict)
        ((postgres Nat).after (postgres Nat).init committedAfterConflict) := by
  refine ⟨by decide, by decide, ?_⟩
  intro hlinear
  have hrow := hlinear.contributed _ (List.mem_of_getElem? (i := 4) rfl) 0
    ⟨sampleAppend 0 5, sampleStream, rfl⟩ ⟨⟨1, rfl⟩, _, rfl, rfl⟩
    (.inr ⟨_, List.mem_of_getElem? (i := 15) rfl, rfl⟩) 0 ⟨5, none⟩ rfl
  revert hrow
  decide

end EgoRs.Postgres
