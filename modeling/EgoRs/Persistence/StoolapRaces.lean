import EgoRs.Persistence.StoolapAcknowledged

/-! # Lost Races on Stoolap

Writers that append to the same stream race for its next version. Over
every interleaving of direct appends and units of work, and wherever the
engine raises a collision, the loser should be told `Conflict`, what was
acknowledged should be there, and a unit of work should publish nothing of
an append that failed.

`append_into_tx` turns every error of an insert into `Internal`, and
`commit` of a unit of work does the same with the error of its commit. An
append that fails after some of its rows leaves those in the transaction,
and a later commit publishes them. In runs that avoid the three, all of it
holds.
-/

namespace EgoRs.Stoolap

open Framework EventStore

variable {E P : Type}

/-! ## The promise -/

/-- The session is a direct append, or the unit of work was told that its commit
worked. -/
def Finished (h : History E P) (s : State P) (i : Nat) : Prop :=
  (∃ session, s.sessions[i]? = some session ∧ session.direct = true) ∨
    ∃ t ∈ h, t.output = some (i, .committed (.ok ()))

/-- The rows that are in of an append that is not through. -/
def Activity.staged : Activity P → List (EventRow P)
  | .inserting call current inserted =>
    (call.rows.take inserted).mapIdx fun k columns => call.row current k columns
  | _ => []

/-- **What a lost race looks like** in a run `h` that ends in `s`. -/
structure RacesReported (h : History E P) (s : State P) : Prop where
  /-- A call whose statement fails for no reason of its own is told of a
      conflict. -/
  conflicts : ∀ t ∈ h, ∀ i raised surfaces e, t.input = .advance i raised surfaces →
    t.output = some (i, .appended (.error e)) ∨ t.output = some (i, .committed (.error e)) →
    ∃ id expected actual, e = .conflict id expected actual
  /-- An append that was acknowledged, by its unit's commit too, is there, right
      after the version it expected. -/
  contributed : ∀ t ∈ h, ∀ i call, Acknowledges t i call → Finished h s i →
    ∀ row, Brings call row → row ∈ s.db.committed
  /-- A unit of work that commits publishes no row of an append that failed. -/
  withheld : ∀ t ∈ h, ∀ i session e, t.output = some (i, .appended (.error e)) →
    t.pre.sessions[i]? = some session → (∃ u ∈ h, u.output = some (i, .committed (.ok ()))) →
    ∀ row ∈ session.activity.staged, row ∉ s.db.committed
  /-- All it publishes is of appends that were acknowledged to it. -/
  published : ∀ t ∈ h, ∀ i, t.output = some (i, .committed (.ok ())) → ∀ row ∈ t.pre.db.own i,
    ∃ u ∈ h, ∃ call, Acknowledges u i call ∧ Brings call row

/-- The step meets a collision that the store has no conflict for: at an insert,
or at the commit of a unit of work. -/
def meetsCollision (t : Event E P) : Bool :=
  match t.input with
  | .advance i _ surfaces =>
    match t.pre.sessions[i]? with
    | some session =>
      match session.activity with
      | .inserting call current inserted =>
        match call.rows[inserted]? with
        | some columns => surfaces && collides t.pre.db i (call.row current inserted columns)
        | none => false
      | .publishing => commitCollides t.pre.db i surfaces
      | _ => false
    | none => false
  | _ => false

/-- In `t` an append of session `i` fails with some of its rows in. -/
def failsMidway (i : Nat) (t : Event E P) : Bool :=
  match t.output, t.pre.sessions[i]? with
  | some (j, .appended (.error _)), some session =>
    decide (j = i) && !session.activity.staged.isEmpty
  | _, _ => false

/-- The step calls `commit` on a unit of work one of whose appends has failed
midway. -/
def commitsBroken (h : History E P) (t : Event E P) : Bool :=
  match t.input with
  | .call i .commit => h.any (failsMidway i)
  | _ => false

def racesHandled (h : History E P) (t : Event E P) : Bool :=
  !meetsCollision t && !commitsBroken h t

/-! ## Conflicts -/

section
variable {db : Db (EventRow P)} {i : Nat} {session : Session P} {o : Outcome P}

/-- A statement that meets no collision at an insert or at a unit's commit fails
with a conflict or not at all. -/
theorem Moves.conflict {surfaces : Bool} (hm : Moves (E := E) db i session (.statement surfaces) o)
    {e : PersistenceError}
    (ho : o.2.2 = some (.appended (.error e)) ∨ o.2.2 = some (.committed (.error e)))
    (hinsert : ∀ call current k columns, session.activity = .inserting call current k →
      call.rows[k]? = some columns →
      (surfaces && collides db i (call.row current k columns)) = false)
    (hcommit : session.activity = .publishing → commitCollides db i surfaces = false) :
    ∃ id expected actual, e = .conflict id expected actual := by
  cases hm with
  | refused _ call actual _ refuses =>
    obtain rfl : call.conflict actual = e := by cases refuses <;> simpa using ho
    exact ⟨_, _, _, rfl⟩
  | reread _ call actual =>
    obtain rfl : call.conflict actual = e := by simpa using ho
    exact ⟨_, _, _, rfl⟩
  | checked _ _ _ _ _ _ goes | inserted _ _ _ _ _ _ _ goes => cases goes <;> simp at ho
  | collided _ call current k columns _ at' event collision =>
    rw [hinsert call current k columns at' event] at collision
    cases collision
  | lost _ _ at' collision =>
    rw [hcommit at'] at collision
    cases collision
  | _ => simp at ho

theorem Steps.conflict {s : State P} {raised : WriteConflict} {surfaces : Bool}
    {r : State P × Output} (hs : Steps (E := E) s (.advance i raised surfaces) r)
    (hclear : meetsCollision (⟨s, .advance i raised surfaces, r.2, r.1⟩ : Event E P) = false)
    {e : PersistenceError}
    (ho : r.2 = some (i, .appended (.error e)) ∨ r.2 = some (i, .committed (.error e))) :
    ∃ id expected actual, e = .conflict id expected actual := by
  cases hs with
  | ignored =>
    obtain h | h := ho <;> cases h
  | opened _ _ _ _ calls => cases calls
  | moved _ _ _ o target at' moves =>
    cases target
    simp only [meetsCollision, at'] at hclear
    have ho' : o.2.2 = some (.appended (.error e)) ∨ o.2.2 = some (.committed (.error e)) := by
      obtain h | h := ho
      · exact .inl (told_iff.mp h).2
      · exact .inr (told_iff.mp h).2
    refine moves.conflict ho' ?_ ?_
    · intro call current k columns hact hev
      simpa only [hact, hev] using hclear
    · intro hact
      simpa only [hact] using hclear

end

/-! ## What a unit of work publishes -/

/-- No append of session `i` has failed midway. -/
def Unbroken (h : History E P) (i : Nat) : Prop := ∀ t ∈ h, failsMidway i t = false

/-- `row` is of an append that was acknowledged to session `i`. -/
def Accounted (h : History E P) (i : Nat) (row : EventRow P) : Prop :=
  ∃ u ∈ h, ∃ call, Acknowledges u i call ∧ Brings call row

section

theorem mem_staged_inserting {call : AppendCall P} {current : Int} {k : Nat} {row : EventRow P} :
    row ∈ (Activity.inserting call current k).staged ↔
      ∃ j columns, j < k ∧ call.rows[j]? = some columns ∧ row = call.row current j columns := by
  unfold Activity.staged
  rw [List.mem_iff_getElem?]
  constructor
  · rintro ⟨j, hj⟩
    rw [List.getElem?_mapIdx, Option.map_eq_some_iff] at hj
    obtain ⟨columns, hev, rfl⟩ := hj
    rw [List.getElem?_take] at hev
    by_cases hlt : j < k
    · rw [if_pos hlt] at hev
      exact ⟨j, columns, hlt, hev, rfl⟩
    · rw [if_neg hlt] at hev
      cases hev
  · rintro ⟨j, columns, hlt, hev, rfl⟩
    refine ⟨j, ?_⟩
    rw [List.getElem?_mapIdx, List.getElem?_take, if_pos hlt, hev]
    rfl

variable {db : Db (EventRow P)} {i : Nat} {session : Session P} {cause : Cause E} {o : Outcome P}

/-- A row in a unit's transaction after a move is of the append that goes on or is acknowledged
now, or it was there before, and its append has not ended but with an error. -/
theorem Moves.accounts (hm : Moves db i session cause o) (hlt : i < db.pending.length)
    (hi : SessionInv db i session) (hunit : session.direct = false) {row : EventRow P}
    (hrow : row ∈ o.1.own i) : row ∈ o.2.1.activity.staged ∨
      (∃ call newVersion, session.activity.call = some call ∧
        o.2.2 = some (.appended (.ok newVersion)) ∧ Brings call row) ∨
      (row ∈ db.own i ∧ (row ∈ session.activity.staged →
        ∃ e, o.2.2 = some (.appended (.error e)))) := by
  cases hm with
  | waits =>
    by_cases hs : row ∈ session.activity.staged
    · exact .inl hs
    · exact .inr (.inr ⟨hrow, fun h => absurd h hs⟩)
  | unprepared _ e | failedReread _ e => exact .inr (.inr ⟨hrow, fun _ => ⟨e, rfl⟩⟩)
  | refused _ _ _ _ refuses | collided _ _ _ _ _ _ _ _ _ refuses | failedAppend _ _ refuses =>
    cases refuses with
    | direct => simp at hrow
    | inUnit => exact .inr (.inr ⟨hrow, fun _ => ⟨_, rfl⟩⟩)
  | checked _ _ _ at' _ _ goes =>
    rw [goes.db_eq] at hrow
    refine .inr (.inr ⟨hrow, ?_⟩)
    rw [at']
    intro h
    cases h
  | inserted _ call current k columns at' event goes =>
    have hb := hi.stands_at at'
    rw [goes.db_eq, Db.own_insert_self hlt, List.mem_append, List.mem_singleton] at hrow
    have hof : (∃ j columns', j < k + 1 ∧ call.rows[j]? = some columns' ∧
        row = call.row current j columns') ∨ row ∈ db.own i ∧ row ∉ session.activity.staged := by
      obtain hold | hnew := hrow
      · by_cases hs : row ∈ session.activity.staged
        · rw [at', mem_staged_inserting] at hs
          obtain ⟨j, columns', hj, hrest⟩ := hs
          exact .inl ⟨j, columns', by omega, hrest⟩
        · exact .inr ⟨hold, hs⟩
      · exact .inl ⟨k, columns, by omega, event, hnew⟩
    obtain ⟨j, columns', hj, hev, hr⟩ | ⟨hold, hs⟩ := hof
    · -- whatever is of this append is in the batch or acknowledged with it
      cases goes with
      | more => exact .inl (mem_staged_inserting.mpr ⟨j, columns', hj, hev, hr⟩)
      | committing _ direct =>
        rw [direct] at hunit
        cases hunit
      | answered =>
        refine .inr (.inl ⟨call, _, by rw [at']; rfl, rfl, j, columns', hev, ?_⟩)
        rw [← hb.version]
        exact hr
    · exact .inr (.inr ⟨hold, fun h => absurd h hs⟩)
  | begun _ at' | opened _ _ at' | called _ _ at' | calledCommit at'
  | failedBegin _ _ at' =>
    refine .inr (.inr ⟨hrow, ?_⟩)
    rw [at']
    intro h
    cases h
  | reread => exact .inr (.inr ⟨hrow, fun _ => ⟨_, rfl⟩⟩)
  | _ => simp at hrow

/-- Only a call of `commit` brings a session to its commit. -/
theorem Moves.publishing (hm : Moves db i session cause o) (hact : o.2.1.activity = .publishing) :
    session.activity = .publishing ∨
      (cause = .call .commit ∧ session.activity = .idle ∧ session.direct = false) := by
  cases hm with
  | waits | unprepared => exact .inl hact
  | calledCommit at' isUnit => exact .inr ⟨rfl, at', isUnit⟩
  | refused _ _ _ _ refuses | collided _ _ _ _ _ _ _ _ _ refuses | failedAppend _ _ refuses =>
    cases refuses <;> cases hact
  | checked _ _ _ _ _ _ goes | inserted _ _ _ _ _ _ _ goes => cases goes <;> cases hact
  | _ => cases hact

end

/-- **What units of work have in their transactions** is what they were told, as
long as none of their appends fails midway. -/
structure Whole (h : History E P) (s : State P) : Prop where
  publishing : ∀ (i : Nat) (session : Session P), s.sessions[i]? = some session →
    session.activity = .publishing → session.direct = false ∧ Unbroken h i
  closed : ∀ t ∈ h, ∀ i, t.output = some (i, .committed (.ok ())) → Unbroken h i
  accounted : ∀ (i : Nat) (session : Session P), s.sessions[i]? = some session →
    session.direct = false → Unbroken h i → ∀ row ∈ s.db.own i,
    row ∈ session.activity.staged ∨ Accounted h i row
  published : ∀ t ∈ h, ∀ i, t.output = some (i, .committed (.ok ())) →
    ∀ row ∈ t.pre.db.own i, Accounted h i row

section
variable {h : History E P} {s : State P} {input : Input E} {last : Event E P} {i : Nat}

theorem Unbroken.before (hu : Unbroken (h ++ [last]) i) : Unbroken h i :=
  fun t ht => hu t (List.mem_append_left _ ht)

theorem Unbroken.snoc (hu : Unbroken h i) (hlast : failsMidway i last = false) :
    Unbroken (h ++ [last]) i := by
  intro t ht
  obtain ht | rfl := mem_snoc ht
  · exact hu t ht
  · exact hlast

theorem Accounted.later {row : EventRow P} (ha : Accounted h i row) :
    Accounted (h ++ [last]) i row := by
  obtain ⟨u, hu, hcall⟩ := ha
  exact ⟨u, List.mem_append_left _ hu, hcall⟩

/-- An append fails midway with an error, to a session that has rows of it. -/
theorem failsMidway_eq_false (hno : ∀ e session, last.output = some (i, .appended (.error e)) →
    last.pre.sessions[i]? = some session → session.activity.staged = []) :
    failsMidway i last = false := by
  unfold failsMidway
  split
  · rename_i j e session hout hsession
    by_cases hj : j = i
    · subst hj
      simp [hno e session hout hsession]
    · simp [hj]
  · rfl

theorem failsMidway_of_error {session : Session P} {e : PersistenceError}
    (hout : last.output = some (i, .appended (.error e)))
    (hat : last.pre.sessions[i]? = some session) {row : EventRow P}
    (hrow : row ∈ session.activity.staged) : failsMidway i last = true := by
  have hne : session.activity.staged.isEmpty = false := by
    cases hl : session.activity.staged with
    | nil =>
      rw [hl] at hrow
      cases hrow
    | cons => rfl
  simp [failsMidway, hout, hat, hne]

theorem Whole.frame {s' : State P} (hw : Whole h s) (hu : Uneventful last.output)
    (hfails : ∀ i, failsMidway i last = false) (hown : ∀ i, s'.db.own i = s.db.own i)
    (hsessions : ∀ (i : Nat) (session : Session P), s'.sessions[i]? = some session →
      s.sessions[i]? = some session ∨ (session.activity ≠ .publishing ∧ s.db.own i = [])) :
    Whole (h ++ [last]) s' := by
  have hold : ∀ t ∈ h ++ [last], ∀ i, t.output = some (i, .committed (.ok ())) → t ∈ h := by
    intro t ht i hout
    obtain ht | rfl := mem_snoc ht
    · exact ht
    · exact absurd hout (hu.not_ok i)
  refine ⟨?_, ?_, ?_, ?_⟩
  · intro i session hat hact
    obtain hat' | ⟨hno, _⟩ := hsessions i session hat
    · obtain ⟨hunit, hub⟩ := hw.publishing i session hat' hact
      exact ⟨hunit, hub.snoc (hfails i)⟩
    · exact absurd hact hno
  · intro t ht i hout
    exact (hw.closed t (hold t ht i hout) i hout).snoc (hfails i)
  · intro i session hat hunit hub row hrow
    rw [hown] at hrow
    obtain hat' | ⟨_, hempty⟩ := hsessions i session hat
    · obtain hs | ha := hw.accounted i session hat' hunit hub.before row hrow
      · exact .inl hs
      · exact .inr ha.later
    · rw [hempty] at hrow
      cases hrow
  · intro t ht i hout row hrow
    exact (hw.published t (hold t ht i hout) i hout row hrow).later

theorem Whole.moved (hw : Whole h s) (hinv : StoreInv s) (hl : Booked h s) {i : Nat}
    {session : Session P} {cause : Cause E} {o : Outcome P} (hat : s.sessions[i]? = some session)
    (hm : Moves s.db i session cause o) (hcommit : cause = .call .commit → Unbroken h i) :
    Whole (h ++ [⟨s, input, (s.moved i o).2, (s.moved i o).1⟩]) (s.moved i o).1 := by
  have hlt := hinv.lt_pending hat
  have hi := hinv.sessions i session hat
  let last : Event E P := ⟨s, input, (s.moved i o).2, (s.moved i o).1⟩
  have hother : ∀ j, j ≠ i → failsMidway j last = false := by
    intro j hj
    apply failsMidway_eq_false
    intro e session' hout
    exact absurd (told_iff.mp hout).1 hj
  have hself : session.activity.staged = [] → failsMidway i last = false := by
    intro hnil
    apply failsMidway_eq_false
    intro e session' _ hat'
    obtain rfl : session = session' := Option.mem_unique hat hat'
    exact hnil
  refine ⟨?_, ?_, ?_, ?_⟩
  · intro j session' hat' hact
    obtain ⟨rfl, rfl⟩ | ⟨hne, hold⟩ := getElem?_set_cases hat hat'
    · rw [hm.direct_eq]
      obtain hwas | ⟨hcause, hidle, hunit⟩ := hm.publishing hact
      · obtain ⟨hunit, hub⟩ := hw.publishing j session hat hwas
        exact ⟨hunit, hub.snoc (hself (by rw [hwas]; rfl))⟩
      · exact ⟨hunit, (hcommit hcause).snoc (hself (by rw [hidle]; rfl))⟩
    · obtain ⟨hunit, hub⟩ := hw.publishing j session' hold hact
      exact ⟨hunit, hub.snoc (hother j hne)⟩
  · intro t hmem j hout
    obtain ht | rfl := mem_snoc hmem
    · refine (hw.closed t ht j hout).snoc ?_
      by_cases hj : j = i
      · subst hj
        obtain ⟨session', hat', hdone⟩ := hl.ended j ⟨t, ht, hout⟩
        obtain rfl : session = session' := Option.mem_unique hat hat'
        exact hself (by rw [hdone]; rfl)
      · exact hother j hj
    · obtain ⟨rfl, ho⟩ := told_iff.mp hout
      have hact := (hm.commit_publishes ho).1
      exact (hw.publishing j session hat hact).2.snoc (hself (by rw [hact]; rfl))
  · intro j session' hat' hunit hub row hrow
    obtain ⟨rfl, rfl⟩ | ⟨hne, hold⟩ := getElem?_set_cases hat hat'
    · rw [hm.direct_eq] at hunit
      obtain hs | ⟨call, n, hcall, ho, hbrings⟩ | ⟨hbefore, herror⟩ :=
        hm.accounts hlt hi hunit hrow
      · exact .inl hs
      · -- acknowledged now
        have hout : last.output = some (j, .appended (.ok n)) := told_iff.mpr ⟨rfl, ho⟩
        exact .inr ⟨last, by simp [last], call, ⟨⟨n, hout⟩, session, hat, hcall⟩, hbrings⟩
      · obtain hs | ha := hw.accounted j session hat hunit hub.before row hbefore
        · -- its append ended with an error, midway
          obtain ⟨e, ho⟩ := herror hs
          have hout : last.output = some (j, .appended (.error e)) := told_iff.mpr ⟨rfl, ho⟩
          have hfalse := hub last (by simp [last])
          rw [failsMidway_of_error hout hat hs] at hfalse
          cases hfalse
        · exact .inr ha.later
    · have hown : (s.moved i o).1.db.own j = s.db.own j := hm.touches.own_ne hne
      rw [hown] at hrow
      obtain hs | ha := hw.accounted j session' hold hunit hub.before row hrow
      · exact .inl hs
      · exact .inr ha.later
  · intro t ht j hout row hrow
    obtain ht | rfl := mem_snoc ht
    · exact (hw.published t ht j hout row hrow).later
    · obtain ⟨rfl, ho⟩ := told_iff.mp hout
      have hact := (hm.commit_publishes ho).1
      obtain ⟨hunit, hub⟩ := hw.publishing j session hat hact
      obtain hs | ha := hw.accounted j session hat hunit hub row hrow
      · rw [hact] at hs
        cases hs
      · exact ha.later

theorem Whole.step (hw : Whole h s) (hinv : StoreInv s) (hl : Booked h s) {r : State P × Output}
    (hs : Steps s input r) (hc : racesHandled h ⟨s, input, r.2, r.1⟩ = true) :
    Whole (h ++ [⟨s, input, r.2, r.1⟩]) r.1 := by
  cases hs with
  | ignored =>
    refine hw.frame (.inl rfl) ?_ (fun _ => rfl) fun _ _ hat => .inl hat
    intro i
    apply failsMidway_eq_false
    intro e session hout
    cases hout
  | opened session _ _ starts =>
    refine hw.frame (uneventful_opened starts) ?_ (Db.own_start s.db) ?_
    · intro i
      apply failsMidway_eq_false
      intro e session' hout hat
      -- the session that is answered was not there before the step
      obtain ⟨e, _, hout'⟩ | ⟨call, _, hout'⟩ := starts
      · cases hout'.symm.trans hout
        exact absurd (List.getElem?_eq_some_iff.mp hat).1 (Nat.lt_irrefl _)
      · cases hout'.symm.trans hout
    · intro i session' hat
      obtain ⟨rfl, rfl⟩ | hold := getElem?_concat_cases hat
      · refine .inr ⟨?_, Db.own_of_length_le (by rw [hinv.size])⟩
        obtain ⟨e, hact, _⟩ | ⟨call, hact, _⟩ := starts <;> rw [hact] <;> simp
      · exact .inl hold
  | moved i _ _ _ _ at' moves =>
    apply hw.moved hinv hl at' moves
    intro hcause
    subst hcause
    have hinput : input = .call i .commit := by
      cases input <;> simp_all [Input.target]
    subst hinput
    intro t ht
    have hbroken : h.any (failsMidway i) = false := by
      simpa [racesHandled, meetsCollision, commitsBroken] using hc
    simpa using List.any_eq_false.mp hbroken t ht

theorem whole_run {serialize : E → Except String P} (he : (stoolap serialize).Run h s)
    (ha : Along (fun h t => racesHandled h t = true) h) : Whole h s := by
  refine he.invariant_along (P := Whole) ?_ ?_ ha
  · refine ⟨?_, ?_, ?_, ?_⟩
    · intro i session hat
      simp [stoolap] at hat
    · intro t ht
      cases ht
    · intro i session hat
      simp [stoolap] at hat
    · intro t ht
      cases ht
  · intro h s input hex hw hc
    exact hw.step (storeInv_run hex) (booked_run hex) (steps_step serialize s input) hc

end

/-! ## Races -/

/-- **A lost race is reported as a conflict**, what was acknowledged is there and
nothing else is published, in every run in which no insert and no commit of
a unit of work meets a collision, and no unit of work is committed after an
append that failed midway. -/
theorem races_reported {serialize : E → Except String P} {h : History E P} {s : State P}
    (he : (stoolap serialize).Exec (stoolap serialize).init h s)
    (ha : Along (fun h t => racesHandled h t = true) h) : RacesReported h s where
  conflicts := by
    intro t ht i raised surfaces e hinput hout
    obtain ⟨h₁, h₂, rfl⟩ := List.append_of_mem ht
    obtain ⟨-, hfire, -⟩ := he.split_at
    have hhandled : racesHandled h₁ t = true := ha h₁ t h₂ rfl
    have hclear : meetsCollision t = false := by
      unfold racesHandled at hhandled
      simp only [Bool.and_eq_true, Bool.not_eq_true'] at hhandled
      exact hhandled.1
    have hs := steps_step serialize t.pre t.input
    rw [hfire] at hclear hout
    rw [hinput] at hs hclear hout
    exact hs.conflict hclear hout
  contributed := by
    intro t ht i call hack hfinished
    refine (booked_run he).finished ⟨t, ht, hack⟩ (hfinished.imp_left ?_)
    rintro ⟨session, hat, hdirect⟩
    exact ⟨session, hat, by simp [bookkeeping, hdirect]⟩
  withheld := by
    intro t ht i session e hout hat hcommitted row hrow
    obtain ⟨u, hu, hres⟩ := hcommitted
    -- a unit of work that was committed had no such append
    have hunbroken := (whole_run he ha).closed u hu i hres t ht
    rw [failsMidway_of_error hout hat hrow] at hunbroken
    cases hunbroken
  published := (whole_run he ha).published

/-- The store with numbers for events, as they are. -/
abbrev numberStore : Machine (State Nat) (Input Nat) Output := stoolap .ok

/-- What the engine says to the second writer of a version. -/
def duplicateVersion : WriteConflict := ⟨⟨.uniqueConstraint, "unique constraint failed"⟩, rfl⟩

/-- The next statement of a session, which raises a collision only where it must. -/
def next (i : Nat) : Input Nat := .advance i duplicateVersion false

/-- Two direct appends race for the first version of a stream and collide at the second commit. -/
def racingAppends : List (Input Nat) :=
  [.append (sampleAppend 0 7), .append (sampleAppend 0 8), .begin, next 0, next 1, next 0, next 1,
    next 0, next 1, next 0, .advance 1 duplicateVersion true, next 1, next 2,
    .call 2 (.append (sampleAppend 1 9)), next 2, next 2, .call 2 .commit,
    .advance 2 duplicateVersion true]

theorem races_reported_raced :
    (numberStore.trace numberStore.init racingAppends).map (fun t => t.output) =
      [none, none, none, none, none, none, none, none, none, some (0, .appended (.ok 1)),
        none, some (1, .appended (.error (.conflict "order-o-1" 0 1))), some (2, .begun (.ok ())),
        none, none, some (2, .appended (.ok 2)), none, some (2, .committed (.ok ()))] ∧
      RacesReported (numberStore.trace numberStore.init racingAppends)
        (numberStore.after numberStore.init racingAppends) :=
  ⟨by decide, races_reported (Machine.exec_trace _ _ _) (Along.of_positions (by decide))⟩

/-- Two direct appends race as before, and collide at the insert of the second. -/
def lostAtInsert : List (Input Nat) :=
  [.append (sampleAppend 0 7), .append (sampleAppend 0 8), next 0, next 1, next 0, next 1, next 0,
    .advance 1 duplicateVersion true]

/-- A unit of work races with a direct append, and they collide at its commit. -/
def lostAtCommit : List (Input Nat) :=
  [.begin, .append (sampleAppend 0 8), next 0, next 1, .call 0 (.append (sampleAppend 0 5)),
    next 0, next 0, next 1, next 1, next 1, .call 0 .commit, .advance 0 duplicateVersion true]

/-- Two units append two events each; the first collides at its second row and is committed. -/
def publishedInPart : List (Input Nat) :=
  [.begin, .begin, next 0, next 1,
    .call 1 (.append { sampleAppend 0 7 with events := [⟨7, none⟩, ⟨8, none⟩] }),
    next 1, next 1, next 1,
    .call 0 (.append { sampleAppend 0 5 with events := [⟨5, none⟩, ⟨6, none⟩] }),
    next 0, next 0, .advance 0 duplicateVersion true, .drop 1, .call 0 .commit, next 0]

/-- The loser is told `Internal` at an insert and at a unit's commit, and the
first row of an append that failed is published. -/
theorem races_misreported :
    (numberStore.trace numberStore.init lostAtInsert).getLast?.map (fun t => t.output) =
        some (some (1, .appended (.error (.internal "unique constraint failed")))) ∧
      ¬ RacesReported (numberStore.trace numberStore.init lostAtInsert)
        (numberStore.after numberStore.init lostAtInsert) ∧
      (numberStore.trace numberStore.init lostAtCommit).getLast?.map (fun t => t.output) =
        some (some (0, .committed (.error (.internal "unique constraint failed")))) ∧
      ¬ RacesReported (numberStore.trace numberStore.init lostAtCommit)
        (numberStore.after numberStore.init lostAtCommit) ∧
      (numberStore.after numberStore.init publishedInPart).db.committed =
        [⟨⟨"", "order", "o-1"⟩, 1, ⟨5, none⟩⟩] ∧
      ¬ RacesReported (numberStore.trace numberStore.init publishedInPart)
        (numberStore.after numberStore.init publishedInPart) := by
  refine ⟨by decide, ?_, by decide, ?_, by decide, ?_⟩
  · intro hraces
    obtain ⟨id, expected, actual, he⟩ := hraces.conflicts _ (List.mem_of_getElem? (i := 7) rfl) 1
      duplicateVersion true _ rfl (.inl rfl)
    cases he
  · intro hraces
    obtain ⟨id, expected, actual, he⟩ := hraces.conflicts _ (List.mem_of_getElem? (i := 11) rfl) 0
      duplicateVersion true _ rfl (.inr rfl)
    cases he
  · intro hraces
    have hrow := hraces.withheld _ (List.mem_of_getElem? (i := 11) rfl) 0 _ _ rfl rfl
      ⟨_, List.mem_of_getElem? (i := 14) rfl, rfl⟩ ⟨⟨"", "order", "o-1"⟩, 1, ⟨5, none⟩⟩
    revert hrow
    decide

end EgoRs.Stoolap
