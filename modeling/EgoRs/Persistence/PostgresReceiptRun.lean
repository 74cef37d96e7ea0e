import EgoRs.Persistence.PostgresReceipts

/-! # Committed Receipts Describe Their Events

The invariant follows every unit of work from its first append to its
commit and past it. Two units that confirmed receipts for one key cannot
both get that far: the second insert waits for the first unit, and then
finds its row.
-/

namespace EgoRs.Postgres

open Framework EventStore

variable {E : Type}

/-! ## Moves -/

section
variable {db : Db (Row E)} {i : Nat} {session : Session E} {cause : Cause E} {o : Outcome E}

/-- Only the end of a session commits anything. -/
theorem Moves.committed_eq (hm : Moves db i session cause o) (hgoes : o.2.1.activity ≠ .done) :
    o.1.committed = db.committed := by
  cases hm with
  | checked _ _ _ _ _ _ goes | inserted _ _ _ _ _ _ _ _ goes =>
    exact congrArg (·.committed) goes.db_eq
  | committed | published => exact absurd rfl hgoes
  | _ => rfl

/-- Only an insert that did nothing is followed by a comparison. -/
theorem Moves.comparing (hm : Moves db i session cause o) {r : OperationReceipt}
    (hact : o.2.1.activity = .comparing r) : session.activity = .comparing r ∨
      (cause = .statement ∧ session.activity = .confirming r ∧
        db.taken Row.indexKey i (Row.receipt (receiptRow r) : Row E).indexKey = true) := by
  cases hm with
  | waits | unresolved => exact .inl hact
  | suppressed receipt at' taken =>
    obtain rfl : receipt = r := by simpa [Session.at'] using hact
    exact .inr ⟨rfl, at', taken⟩
  | checked _ _ _ _ _ _ goes | inserted _ _ _ _ _ _ _ _ goes => cases goes <;> cases hact
  | refused | reread | failed | failedReread =>
    obtain h | h := session.answered_activity <;> cases h.symm.trans hact
  | _ => simp [Session.at', Session.abort] at hact

/-- A session at its `COMMIT` has been told nothing on the way there. -/
theorem Moves.publishing_silent (hm : Moves db i session cause o)
    (hact : o.2.1.activity = .publishing) :
    o.2.2 = none ∨ ∃ e, o.2.2 = some (.appended (.error e)) := by
  cases hm with
  | waits | calledCommit => exact .inl rfl
  | unresolved e => exact .inr ⟨e, rfl⟩
  | checked _ _ _ _ _ _ goes | inserted _ _ _ _ _ _ _ _ goes => cases goes <;> cases hact
  | refused | reread | failed | failedReread =>
    obtain h | h := session.answered_activity <;> cases h.symm.trans hact
  | _ => simp [Session.at', Session.abort] at hact

end

/-! ## The ledger -/

/-- Unit `i` has been committed, or may still be. -/
def Active (h : History E) (s : State E) (i : Nat) : Prop :=
  CommittedIn h i ∨ ∃ session, s.sessions[i]? = some session ∧ session.Running

/-- Nothing was ever answered to unit `i`. -/
structure Unheard (h : History E) (i : Nat) : Prop where
  appends : ∀ stream, appendsBy h i stream = []
  confirmed : ∀ r, ¬ ConfirmedIn h i r
  committed : ¬ CommittedIn h i

structure UnitLedger (h : History E) (s : State E) : Prop extends LiveLedger h s where
  running : ∀ (i : Nat) (session : Session E), s.sessions[i]? = some session →
    session.Running → UnitInv h s.db i session
  quiet : ∀ (i : Nat) (session : Session E), s.sessions[i]? = some session →
    ∀ r, session.activity ≠ .comparing r
  fresh : ∀ i, s.sessions.length ≤ i → Unheard h i
  described : ∀ i r, ConfirmedIn h i r → CommittedIn h i →
    Row.receipt (receiptRow r) ∈ s.db.committed ∧ (receiptRow r).consistent = true ∧
      (unitEvents h i (receiptStream r) ≠ [] →
        Describes (s.stream (receiptStream r)) (unitEvents h i (receiptStream r)) r.outcome)
  once : ∀ i j r r', i ≠ j → ConfirmedIn h i r → ConfirmedIn h j r' → Active h s i →
    Active h s j → receiptKey r ≠ receiptKey r'

section
variable {h : History E} {s : State E} {i : Nat}

/-- Every append that counts has events. -/
theorem unitEvents_ne_nil {stream : StreamKey} (hne : appendsBy h i stream ≠ []) :
    unitEvents h i stream ≠ [] := by
  obtain ⟨call, rest, hcons⟩ := List.exists_cons_of_ne_nil hne
  have hmem : call ∈ appendsBy h i stream := by
    rw [hcons]
    exact List.mem_cons_self
  obtain ⟨t, _, hack⟩ := List.mem_filterMap.mp hmem
  have hevents : call.args.events ≠ [] := by
    unfold acknowledged at hack
    split at hack
    · split at hack
      · rw [Option.filter_eq_some_iff] at hack
        have hboth : call.stream = stream ∧ call.args.events ≠ [] := by simpa using hack.2
        exact hboth.2
      · cases hack
    · cases hack
  unfold unitEvents
  rw [hcons, List.flatMap_cons]
  intro hnil
  exact hevents (List.append_eq_nil_iff.mp hnil).1

variable {session : Session E} {t : Event E}

/-- What others do, and what is not answered to the unit, leaves it as it is. -/
theorem UnitInv.transfer {db db' : Db (Row E)}
    (hu : UnitInv h db i session) (hs : SilentFor t i) (hown : db'.own i = db.own i)
    (hcount : ∀ stream, versionsOf stream (db.own i) ≠ [] →
      count stream db' = count stream db) : UnitInv (h ++ [t]) db' i session := by
  refine ⟨?_, ?_, ?_, ?_⟩
  · intro stream
    rw [hown, hs.unitEvents_eq]
    exact hu.rows stream
  · intro stream
    rw [hs.appendsBy_eq]
    by_cases hnone : appendsBy h i stream = []
    · rw [hnone]
      trivial
    · have hown' : versionsOf stream (db.own i) ≠ [] := by
        intro hempty
        have hrows := hu.rows stream
        have hlen := congrArg List.length hrows
        have hzero : (eventsOf stream (db.own i)).length = 0 := by
          have := congrArg List.length hempty
          simpa [versionsOf] using this
        have hpos := List.length_pos_of_ne_nil (unitEvents_ne_nil hnone)
        simp only [List.length_map, List.length_append] at hlen
        omega
      rw [hcount stream hown']
      exact hu.laid stream
  · intro r hr
    rw [hown]
    exact hu.confirmed r (hs.confirmedIn_iff.mp hr)
  · intro hact r hr
    rw [hs.unitExpected_eq, hs.unitEvents_eq]
    exact hu.named hact r (hs.confirmedIn_iff.mp hr)

/-- A unit at its `COMMIT` is running. -/
theorem UnitLedger.running_of_publishing (hl : UnitLedger h s)
    (hat : s.sessions[i]? = some session) (hact : session.activity = .publishing) :
    session.Running := by
  obtain ⟨hunit, hlive⟩ := hl.live i session hat hact
  exact ⟨hunit, hlive, by rw [hact]; rfl⟩

/-- And a unit that was committed is over. -/
theorem UnitLedger.over (hl : UnitLedger h s)
    (hc : CommittedIn h i) (hat : s.sessions[i]? = some session) : session.activity = .done := by
  obtain ⟨t, ht, hout⟩ := hc
  obtain ⟨session', hat', hdone⟩ := hl.ended i ⟨t, ht, hout⟩
  obtain rfl : session = session' := Option.mem_unique hat hat'
  exact hdone

/-- A step that answers nobody, or an append with an error. -/
theorem Uneventful.silentFor (hu : Uneventful t.output) (i : Nat) : SilentFor t i := by
  refine ⟨?_, ?_, ?_⟩
  · intro newVersion hout
    obtain hnone | ⟨j, e, he⟩ := hu <;> simp_all
  · intro hout
    obtain hnone | ⟨j, e, he⟩ := hu <;> simp_all
  · intro hout
    obtain hnone | ⟨j, e, he⟩ := hu <;> simp_all

theorem SilentFor.unheard (hs : SilentFor t i) (hf : Unheard h i) : Unheard (h ++ [t]) i := by
  refine ⟨?_, ?_, ?_⟩
  · intro stream
    rw [hs.appendsBy_eq]
    exact hf.appends stream
  · intro r hr
    exact hf.confirmed r (hs.confirmedIn_iff.mp hr)
  · intro hc
    exact hf.committed (hs.committedIn_iff.mp hc)

/-- A step that tells nobody anything; a session may have been asked for. -/
theorem ledger_quiet {s' : State E} (new : List (Session E)) (hl : UnitLedger h s)
    (hinv : StreamsInv s) (hnext : LiveLedger (h ++ [t]) s') (hu : Uneventful t.output)
    (hsessions : s'.sessions = s.sessions ++ new) (hnew : ∀ session ∈ new,
      session.activity = .done ∨ ∃ call, session.activity = .beginning call)
    (hcommitted : s'.db.committed = s.db.committed) (hown : ∀ i, s'.db.own i = s.db.own i) :
    UnitLedger (h ++ [t]) s' := by
  have hsilent := fun i => hu.silentFor (t := t) i
  have hcases : ∀ (i : Nat) (session : Session E), s'.sessions[i]? = some session →
      s.sessions[i]? = some session ∨ (s.sessions.length ≤ i ∧ session ∈ new) := by
    intro i session hat
    rw [hsessions] at hat
    by_cases hlt : i < s.sessions.length
    · rw [List.getElem?_append_left hlt] at hat
      exact .inl hat
    · rw [List.getElem?_append_right (by omega)] at hat
      exact .inr ⟨by omega, List.mem_of_getElem? hat⟩
  have hactive : ∀ i r, ConfirmedIn h i r → Active (h ++ [t]) s' i → Active h s i := by
    intro i r hr ha
    obtain hcom | ⟨session, hat, hrun⟩ := ha
    · exact .inl ((hsilent i).committedIn_iff.mp hcom)
    · obtain hold | ⟨hge, -⟩ := hcases i session hat
      · exact .inr ⟨session, hold, hrun⟩
      · exact absurd hr ((hl.fresh i hge).confirmed r)
  refine ⟨hnext, ?_, ?_, ?_, ?_, ?_⟩
  · intro i session hat hrun
    obtain hold | ⟨hge, hmem⟩ := hcases i session hat
    · refine (hl.running i session hold hrun).transfer (hsilent i) (hown i) ?_
      intro stream _
      unfold count
      rw [hcommitted]
    · obtain hdone | ⟨call, hact⟩ := hnew session hmem
      · have hover := hrun.goesOn
        rw [hdone] at hover
        cases hover
      · -- a unit that has just been asked for
        have hfresh := hl.fresh i hge
        refine ⟨?_, ?_, ?_, ?_⟩
        · intro stream
          rw [hown, Db.own_of_length_le (by rw [hinv.size]; exact hge), hact,
            (hsilent i).unitEvents_eq, unitEvents, hfresh.appends]
          rfl
        · intro stream
          rw [(hsilent i).appendsBy_eq, hfresh.appends]
          trivial
        · intro r hr
          exact absurd ((hsilent i).confirmedIn_iff.mp hr) (hfresh.confirmed r)
        · intro hpub
          rw [hact] at hpub
          cases hpub
  · intro i session hat r hact
    obtain hold | ⟨-, hmem⟩ := hcases i session hat
    · exact hl.quiet i session hold r hact
    · obtain hdone | ⟨call, hbegin⟩ := hnew session hmem
      · cases hact.symm.trans hdone
      · cases hact.symm.trans hbegin
  · intro i hi
    rw [hsessions, List.length_append] at hi
    exact (hsilent i).unheard (hl.fresh i (by omega))
  · intro i r hr hc
    rw [(hsilent i).unitEvents_eq]
    unfold State.stream
    rw [hcommitted]
    exact hl.described i r ((hsilent i).confirmedIn_iff.mp hr) ((hsilent i).committedIn_iff.mp hc)
  · intro i j r r' hij hr hr' hi hj
    have hr₁ := (hsilent i).confirmedIn_iff.mp hr
    have hr₂ := (hsilent j).confirmedIn_iff.mp hr'
    exact hl.once i j r r' hij hr₁ hr₂ (hactive i r hr₁ hi) (hactive j r' hr₂ hj)

/-! ### A move of one session -/

section
variable {input : Input E} {i : Nat} {session : Session E} {cause : Cause E} {o : Outcome E}

/-- The transition in which session `i` moves. -/
def movedEvent (s : State E) (input : Input E) (i : Nat) (o : Outcome E) : Event E :=
  ⟨s, input, (s.moved i o).2, (s.moved i o).1⟩

variable {j : Nat} {r : OperationReceipt}

theorem movedEvent_output {answer : Answer} :
    (movedEvent s input i o).output = some (j, answer) ↔ j = i ∧ o.2.2 = some answer :=
  told_iff

theorem movedEvent_silent (hj : j ≠ i) : SilentFor (movedEvent s input i o) j := by
  refine ⟨?_, ?_, ?_⟩
  · intro newVersion hout
    exact hj (movedEvent_output.mp hout).1
  · intro hout
    exact hj (movedEvent_output.mp hout).1
  · intro hout
    exact hj (movedEvent_output.mp hout).1

/-- What the moving session is told is what its move answers. -/
theorem acknowledged_movedEvent (hat : s.sessions[i]? = some session) (stream : StreamKey) :
    acknowledged i stream (movedEvent s input i o) = ackOf session o.2.2 stream := by
  have hpre : (movedEvent s input i o).pre.sessions[i]? = some session := hat
  have hout : (movedEvent s input i o).output = o.2.2.map fun a => (i, a) := rfl
  unfold acknowledged ackOf
  rw [hout, hpre]
  cases o.2.2 with
  | none => rfl
  | some answer =>
    cases answer with
    | appended result => cases result <;> simp
    | _ => rfl

theorem confirms_movedEvent (hat : s.sessions[i]? = some session)
    (hc : Confirms (movedEvent s input i o) i r) :
    o.2.2 = some (.confirmed (.ok ())) ∧ session.activity.receipt = some r := by
  obtain ⟨hout, session', hat', hr⟩ := hc
  obtain rfl : session = session' := Option.mem_unique hat hat'
  exact ⟨(movedEvent_output.mp hout).2, hr⟩

variable (hl : UnitLedger h s) (hat : s.sessions[i]? = some session)
include hl hat

/-- A unit whose commit is answered confirmed nothing in the same step. -/
theorem confirmed_before (hr : ConfirmedIn (h ++ [movedEvent s input i o]) j r)
    (hc : CommittedIn (h ++ [movedEvent s input i o]) j) : ConfirmedIn h j r := by
  by_cases hj : j = i
  · subst hj
    rw [confirmedIn_snoc] at hr
    obtain hold | hnew := hr
    · exact hold
    · exfalso
      obtain ⟨hans, hreceipt⟩ := confirms_movedEvent hat hnew
      rw [committedIn_snoc, movedEvent_output] at hc
      obtain hcom | ⟨_, hans'⟩ := hc
      · rw [hl.over hcom hat] at hreceipt
        cases hreceipt
      · rw [hans] at hans'
        cases hans'
  · exact (movedEvent_silent hj).confirmedIn_iff.mp hr

/-- A unit that has committed appends no more. -/
theorem unitEvents_after (hc : CommittedIn (h ++ [movedEvent s input i o]) j) (stream : StreamKey) :
    unitEvents (h ++ [movedEvent s input i o]) j stream = unitEvents h j stream := by
  by_cases hj : j = i
  · subst hj
    have hnone : ackOf session o.2.2 stream = none := by
      rw [committedIn_snoc, movedEvent_output] at hc
      obtain hcom | ⟨_, hans⟩ := hc
      · unfold ackOf
        split
        · rw [hl.over hcom hat]
          rfl
        · rfl
      · rw [hans]
        rfl
    unfold unitEvents
    rw [appendsBy_snoc, acknowledged_movedEvent hat, hnone]
    simp
  · exact (movedEvent_silent hj).unitEvents_eq stream

/-- **A unit that commits leaves its events where its receipts say.** -/
theorem described_publish (hact : session.activity = .publishing) (hr : ConfirmedIn h i r)
    (hne : unitEvents h i (receiptStream r) ≠ []) :
    Describes (State.stream ⟨s.db.publish i, s.sessions⟩ (receiptStream r))
      (unitEvents h i (receiptStream r)) r.outcome := by
  have hu := hl.running i session hat (hl.running_of_publishing hat hact)
  have hrows := hu.rows (receiptStream r)
  rw [hact] at hrows
  have hstream : State.stream ⟨s.db.publish i, s.sessions⟩ (receiptStream r) =
      s.stream (receiptStream r) ++ unitEvents h i (receiptStream r) := by
    unfold State.stream
    rw [Db.committed_publish, eventsOf_append, List.map_append, hrows]
    simp [Activity.partialBatch]
  rw [hstream]
  apply describes_of_namesRange _ (hu.named hact r hr)
  -- the first append expected the end of the committed stream
  have hlaid := hu.laid (receiptStream r)
  have hlen : (s.stream (receiptStream r)).length = count (receiptStream r) s.db := by
    simp [State.stream, count, versionsOf]
  unfold unitExpected
  cases happends : appendsBy h i (receiptStream r) with
  | nil =>
    unfold unitEvents at hne
    rw [happends] at hne
    exact absurd rfl hne
  | cons call =>
    rw [happends] at hlaid
    have hfirst : call.args.expectedVersion = (count (receiptStream r) s.db : Int) := hlaid.1
    simp [hfirst, hlen]

variable (hm : Moves s.db i session cause o)
include hm

/-- Whoever confirms a receipt finds nobody else with its key. -/
theorem key_new (hnew : Confirms (movedEvent s input i o) i r) (hij : j ≠ i)
    {r' : OperationReceipt} (hr' : ConfirmedIn h j r') (hj : Active h s j) :
    receiptKey r ≠ receiptKey r' := by
  intro hkey
  obtain ⟨hans, hreceipt⟩ := confirms_movedEvent hat hnew
  obtain ⟨_, _, hfree, htaken⟩ := hm.confirmed_row (hl.quiet i session hat) hans hreceipt
  have hindex : (Row.receipt (receiptRow r) : Row E).indexKey =
      (Row.receipt (receiptRow r') : Row E).indexKey := indexKey_receipt_inj.mpr hkey
  have hrow : Row.receipt (receiptRow r') ∈ s.db.committed ∨
      Row.receipt (receiptRow r') ∈ s.db.own j := by
    obtain hcom | ⟨other, hat', hrun⟩ := hj
    · exact .inl (hl.described j r' hr' hcom).1
    · exact .inr ((hl.running j other hat' hrun).confirmed r' hr').1
  obtain hcom | hown := hrow
  · apply (Db.taken_eq_false_iff.mp htaken).1
    rw [hindex]
    exact List.mem_map_of_mem hcom
  · apply Db.heldByOther_eq_false_iff.mp hfree j hij
    rw [hindex]
    exact List.mem_map_of_mem hown

variable (hinv : StreamsInv s)
include hinv

/-- A unit that may be committed after a move might be before it. -/
theorem active_before (ha : Active (h ++ [movedEvent s input i o]) (s.moved i o).1 j) :
    Active h s j := by
  obtain hcom | ⟨session', hat', hrun⟩ := ha
  · rw [committedIn_snoc, movedEvent_output] at hcom
    obtain hold | ⟨rfl, hans⟩ := hcom
    · exact .inl hold
    · obtain ⟨hact, _⟩ := hm.commit_publishes hans
      exact .inr ⟨session, hat, hl.running_of_publishing hat hact⟩
  · obtain ⟨rfl, rfl⟩ | ⟨_, hold⟩ := moved_sessions hat hat'
    · exact .inr ⟨session, hat, hm.running (hinv.lt_pending hat) hrun⟩
    · exact .inr ⟨session', hold, hrun⟩

variable (htarget : input.target = some (i, cause))
  (hc : KeepsReceipts h (movedEvent s input i o))
include htarget hc

theorem running_moved (hrun : o.2.1.Running) :
    UnitInv (h ++ [movedEvent s input i o]) o.1 i o.2.1 := by
  have hlt := hinv.lt_pending hat
  have hu := hl.running i session hat (hm.running hlt hrun)
  have hnotDone : o.2.1.activity ≠ .done := by
    intro hdone
    have hover := hrun.goesOn
    rw [hdone] at hover
    cases hover
  have hcount : ∀ stream, count stream o.1 = count stream s.db := by
    intro stream
    unfold count
    rw [hm.committed_eq hnotDone]
  refine ⟨?_, ?_, ?_, ?_⟩
  · intro stream
    rw [hm.unit_rows hlt hrun (hu.rows stream)]
    unfold unitEvents
    rw [appendsBy_snoc, acknowledged_movedEvent hat, List.flatMap_append]
  · intro stream
    rw [appendsBy_snoc, acknowledged_movedEvent hat, LaidOut.append_iff]
    refine ⟨hcount stream ▸ hu.laid stream, ?_⟩
    cases hack : ackOf session o.2.2 stream with
    | none => trivial
    | some =>
      have hexpected := hm.unit_expected hinv.numbering hlt (hinv.sessions i session hat) hrun
        (hu.rows stream) hack
      exact ⟨hexpected, trivial⟩
  · intro r hr
    rw [confirmedIn_snoc] at hr
    obtain hold | hnew := hr
    · obtain ⟨hrow, hcheck⟩ := hu.confirmed r hold
      exact ⟨(hm.own_grows hlt hrun.live hnotDone).2.2 hrow, hcheck⟩
    · obtain ⟨hans, hreceipt⟩ := confirms_movedEvent hat hnew
      obtain ⟨hdb, hcheck, _⟩ := hm.confirmed_row (hl.quiet i session hat) hans hreceipt
      refine ⟨?_, hcheck⟩
      rw [hdb, Db.own_insert_self hlt]
      simp
  · intro hact r hr
    -- on the way to its `COMMIT` the unit is told nothing
    have hu' : Uneventful (movedEvent s input i o).output := by
      obtain hnone | ⟨e, he⟩ := hm.publishing_silent hact
      · exact .inl (congrArg (Option.map _) hnone)
      · exact .inr ⟨i, e, congrArg (Option.map _) he⟩
    have hsilent := hu'.silentFor i
    have hold := hsilent.confirmedIn_iff.mp hr
    rw [hsilent.unitExpected_eq, hsilent.unitEvents_eq]
    obtain ⟨hwas, _⟩ | ⟨hcause, _⟩ := hm.publishing hact
    · exact hu.named hwas r hold
    · subst hcause
      exact hc.names i r (input_commit htarget) hold

theorem ledger_moved_step (hnext : LiveLedger (h ++ [movedEvent s input i o]) (s.moved i o).1) :
    UnitLedger (h ++ [movedEvent s input i o]) (s.moved i o).1 := by
  have hlt : i < s.sessions.length := (List.getElem?_eq_some_iff.mp hat).1
  have htouch := hm.touches
  refine ⟨hnext, ?_, ?_, ?_, ?_, ?_⟩
  · intro j session' hat' hrun
    obtain ⟨rfl, rfl⟩ | ⟨hne, hold⟩ := moved_sessions hat hat'
    · exact running_moved hl hat hm hinv htarget hc hrun
    · exact (hl.running j session' hold hrun).transfer (movedEvent_silent hne)
        (htouch.own_ne hne) fun stream => count_eq_of_touches htouch hinv.numbering hne
  · intro j session' hat' r hact
    obtain ⟨rfl, rfl⟩ | ⟨_, hold⟩ := moved_sessions hat hat'
    · obtain hwas | ⟨hcause, hconf, htaken⟩ := hm.comparing hact
      · exact hl.quiet j session hat r hwas
      · -- that would be an insert that found its key taken
        have hinput : input = .advance j := by
          cases input <;> simp_all [Input.target]
        have hfree := hc.confirms j session r hinput hat hconf
        have hpre : (movedEvent s input j o).pre.db = s.db := rfl
        rw [hpre, htaken] at hfree
        cases hfree
    · exact hl.quiet j session' hold r hact
  · intro j hj
    have hlen : (s.moved i o).1.sessions.length = s.sessions.length := by
      show (s.sessions.set i o.2.1).length = _
      rw [List.length_set]
    exact (movedEvent_silent (by omega)).unheard (hl.fresh j (by omega))
  · intro j r hr hcom
    have hbefore := confirmed_before hl hat hr hcom
    rw [unitEvents_after hl hat hcom]
    rw [committedIn_snoc, movedEvent_output] at hcom
    obtain hold | ⟨rfl, hans⟩ := hcom
    · obtain ⟨hrow, hcheck, hdescribed⟩ := hl.described j r hbefore hold
      refine ⟨htouch.committed_grows.subset hrow, hcheck, ?_⟩
      intro hne
      obtain ⟨rest, hrest⟩ := htouch.committed_grows
      have hstream : (s.moved i o).1.stream (receiptStream r) =
          s.stream (receiptStream r) ++ (eventsOf (receiptStream r) rest).map EventRow.stored := by
        show (eventsOf (receiptStream r) o.1.committed).map EventRow.stored = _
        rw [← hrest, eventsOf_append, List.map_append]
        rfl
      rw [hstream]
      exact (hdescribed hne).grows
    · obtain ⟨hact, -, hpublish⟩ := hm.commit_publishes hans
      have hrun := hl.running_of_publishing hat hact
      obtain ⟨hrow, hcheck⟩ := (hl.running j session hat hrun).confirmed r hbefore
      show _ ∈ o.1.committed ∧ _ ∧
        (_ → Describes ((eventsOf (receiptStream r) o.1.committed).map EventRow.stored) _ _)
      rw [hpublish hrun.live]
      refine ⟨?_, hcheck, described_publish hl hat hact hbefore⟩
      rw [Db.committed_publish]
      exact List.mem_append_right _ hrow
  · intro j k r r' hjk hr hr' hj hk
    have hj' := active_before hl hat hm hinv hj
    have hk' := active_before hl hat hm hinv hk
    rw [confirmedIn_snoc] at hr hr'
    have hwho : ∀ n r'', Confirms (movedEvent s input i o) n r'' → n = i := by
      intro n r'' hconf
      exact (movedEvent_output.mp hconf.1).1
    obtain hr | hnew := hr
    · obtain hr' | hnew' := hr'
      · exact hl.once j k r r' hjk hr hr' hj' hk'
      · obtain rfl := hwho k r' hnew'
        exact Ne.symm (key_new hl hat hm hnew' hjk hr hj')
    · obtain rfl := hwho j r hnew
      obtain hr' | hnew' := hr'
      · exact key_new hl hat hm hnew (Ne.symm hjk) hr' hk'
      · exact absurd (hwho k r' hnew').symm hjk

end

theorem unitLedger_run (he : (postgres E).Run h s)
    (ha : Along KeepsReceipts h) : UnitLedger h s := by
  refine he.invariant_along (P := UnitLedger) ?_ ?_ ha
  · have hno : ∀ (i : Nat) (session : Session E),
        ¬ (postgres E).init.sessions[i]? = some session := by
      intro i session hat
      simp [postgres] at hat
    have hnone : ∀ i, ¬ CommittedIn ([] : History E) i := by
      rintro i ⟨t, ht, _⟩
      cases ht
    have hconf : ∀ i r, ¬ ConfirmedIn ([] : History E) i r := by
      rintro i r ⟨t, ht, _⟩
      cases ht
    refine ⟨ledger_init, ?_, ?_, ?_, ?_, ?_⟩
    · intro i session hat
      exact absurd hat (hno i session)
    · intro i session hat
      exact absurd hat (hno i session)
    · intro i _
      exact ⟨fun _ => rfl, hconf i, hnone i⟩
    · intro i r _ hc
      exact absurd hc (hnone i)
    · intro i j r r' _ hr
      exact absurd hr (hconf i r)
  · intro h s input hex hl hc
    have hinv := streams_run hex
    have hs := steps_step s input
    have hnext := ledger_step hl.toLiveLedger hinv hs hc.live
    have hfire : (postgres E).fire s input = ⟨s, input, (s.step input).2, (s.step input).1⟩ := rfl
    show UnitLedger (h ++ [(postgres E).fire s input]) (s.step input).1
    rw [hfire] at hc ⊢
    generalize s.step input = r at hs hc hnext ⊢
    cases hs with
    | ignored =>
      refine ledger_quiet [] hl hinv hnext (.inl rfl) (List.append_nil _).symm ?_ rfl fun _ => rfl
      intro session hmem
      cases hmem
    | opened session _ _ starts =>
      refine ledger_quiet [session] hl hinv hnext ?_ rfl ?_ rfl (Db.own_start s.db)
      · obtain ⟨e, _, hout, _⟩ | ⟨_, _, hout⟩ := starts
        · exact .inr ⟨_, e, hout⟩
        · exact .inl hout
      · intro session' hmem
        obtain rfl := List.mem_singleton.mp hmem
        obtain ⟨_, hdone, _⟩ | ⟨call, hbegin, _⟩ := starts
        · exact .inl hdone
        · exact .inr ⟨call, hbegin⟩
    | moved _ _ _ _ target at' moves =>
      exact ledger_moved_step hl at' moves hinv target hc hnext

end

/-! ## Receipts describe events -/

/-- **In Postgres, a committed receipt describes its events** in every run whose
steps keep to the condition. -/
theorem receiptsDescribe_postgres {h : History E} {s : State E}
    (he : (postgres E).Run h s) (ha : Along KeepsReceipts h) : ReceiptsDescribe h s := by
  have hl := unitLedger_run he ha
  constructor
  · intro i r hr hc hne
    obtain ⟨hrow, hcheck, hdescribed⟩ := hl.described i r hr hc
    exact ⟨findReceiptOf_eq (streams_run he).numbering.keyed.committed hrow hcheck, hdescribed hne⟩
  · intro i j r r' hij hr hc _ hr' hc' _
    exact hl.once i j r r' hij hr hr' (.inl hc) (.inl hc')

/-- **A committed receipt describes its own events**, in memory and in Postgres,
in every run whose steps keep to the store's condition. -/
theorem committed_receipts_describe (E : Type) :
    (∀ (h : EventStore.History E) (s : RunState E), (store E).Exec (store E).init h s →
      Along EventStore.KeepsReceipts h → EventStore.ReceiptsDescribe h s) ∧
    (∀ (h : History E) (s : State E), (postgres E).Exec (postgres E).init h s →
      Along KeepsReceipts h → ReceiptsDescribe h s) := by
  constructor
  · intro h s he ha
    exact receiptsDescribe_memory he ha
  · intro h s he ha
    exact receiptsDescribe_postgres he ha

/-- A receipt for one event of the sample stream. -/
def rangeReceipt (version : Int) : OperationReceipt :=
  { sampleReceipt "a" with outcome := .events version version }

/-- One unit of work that appends an event, confirms its receipt and commits. -/
def describedRequests : List (Request Nat) :=
  [.begin, .unitAppend 0 (sampleAppend 0 10), .confirmReceipt 0 (rangeReceipt 1), .commit 0]

theorem described_keeps : Along EventStore.KeepsReceipts
    ((store Nat).trace (store Nat).init describedRequests) := by
  refine (((Along.nil.snoc ?_).snoc ?_).snoc ?_).snoc ?_
  · exact .of_other (by intro _ _ h; cases h) (by intro _ h; cases h)
  · exact .of_other (by intro _ _ h; cases h) (by intro _ h; cases h)
  · refine ⟨?_, (by intro _ _ h; cases h), (by intro _ _ h; cases h), (by intro _ _ h; cases h)⟩
    intro u unit r hin hunit
    cases hin
    cases hunit
    rfl
  · -- the staged receipt is the one that was confirmed
    have hstaged : ∀ u unit, (Request.commit 0 : Request Nat) = .commit u →
        ((store Nat).after (store Nat).init (describedRequests.take 3)).unit u = some unit →
        ∀ k r, unit.stagedReceipts.lookup k = some r → u = 0 ∧ r = rangeReceipt 1 := by
      intro u unit hin hunit k r hr
      cases hin
      cases hunit
      have hr' : (AList.insert (receiptKey (rangeReceipt 1)) (rangeReceipt 1)
          (∅ : Receipts)).lookup k = some r := hr
      obtain ⟨-, rfl⟩ | ⟨-, hnone⟩ := lookup_insert_cases hr'
      · exact ⟨rfl, rfl⟩
      · cases hnone
    refine ⟨(by intro _ _ _ h; cases h), ?_, ?_, ?_⟩
    · intro u unit _ _ k r _
      exact AList.lookup_empty k
    · intro u unit hin hunit k r hr w hw
      obtain ⟨rfl, rfl⟩ := hstaged u unit hin hunit k r hr
      have hwrite : w = ⟨0, [⟨10, none⟩], []⟩ := List.mem_singleton.mp hw
      rw [hwrite]
      rfl
    · intro u unit hin hunit k r hr
      obtain ⟨rfl, rfl⟩ := hstaged u unit hin hunit k r hr
      rfl

/-- The same in Postgres, statement by statement. -/
def describedStatements : List (Input Nat) :=
  [.begin, .advance 0, .call 0 (.append (sampleAppend 0 10)), .advance 0, .advance 0,
    .call 0 (.confirmReceipt (rangeReceipt 1)), .advance 0, .call 0 .commit, .advance 0]

theorem describedStatements_keep : Along KeepsReceipts
    ((postgres Nat).trace (postgres Nat).init describedStatements) := by
  refine ((((((((Along.nil.snoc ?_).snoc ?_).snoc ?_).snoc ?_).snoc ?_).snoc ?_).snoc ?_).snoc
    ?_).snoc ?_
  · exact .of_other rfl
  · exact .of_other rfl
  · exact .of_other rfl
  · exact .of_other rfl
  · exact .of_other rfl
  · exact .of_other rfl
  · refine ⟨?_, rfl, (by intro i r hin; cases hin)⟩
    intro i session r hin hat hact
    cases hin
    cases hat
    cases hact
    decide
  · refine ⟨(by intro i session r hin; cases hin), rfl, ?_⟩
    intro i r hin hconf
    cases hin
    rw [confirmedIn_snoc] at hconf
    obtain ⟨t, ht, hout, _⟩ | ⟨_, session, hat, hr⟩ := hconf
    · -- only the statement before the call confirms anything
      have hnone : ∀ t ∈ (postgres Nat).trace (postgres Nat).init (describedStatements.take 6),
          t.output ≠ some (0, .confirmed (.ok ())) := by decide
      exact absurd hout (hnone t ht)
    · cases hat
      cases hr
      decide
  · exact .of_other rfl

/-- Both runs meet the conditions. -/
theorem committed_receipts_describe_one :
    findReceiptOf ((postgres Nat).after (postgres Nat).init describedStatements).db.committed
        (rangeReceipt 1) = .ok (some (rangeReceipt 1)) ∧
      EventStore.ReceiptsDescribe ((store Nat).trace (store Nat).init describedRequests)
        ((store Nat).after (store Nat).init describedRequests) ∧
      ReceiptsDescribe ((postgres Nat).trace (postgres Nat).init describedStatements)
        ((postgres Nat).after (postgres Nat).init describedStatements) :=
  ⟨by decide,
    (committed_receipts_describe Nat).1 _ _ (Machine.exec_trace _ _ _) described_keeps,
    (committed_receipts_describe Nat).2 _ _ (Machine.exec_trace _ _ _) describedStatements_keep⟩

/-- In memory, one request is retried while its first attempt is still open. -/
def retriedInMemory : List (Request Nat) :=
  [.begin, .begin, .unitAppend 0 (sampleAppend 0 10), .unitAppend 1 (sampleAppend 0 20),
    .confirmReceipt 0 (rangeReceipt 1), .confirmReceipt 1 (rangeReceipt 1), .commit 0, .commit 1]

/-- In Postgres, one request is retried after its first attempt committed. -/
def retriedInPostgres : List (Input Nat) :=
  [.begin, .advance 0, .call 0 (.append (sampleAppend 0 10)), .advance 0, .advance 0,
    .call 0 (.confirmReceipt (rangeReceipt 1)), .advance 0, .call 0 .commit, .advance 0,
    .begin, .advance 1, .call 1 (.append (sampleAppend 1 20)), .advance 1, .advance 1,
    .call 1 (.confirmReceipt (rangeReceipt 2)), .advance 1, .advance 1, .call 1 .commit,
    .advance 1]

/-- In memory both commits answer `Ok` and the second attempt's event stands at
version 2, which no receipt names. In Postgres every call answers `Ok`, the
stream has two events, and the receipt that is found names the first. -/
theorem retried_request_appends_twice :
    ((store Nat).after (store Nat).init retriedInMemory).stream sampleStream =
        [⟨10, none⟩, ⟨20, none⟩] ∧
      EventStore.findReceiptOf ((store Nat).after (store Nat).init retriedInMemory).committed
        (rangeReceipt 1) = .ok (some (rangeReceipt 1)) ∧
      ¬ EventStore.ReceiptsDescribe ((store Nat).trace (store Nat).init retriedInMemory)
        ((store Nat).after (store Nat).init retriedInMemory) ∧
      ((postgres Nat).trace (postgres Nat).init retriedInPostgres).filterMap (fun t => t.output) =
        [(0, .begun (.ok ())), (0, .appended (.ok 1)), (0, .confirmed (.ok ())),
          (0, .committed (.ok ())), (1, .begun (.ok ())), (1, .appended (.ok 2)),
          (1, .confirmed (.ok ())), (1, .committed (.ok ()))] ∧
      findReceiptOf ((postgres Nat).after (postgres Nat).init retriedInPostgres).db.committed
        (rangeReceipt 2) = .ok (some (rangeReceipt 1)) ∧
      ¬ ReceiptsDescribe ((postgres Nat).trace (postgres Nat).init retriedInPostgres)
        ((postgres Nat).after (postgres Nat).init retriedInPostgres) := by
  refine ⟨by decide, by decide, ?_, by decide, by decide, ?_⟩
  · intro hd
    exact hd.once 0 1 (rangeReceipt 1) (rangeReceipt 1) (by decide)
      ⟨_, List.mem_of_getElem? (i := 4) rfl, rfl, rfl⟩
      ⟨_, List.mem_of_getElem? (i := 6) rfl, rfl, rfl⟩ (by decide)
      ⟨_, List.mem_of_getElem? (i := 5) rfl, rfl, rfl⟩
      ⟨_, List.mem_of_getElem? (i := 7) rfl, rfl, rfl⟩ (by decide) rfl
  · intro hd
    have hfound := (hd.describes 1 (rangeReceipt 2)
      ⟨_, List.mem_of_getElem? (i := 16) rfl, rfl, _, rfl, rfl⟩
      ⟨_, List.mem_of_getElem? (i := 18) rfl, rfl⟩ (by decide)).1
    revert hfound
    decide

end EgoRs.Postgres
