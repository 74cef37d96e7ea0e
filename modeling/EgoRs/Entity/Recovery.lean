import EgoRs.Entity.Facade

/-! # Recovering an Entity's State

`rebuild_state_from_persistence` of `persistent-entity/src/actor.rs`: the
latest snapshot, if any, and the events after it.

A snapshot saves work only if what it replaces can be had without it. When
the saved data no longer deserializes, the actor starts from the initial
state but keeps the snapshot's version, and the events the snapshot
covered are never applied.
-/

namespace EgoRs.Entity

open EventStore

variable {E S : Type}

/-! ### Errors -/

inductive EntityError where
  | entityNotFound
  | entityAlreadyActive
  | entityNotActive
  | persistenceError (message : String)
  | eventPublishingError (message : String)
  | snapshottingError (message : String)
  | recoveryError (message : String)
  | internal (message : String)
  | operationConflict (operationKey : String)
  | versionConflict (expected actual : Nat)
  | mailboxClosed
  deriving DecidableEq

/-- `EntityError::to_string`. -/
def EntityError.text : EntityError → String
  | .entityNotFound => "Entity not found"
  | .entityAlreadyActive => "Entity already active"
  | .entityNotActive => "Entity not active"
  | .persistenceError message => s!"Persistence error: {message}"
  | .eventPublishingError message => s!"Event publishing error: {message}"
  | .snapshottingError message => s!"Snapshotting error: {message}"
  | .recoveryError message => s!"Recovery error: {message}"
  | .internal message => s!"Internal error: {message}"
  | .versionConflict expected actual =>
    s!"Version conflict: expected {expected}, actual {actual}"
  | .operationConflict operationKey =>
    s!"Operation conflict: operation key \"{operationKey}\" is already bound to a different " ++
      "request; retrying will not resolve it"
  | .mailboxClosed => "Mailbox closed"

/-! ### The entity handler -/

/-- What recovery uses of a `PersistentEntity`. -/
structure Handler (E S : Type) where
  initialState : S
  applyEvents : S → List E → Except EntityError S

/-- `apply_events` applies one event after another. -/
structure Handler.IsFold (handler : Handler E S) : Prop where
  nil : ∀ state, handler.applyEvents state [] = .ok state
  append : ∀ state xs ys, handler.applyEvents state (xs ++ ys) =
    (handler.applyEvents state xs).bind fun next => handler.applyEvents next ys

/-- The state after the whole of `history`. -/
def Handler.replay (handler : Handler E S) (history : List E) : Except EntityError S :=
  handler.applyEvents handler.initialState history

/-! ### Rebuilding the state -/

/-- The state a snapshot stands for: `serde_json::from_value`, or the initial
state where that fails. -/
def startState (handler : Handler E S) (deserialize : Json → Option S)
    (snap : Option SnapshotData) : S × Nat :=
  match snap with
  | some snap => ((deserialize snap.data).getD handler.initialState, snap.version)
  | none => (handler.initialState, 0)

/-- `rebuild_state_from_persistence`, from what `load_for_recovery` answers. -/
def rebuildStateFromPersistence (handler : Handler E S) (deserialize : Json → Option S)
    (recovery : Except String (Option SnapshotData × List (StoredEventRow E))) :
    Except String (S × Nat) :=
  match recovery with
  | .error e => .error e
  | .ok (snapData, storedEvents) =>
    let (state, version) := startState handler deserialize snapData
    if storedEvents.isEmpty then .ok (state, version)
    else
      match handler.applyEvents state (storedEvents.map StoredEventRow.event) with
      | .error e => .error s!"event replay failed: {e.text}"
      | .ok newState => .ok (newState, version + storedEvents.length)

section
variable {handler : Handler E S} {deserialize : Json → Option S}

/-- With a fold, the empty replay needs no case of its own. -/
theorem rebuild_ok_iff (hf : handler.IsFold) {snapData : Option SnapshotData}
    {rows : List (StoredEventRow E)} {state : S} {version : Nat} :
    rebuildStateFromPersistence handler deserialize (.ok (snapData, rows)) = .ok (state, version) ↔
      handler.applyEvents (startState handler deserialize snapData).1
          (rows.map StoredEventRow.event) = .ok state ∧
        version = (startState handler deserialize snapData).2 + rows.length := by
  unfold rebuildStateFromPersistence
  cases rows with
  | nil =>
    simp only [List.isEmpty_nil, if_true, List.map_nil, hf.nil, List.length_nil, Nat.add_zero,
      Except.ok.injEq, Prod.mk.injEq]
    exact and_congr_right fun _ => eq_comm
  | cons row rows =>
    simp only [List.isEmpty_cons, Bool.false_eq_true, if_false]
    cases handler.applyEvents (startState handler deserialize snapData).1
        (List.map StoredEventRow.event (row :: rows)) with
    | error => simp
    | ok =>
      simp only [Except.ok.injEq, Prod.mk.injEq]
      exact and_congr_right fun _ => eq_comm

end

/-! ### What the stores may answer -/

/-- What a store that holds `history` from position `base` on may answer to
`load`. It may report an empty stream as absent, and it may fail. -/
def LoadsFrom (base : Nat) (history : List E) :
    Except PersistenceError (List (StoredEvent E)) → Prop
  | .ok stored => stored.map StoredEvent.event = history.drop base
  | .error (.notFound _) => history.drop base = []
  | .error _ => True

/-- The version of a snapshot answer; no snapshot is one at version 0. -/
def snapshotVersion (snap : Option (Nat × Json)) : Nat :=
  (snap.map Prod.fst).getD 0

/-- The snapshot store's answer, in the `i64` of its interface. -/
def snapshotAnswer (snap : Option (Nat × Json)) :
    Except PersistenceError (Option (Int × Json)) :=
  .ok (snap.map fun s => ((s.1 : Int), s.2))

/-- What the snapshot store may answer for an entity with this `history`: no
snapshot, or one taken at some version of it. Its data is the state of
that version, unless it does not deserialize any more. -/
def SnapshotOf (handler : Handler E S) (deserialize : Json → Option S) (history : List E)
    (snap : Option (Nat × Json)) : Prop :=
  ∀ version data, snap = some (version, data) → version ≤ history.length ∧
    ∀ state, deserialize data = some state →
      handler.replay (history.take version) = .ok state

/-- **Recovery gives the state of the whole stream**, for these answers and
every handler, history and load they may belong to. -/
def RecoversHistory (deserialize : Json → Option S) (snap : Option (Nat × Json)) (base : Nat)
    (E : Type) : Prop :=
  ∀ (handler : Handler E S) (history : List E)
    (loaded : Except PersistenceError (List (StoredEvent E))) (state : S) (version : Nat),
    handler.IsFold → base ≤ history.length → LoadsFrom base history loaded →
    SnapshotOf handler deserialize history snap →
    rebuildStateFromPersistence handler deserialize
        (recoveryOf (snapshotAnswer snap) loaded base) = .ok (state, version) →
    handler.replay history = .ok state ∧ version = history.length

/-! ### Answers that recovery can use -/

section
variable {handler : Handler E S} {deserialize : Json → Option S} {history : List E}
  {snap : Option (Nat × Json)} {base : Nat}

def snapshotData (snap : Option (Nat × Json)) : Option SnapshotData :=
  snap.map fun s => ⟨s.2, s.1⟩

variable {loaded : Except PersistenceError (List (StoredEvent E))} {stored : List (StoredEvent E)}

/-- What recovery reads when the load does not fail. -/
theorem recoveryOf_answer (hl : historyOf loaded = .ok stored) :
    recoveryOf (snapshotAnswer snap) loaded base =
      .ok (snapshotData snap, rowsAfter stored base (snapshotVersion snap)) := by
  unfold recoveryOf snapshotAnswer
  rw [hl]
  cases snap with
  | none => rfl
  | some => simp [snapshotData, snapshotVersion]

/-- A load that does not fail gives the events from `base` on. -/
theorem LoadsFrom.events (hl : LoadsFrom base history loaded) (hs : historyOf loaded = .ok stored) :
    stored.map StoredEvent.event = history.drop base := by
  unfold historyOf at hs
  split at hs
  · cases hs
    exact hl
  · cases hs
    exact hl.symm
  · cases hs

/-- Where the snapshot is usable, its state is that of its version. -/
theorem startState_eq (hf : handler.IsFold) (hsnap : SnapshotOf handler deserialize history snap)
    (husable : ∀ version data, snap = some (version, data) →
      version = 0 ∨ (deserialize data).isSome) :
    handler.replay (history.take (snapshotVersion snap)) =
      .ok (startState handler deserialize (snapshotData snap)).1 := by
  cases snap with
  | none => simp [snapshotVersion, snapshotData, startState, Handler.replay, hf.nil]
  | some s =>
    obtain ⟨version, data⟩ := s
    obtain ⟨_, hdata⟩ := hsnap version data rfl
    simp only [snapshotVersion, snapshotData, startState, Option.map_some, Option.getD_some]
    cases hd : deserialize data with
    | some state => exact hdata state hd
    | none =>
      have hzero : version = 0 := by simpa [hd] using husable version data rfl
      simp [hzero, Handler.replay, hf.nil]

theorem startState_version (snap : Option (Nat × Json)) :
    (startState handler deserialize (snapshotData snap)).2 = snapshotVersion snap := by
  cases snap <;> rfl

theorem snapshotVersion_le (hsnap : SnapshotOf handler deserialize history snap) :
    snapshotVersion snap ≤ history.length := by
  cases snap with
  | none => exact Nat.zero_le _
  | some s => exact (hsnap s.1 s.2 rfl).1

/-- A usable snapshot and the events after it give the state of the whole stream. -/
theorem recoversHistory_of_usable (hbase : base ≤ snapshotVersion snap)
    (husable : ∀ version data, snap = some (version, data) →
      version = 0 ∨ (deserialize data).isSome) : RecoversHistory deserialize snap base E := by
  intro handler history loaded state version hf hle hload hsnap hrebuild
  cases hl : historyOf loaded with
  | error =>
    simp [recoveryOf, snapshotAnswer, hl, rebuildStateFromPersistence] at hrebuild
  | ok stored =>
    rw [recoveryOf_answer hl, rebuild_ok_iff hf, rowsAfter_events, startState_version,
      rowsAfter_length] at hrebuild
    obtain ⟨happly, hversion⟩ := hrebuild
    have hevents := hload.events hl
    have hv := snapshotVersion_le hsnap
    -- what is replayed is the history after the snapshot
    have hrest : (stored.drop (snapshotVersion snap - base)).map StoredEvent.event
        = history.drop (snapshotVersion snap) := by
      rw [List.map_drop, hevents, List.drop_drop]
      congr 1
      omega
    rw [hrest] at happly
    have hlen : stored.length = history.length - base := by
      have h := congrArg List.length hevents
      simpa using h
    constructor
    · calc handler.replay history
          = handler.applyEvents handler.initialState
              (history.take (snapshotVersion snap) ++ history.drop (snapshotVersion snap)) := by
            rw [List.take_append_drop]
            rfl
        _ = (handler.replay (history.take (snapshotVersion snap))).bind
              fun next => handler.applyEvents next (history.drop (snapshotVersion snap)) :=
            hf.append _ _ _
        _ = .ok state := by
            rw [startState_eq hf hsnap husable]
            exact happly
    · omega

end

/-! ### Answers that recovery gets wrong -/

section
variable {deserialize : Json → Option S} {snap : Option (Nat × Json)} {base : Nat}

/-- One event is enough to leave the initial state, and nothing leads back. -/
def latch (off on : S) : Handler E S where
  initialState := off
  applyEvents state events := if events.isEmpty then .ok state else .ok on

theorem latch_isFold (off on : S) : (latch off on : Handler E S).IsFold where
  nil state := rfl
  append state xs ys := by
    cases xs with
    | nil => rfl
    | cons => cases ys <;> rfl

/-- A stored event for every event of a history. -/
def asStored (history : List E) : List (StoredEvent E) := history.map fun e => ⟨e, none⟩

theorem asStored_events (history : List E) :
    (asStored history).map StoredEvent.event = history := by
  simp [asStored, Function.comp_def]

/-- A handler that ignores its events, for a history that the snapshot's data,
if it deserializes, describes. -/
def constant (state : S) : Handler E S where
  initialState := state
  applyEvents state _ := .ok state

theorem constant_isFold (state : S) : (constant state : Handler E S).IsFold where
  nil _ := rfl
  append _ _ _ := rfl

/-- A store that starts after the snapshot has lost what lies between. -/
theorem not_recoversHistory_of_lost [Inhabited E] [Nonempty S]
    (hbase : snapshotVersion snap < base) : ¬ RecoversHistory deserialize snap base E := by
  intro hrec
  obtain ⟨default⟩ := ‹Nonempty S›
  -- the snapshot's own state, so that it is a snapshot of this entity
  let state : S := (startState (constant default : Handler E S) deserialize (snapshotData snap)).1
  have hsnap : SnapshotOf (constant state : Handler E S) deserialize
      (List.replicate base Inhabited.default) snap := by
    intro version data hs
    subst hs
    refine ⟨?_, ?_⟩
    · simpa [snapshotVersion] using Nat.le_of_lt hbase
    · intro found hfound
      simp [Handler.replay, constant, state, snapshotData, startState, hfound]
  have hload : LoadsFrom base (List.replicate base (Inhabited.default : E)) (.ok []) := by
    simp [LoadsFrom]
  have hresult := hrec (constant state) (List.replicate base Inhabited.default) (.ok []) state
    (snapshotVersion snap) (constant_isFold state) (by simp) hload hsnap ?_
  · have hversion := hresult.2
    rw [List.length_replicate] at hversion
    omega
  · rw [recoveryOf_answer rfl, rebuild_ok_iff (constant_isFold state), startState_version]
    refine ⟨?_, by simp [rowsAfter]⟩
    cases snap with
    | none => rfl
    | some s =>
      show Except.ok _ = _
      cases hd : deserialize s.2 with
      | none => simp [startState, snapshotData, constant, hd, state]
      | some => simp [startState, snapshotData, hd, state]

/-- A snapshot that does not deserialize takes its events with it. -/
theorem not_recoversHistory_of_undeserializable [Inhabited E] [Nontrivial S] {version : Nat}
    {data : Json} (hsome : snap = some (version, data)) (hpos : version ≠ 0)
    (hdata : deserialize data = none) (hbase : base ≤ version) :
    ¬ RecoversHistory deserialize snap base E := by
  intro hrec
  obtain ⟨off, on, hne⟩ := exists_pair_ne S
  subst hsome
  let history : List E := List.replicate version default
  have hsnap : SnapshotOf (latch off on : Handler E S) deserialize history
      (some (version, data)) := by
    intro v d hs
    cases hs
    refine ⟨by simp [history], ?_⟩
    intro state hstate
    rw [hdata] at hstate
    cases hstate
  have hload : LoadsFrom base history (.ok (asStored (history.drop base))) :=
    asStored_events _
  have hresult := hrec (latch off on) history _ off version (latch_isFold off on)
    (by simpa [history] using hbase) hload hsnap ?_
  · -- the whole history switches the latch
    have hreplay := hresult.1
    have hhist : history.isEmpty = false := by
      simp [history, hpos]
    simp only [Handler.replay, latch, hhist, Bool.false_eq_true, if_false,
      Except.ok.injEq] at hreplay
    exact hne hreplay.symm
  · rw [recoveryOf_answer rfl, rebuild_ok_iff (latch_isFold off on), startState_version,
      rowsAfter_events, rowsAfter_length]
    have hrest : (asStored (history.drop base)).drop (version - base) = [] := by
      apply List.drop_eq_nil_of_le
      simp [asStored, history]
    have hlen : (asStored (history.drop base)).length - (version - base) = 0 := by
      simp [asStored, history]
    simp only [snapshotVersion, Option.map_some, Option.getD_some]
    rw [hrest, hlen]
    refine ⟨?_, rfl⟩
    simp [startState, snapshotData, hdata, latch]

end

/-! ### Exactly when -/

/-- **Recovery reproduces the stream exactly when** the store holds the events
after the snapshot and the snapshot, unless it is one of no events,
deserializes. -/
theorem recoversHistory_iff [Inhabited E] [Nontrivial S] (deserialize : Json → Option S)
    (snap : Option (Nat × Json)) (base : Nat) :
    RecoversHistory deserialize snap base E ↔
      base ≤ snapshotVersion snap ∧
        ∀ version data, snap = some (version, data) → version = 0 ∨ (deserialize data).isSome := by
  constructor
  · intro hrec
    have hbase : base ≤ snapshotVersion snap := by
      by_contra hlt
      exact not_recoversHistory_of_lost (Nat.lt_of_not_le hlt) hrec
    refine ⟨hbase, ?_⟩
    intro version data hsome
    by_contra hcon
    rw [not_or, Option.isSome_iff_ne_none, not_not] at hcon
    have hle : base ≤ version := by simpa [snapshotVersion, hsome] using hbase
    exact not_recoversHistory_of_undeserializable hsome hcon.1 hcon.2 hle hrec
  · intro ⟨hbase, husable⟩
    exact recoversHistory_of_usable hbase husable

def readBool : Json → Option Bool
  | .bool b => some b
  | _ => none

/-- Two events and a snapshot after the second. -/
theorem recoversHistory_readable :
    RecoversHistory readBool (some (2, .bool true)) 0 Nat :=
  (recoversHistory_iff readBool _ 0).mpr
    ⟨by decide, fun _ _ h => by cases h; exact .inr rfl⟩

/-- The same snapshot after the state type has changed: two events are stored,
both are covered by the snapshot, and recovery answers the initial state at
version 2. -/
theorem unreadable_snapshot_loses_events :
    rebuildStateFromPersistence (latch false true : Handler Nat Bool) readBool
        (recoveryOf (snapshotAnswer (some (2, .string "on"))) (.ok (asStored [1, 2])) 0)
      = .ok (false, 2) ∧
    (latch false true : Handler Nat Bool).replay [1, 2] = .ok true ∧
    ¬ RecoversHistory readBool (some (2, .string "on")) 0 Nat :=
  ⟨rfl, rfl, not_recoversHistory_of_undeserializable rfl (by decide) rfl (by decide)⟩

end EgoRs.Entity
