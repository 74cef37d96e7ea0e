import EgoRs.Entity.CommandStep

/-! # Snapshot Cadence

After a command that appended events the actor asks its snapshot strategy.
The strategy is told the new version and, where its trait speaks of the
events since the last snapshot, the number of events of this command only.
`cadence` follows the versions of an entity's stream and of its stored
snapshot through the commands and passivations of its actors, as
`executeCommand` moves them.
-/

namespace EgoRs.Entity

open EventStore Framework

/-! ## Strategies -/

/-- `PeriodicSnapshotStrategy` and `VersionBasedSnapshotStrategy`. -/
inductive SnapshotStrategy where
  | periodic (eventsBetweenSnapshots : Nat)
  | versionBased (versionInterval : Nat)

namespace SnapshotStrategy

def interval : SnapshotStrategy → Nat
  | periodic n | versionBased n => n

/-- `should_take_snapshot`. The remainder by an interval of 0 panics. -/
def shouldTakeSnapshot (version eventCount : Nat) : SnapshotStrategy → Option Bool
  | periodic n => some (decide (n ≤ eventCount))
  | versionBased n => if n = 0 then none else some (decide (version % n = 0))

/-- `n` events at once, or a version that is a multiple of `n`. -/
def meets (version eventCount : Nat) : SnapshotStrategy → Bool
  | periodic n => decide (n ≤ eventCount)
  | versionBased n => decide (version % n = 0)

theorem shouldTakeSnapshot_eq {strategy : SnapshotStrategy} (hpos : 0 < strategy.interval)
    (version eventCount : Nat) :
    strategy.shouldTakeSnapshot version eventCount = some (strategy.meets version eventCount) := by
  cases strategy with
  | periodic => rfl
  | versionBased n =>
    have hne : n ≠ 0 := Nat.ne_of_gt hpos
    exact if_neg hne

end SnapshotStrategy

/-! ## The commands of an actor -/

/-- The versions of the stream and of the snapshot, 0 without one. -/
structure Versions where
  version : Nat
  snapshot : Nat

def Versions.since (s : Versions) : Nat := s.version - s.snapshot

inductive Act where
  /-- A command appends `count` events. The store's answer may be lost and
      `apply_events` may fail after that, and `store_snapshot` may fail unnoticed. -/
  | command (count : Nat) (applied saved : Bool)
  /-- `passivate` stores a snapshot without asking. -/
  | passivate (saved : Bool)

def Act.count : Act → Nat
  | .command count _ _ => count
  | .passivate _ => 0

inductive Asked where
  | never
  | answered (take : Bool)
  | panicked
  deriving DecidableEq

/-- A command without events does not come to the question, nor does one that
cannot be applied. -/
def Versions.asked (strategy : SnapshotStrategy) (s : Versions) : Act → Asked
  | .command count applied _ =>
    if count = 0 || !applied then .never
    else
      match strategy.shouldTakeSnapshot (s.version + count) count with
      | none => .panicked
      | some take => .answered take
  | .passivate _ => .never

def Act.stores (asked : Asked) : Act → Bool
  | .command _ _ saved => decide (asked = .answered true) && saved
  | .passivate saved => saved

def cadence (strategy : SnapshotStrategy) : Machine Versions Act Asked where
  init := ⟨0, 0⟩
  step s act :=
    let version := s.version + act.count
    let asked := s.asked strategy act
    (⟨version, if act.stores asked then version else s.snapshot⟩, asked)

/-- The interval is kept: a command that brings the events since the snapshot to
it asks for one, and recovery replays less than an interval after a command
and less than that and the command while it runs. -/
structure KeepsInterval (interval : Nat) (t : Transition Versions Act Asked) : Prop where
  requested : 0 < t.input.count → interval ≤ t.pre.since + t.input.count →
    t.output = .answered true
  unharmed : t.output ≠ .panicked
  replay : ∀ {E : Type} (stored : List (StoredEvent E)), stored.length = t.post.version →
    (rowsAfter stored 0 t.pre.snapshot).length < interval + t.input.count ∧
      (rowsAfter stored 0 t.post.snapshot).length < interval

/-- A command that brings the events since the snapshot to the interval meets
the strategy, is applied, and has its snapshot stored. -/
def inStep (strategy : SnapshotStrategy) (t : Transition Versions Act Asked) : Bool :=
  match t.input with
  | .command count applied saved =>
    decide (t.pre.since + count < strategy.interval) ||
      applied && saved && strategy.meets (t.pre.version + count) count
  | .passivate _ => true

section
variable {strategy : SnapshotStrategy} {s : Versions} {act : Act}

/-- **A command in step** leaves less than an interval, or has its snapshot. -/
theorem asked_of_inStep (hpos : 0 < strategy.interval) (hs : s.since < strategy.interval)
    (hin : inStep strategy ((cadence strategy).fire s act) = true) :
    s.since + act.count < strategy.interval ∨
      s.asked strategy act = .answered true ∧ act.stores (s.asked strategy act) = true := by
  cases act with
  | passivate => exact .inl hs
  | command count applied saved =>
    simp only [inStep, fire_pre, fire_input, Bool.or_eq_true, Bool.and_eq_true] at hin
    obtain hlt | ⟨⟨rfl, rfl⟩, hmeets⟩ := hin
    · exact .inl (of_decide_eq_true hlt)
    · by_cases hzero : count = 0
      · subst hzero
        exact .inl hs
      · refine .inr ?_
        simp [Act.stores, Versions.asked, hzero, SnapshotStrategy.shouldTakeSnapshot_eq hpos,
          hmeets]

theorem asked_ne_panicked (hpos : 0 < strategy.interval) : s.asked strategy act ≠ .panicked := by
  cases act with
  | passivate => exact nofun
  | command =>
    rw [Versions.asked, SnapshotStrategy.shouldTakeSnapshot_eq hpos]
    split <;> exact nofun

theorem keepsInterval_step (hpos : 0 < strategy.interval) (hs : s.since < strategy.interval)
    (hin : inStep strategy ((cadence strategy).fire s act) = true) :
    KeepsInterval strategy.interval ((cadence strategy).fire s act) ∧
      ((cadence strategy).step s act).1.since < strategy.interval := by
  have hkept := asked_of_inStep hpos hs hin
  have hpost : ((cadence strategy).step s act).1.since < strategy.interval := by
    obtain hlt | ⟨-, hsaved⟩ := hkept
    · simp only [cadence, Versions.since] at hlt ⊢
      split <;> omega
    · simpa [cadence, Versions.since, hsaved] using hpos
  refine ⟨⟨?_, asked_ne_panicked hpos, ?_⟩, hpost⟩
  · intro _ hdue
    obtain hlt | hsaved := hkept
    · exact absurd hlt (Nat.not_lt.mpr hdue)
    · exact hsaved.1
  · intro E stored hlen
    rw [rowsAfter_length, rowsAfter_length]
    refine ⟨?_, hlen ▸ hpost⟩
    have hlen' : stored.length = s.version + act.count := hlen
    have hs' : s.version - s.snapshot < strategy.interval := hs
    show stored.length - (s.snapshot - 0) < strategy.interval + act.count
    omega

/-- **Snapshot cadence**: in a run whose commands are all in step with the
strategy, the interval is kept, from the start of the stream or from whatever
recovery has found within an interval. -/
theorem snapshot_cadence {h : List (Transition Versions Act Asked)} {start : Versions}
    (hpos : 0 < strategy.interval) (hstart : start.since < strategy.interval)
    (he : (cadence strategy).Exec start h s) (hin : ∀ t ∈ h, inStep strategy t = true) :
    ∀ t ∈ h, KeepsInterval strategy.interval t := by
  have hrun : s.since < strategy.interval ∧ ∀ t ∈ h, KeepsInterval strategy.interval t := by
    refine he.invariant_along (P := fun h s => s.since < strategy.interval ∧
      ∀ t ∈ h, KeepsInterval strategy.interval t) ⟨hstart, ?_⟩ ?_ (.of_forall hin)
    · intro t ht
      cases ht
    · intro h s act _ ⟨hs, hkeeps⟩ hact
      obtain ⟨hkept, hs'⟩ := keepsInterval_step hpos hs hact
      refine ⟨hs', ?_⟩
      intro t ht
      obtain ht | rfl := mem_snoc ht
      · exact hkeeps t ht
      · exact hkept
  exact hrun.2

end

/-- Two events at once, one event, a passivation, one event, then two, every two
events. -/
theorem snapshot_cadence_two :
    let acts := [.command 2 true true, .command 1 true true, .passivate true,
      .command 1 true true, .command 2 true true]
    (cadence (.periodic 2)).after ⟨0, 0⟩ acts = ⟨6, 6⟩ ∧
      ∀ t ∈ (cadence (.periodic 2)).trace ⟨0, 0⟩ acts, KeepsInterval 2 t :=
  ⟨rfl, @snapshot_cadence (.periodic 2) _ _ _ (by decide) (by decide) (Machine.exec_trace _ _ _)
    (by decide)⟩

/-- Two commands of one event each, every two events: no snapshot is asked for.
One event and two at once pass by version 2, and an interval of 0 panics. -/
theorem snapshot_cadence_missed :
    (∃ t ∈ (cadence (.periodic 2)).trace ⟨0, 0⟩ [.command 1 true true, .command 1 true true],
        ¬ KeepsInterval 2 t) ∧
      (∃ t ∈ (cadence (.versionBased 2)).trace ⟨0, 0⟩ [.command 1 true true, .command 2 true true],
        ¬ KeepsInterval 2 t) ∧
      ((cadence (.versionBased 0)).step ⟨0, 0⟩ (.command 1 true true)).2 = .panicked := by
  refine ⟨⟨_, List.mem_of_getElem? (i := 1) rfl, ?_⟩, ⟨_, List.mem_of_getElem? (i := 1) rfl, ?_⟩,
    rfl⟩
  · intro hk
    cases hk.requested (by decide) (by decide)
  · intro hk
    cases hk.requested (by decide) (by decide)

/-! ## The actor moves so -/

section
variable {E S : Type} {entity : EntityTriple} {facade facade' : PersistenceFacade E}
  {actor : Actor S} {command : Command E S} {strategy : SnapshotStrategy} {data : Json}

/-- The versions of the entity's stream and snapshot. -/
def versionsOf (entity : EntityTriple) (facade : PersistenceFacade E) : Versions where
  version := (facade.eventStore.streamOf entity).length
  snapshot := ((facade.snapshotStore.lookup entity.aggregateId).map fun s => s.1.toNat).getD 0

def Command.Asks (command : Command E S) (strategy : SnapshotStrategy) (data : Json) : Prop :=
  ∀ version count, command.snapshot version count =
    if strategy.shouldTakeSnapshot version count = some true then some data else none

/-- The actor is at the version of its stream. -/
def AtHead (entity : EntityTriple) (facade : PersistenceFacade E) (actor : Actor S) : Prop :=
  actor.version = (facade.eventStore.streamOf entity).length

/-- A command moves the versions as a step of `cadence`, and leaves this actor. One that
is not applied has no events or fails the actor. -/
structure Paced (strategy : SnapshotStrategy) (entity : EntityTriple)
    (facade facade' : PersistenceFacade E) (actor : Actor S) : Prop where
  moves : ∃ count applied, (applied = true ∨ count = 0 ∨ actor.lifecycle = .failed) ∧
    versionsOf entity facade' =
      ((cadence strategy).step (versionsOf entity facade) (.command count applied true)).1
  head : actor.lifecycle ≠ .failed → AtHead entity facade' actor

section
variable (hsnapshots : facade'.snapshotStore = facade.snapshotStore)
include hsnapshots

theorem versionsOf_unapplied {count : Nat} (hlength : (facade'.eventStore.streamOf entity).length =
      (facade.eventStore.streamOf entity).length + count) :
    versionsOf entity facade' =
      ((cadence strategy).step (versionsOf entity facade) (.command count false true)).1 := by
  simp [versionsOf, hsnapshots, hlength, cadence, Act.count, Act.stores, Versions.asked]

theorem Paced.of_unmoved (hhead : AtHead entity facade actor)
    (hlength : (facade'.eventStore.streamOf entity).length =
      (facade.eventStore.streamOf entity).length) : Paced strategy entity facade facade' actor :=
  ⟨⟨0, false, .inr (.inl rfl), versionsOf_unapplied hsnapshots hlength⟩,
    fun _ => hhead.trans hlength.symm⟩

theorem Paced.of_failed {identity : Option OperationIdentity} {events : List E}
    (hchange : StoreChange entity facade.eventStore facade'.eventStore identity events)
    (hfailed : actor.lifecycle = .failed) : Paced strategy entity facade facade' actor := by
  have hlength : ∃ count, (facade'.eventStore.streamOf entity).length =
      (facade.eventStore.streamOf entity).length + count := by
    cases hchange with
    | quiet _ _ unchanged => exact ⟨0, congrArg List.length (unchanged.streams entity)⟩
    | appended _ extended => exact ⟨_, by rw [extended.own, List.length_append]⟩
    | executed _ _ executed => exact ⟨_, by rw [executed.extended.own, List.length_append]⟩
  obtain ⟨count, hcount⟩ := hlength
  exact ⟨⟨count, false, .inr (.inr hfailed), versionsOf_unapplied hsnapshots hcount⟩,
    fun h => absurd hfailed h⟩

/-- The question is put with the version after the command and its own events. -/
theorem takeSnapshot_versions {events : List E} (hne : events ≠ [])
    (hasks : command.Asks strategy data) (hhead : AtHead entity facade actor)
    (hlength : (facade'.eventStore.streamOf entity).length = actor.version + events.length) :
    let count := events.length
    versionsOf entity (takeSnapshot entity facade' command (actor.version + count) count) =
      ((cadence strategy).step (versionsOf entity facade) (.command count true true)).1 := by
  intro count
  rw [takeSnapshot, hasks, hhead]
  rw [hhead] at hlength
  have hnat : (((facade.eventStore.streamOf entity).length : Int) + count).toNat =
    (facade.eventStore.streamOf entity).length + count := by omega
  rcases htake : strategy.shouldTakeSnapshot
      ((facade.eventStore.streamOf entity).length + count) count with _ | _ | _ <;>
    simp [count, versionsOf, PersistenceFacade.storeSnapshot, InMemorySnapshotStore.saveSnapshot,
      hsnapshots, hlength, cadence, Act.count, Act.stores, Versions.asked, hne, htake, hnat]

end

theorem executeEvents_paced {events : List E} (hne : events ≠ [])
    (hasks : command.Asks strategy data) (hhead : AtHead entity facade actor) :
    let r := executeEvents entity facade actor command events
    Paced strategy entity facade r.1 r.2.1 := by
  unfold executeEvents
  cases hp : persistCommand entity facade actor.version command.identity events
      command.faults with
  | error => exact .of_unmoved rfl hhead rfl
  | ok written =>
    obtain ⟨facade', answer⟩ := written
    obtain ⟨hsnapshots, hchange, hwritten⟩ := persistCommand_change hne hp
    cases answer with
    | error => exact .of_failed hsnapshots hchange rfl
    | ok newVersion =>
      obtain ⟨rfl, extended, -⟩ := hwritten newVersion rfl
      have hlength : (facade'.eventStore.streamOf entity).length =
          actor.version + events.length := by
        rw [extended.own, hhead, List.length_append, storedEvents, List.length_map]
      dsimp only [afterPersist]
      cases command.applied with
      | error => exact .of_failed hsnapshots hchange rfl
      | ok =>
        have hmoves := takeSnapshot_versions hsnapshots hne hasks hhead hlength
        have hstreams : (takeSnapshot entity facade' command (actor.version + events.length)
            events.length).eventStore = facade'.eventStore := by
          unfold takeSnapshot
          split <;> rfl
        rw [← hstreams] at hlength
        rcases acceptEffects entity command with ⟨accepted, _ | _⟩ <;>
          exact ⟨⟨events.length, true, .inl rfl, hmoves⟩, fun _ => hlength.symm⟩

theorem executeNoEvents_paced (current : S) (hhead : AtHead entity facade actor) :
    let r := executeNoEvents entity facade actor command current
    Paced strategy entity facade r.1 r.2.1 := by
  unfold executeNoEvents
  cases command.identity with
  | none => exact .of_unmoved rfl hhead rfl
  | some identity =>
    dsimp only
    cases hanswer : facade.persistEventsWithReceipt entity.aggregateType entity.entityId
        (some entity.tenantId) actor.version [] (receiptFor entity identity .noEvents)
        command.faults with
    | mk facade' answer =>
      have hdone : Paced strategy entity facade facade' actor := by
        rcases persistEventsWithReceipt_change (by simp) hanswer with
          ⟨rfl, -⟩ | ⟨hsnapshots, hexec, -⟩
        · exact .of_unmoved rfl hhead rfl
        · -- a receipt alone leaves the stream as it is
          refine .of_unmoved hsnapshots hhead ?_
          rw [hexec.extended.own, storedEvents, List.map_nil, List.append_nil]
      cases answer <;> exact hdone

/-- **The actor keeps the pace**: at the version of its stream, it moves the versions as
`cadence` does, and stays at that version unless it has failed. -/
theorem executeCommand_paced (hasks : command.Asks strategy data)
    (hhead : AtHead entity facade actor) :
    let r := executeCommand entity facade actor command
    Paced strategy entity facade r.1 r.2.1 := by
  have hsame : Paced strategy entity facade facade actor := .of_unmoved rfl hhead rfl
  unfold executeCommand
  cases actor.state with
  | none => exact hsame
  | some current =>
    cases gate entity facade command with
    | some => exact hsame
    | none =>
      cases command.handled with
      | error => exact hsame
      | ok events =>
        cases events with
        | cons => exact executeEvents_paced (by simp) hasks hhead
        | nil => exact executeNoEvents_paced current hhead

/-- `passivate` stores a snapshot at the version of the stream. -/
theorem passivate_paced {s : RuntimeState E S} (hat : s.actors entity = some actor)
    (hhead : AtHead entity s.facade actor) :
    ∃ saved, versionsOf entity (s.step (.passivate entity data)).1.facade =
      ((cadence strategy).step (versionsOf entity s.facade) (.passivate saved)).1 := by
  simp only [RuntimeState.step, hat]
  split
  · rename_i version hactor
    cases hactor
    refine ⟨true, ?_⟩
    simpa [versionsOf, RuntimeState.setActor, PersistenceFacade.storeSnapshot,
      InMemorySnapshotStore.saveSnapshot, cadence, Act.count, Act.stores, AtHead] using hhead
  · exact ⟨false, rfl⟩

end

end EgoRs.Entity
