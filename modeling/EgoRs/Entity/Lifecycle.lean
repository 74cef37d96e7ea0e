import Mathlib.Data.List.Chain
import EgoRs.Entity.Actor

/-! # The Published Lifecycle

`transition` of `EntityActor` drops the answer of the state machine and
publishes the state it was asked for (`persistent-entity/src/actor.rs`,
`lifecycle.rs`). So what is published is the lifecycle only if every call in
a run of the actor asks for a change that is allowed.

Only the registry's entry has a receiver of the watch channel, and only the
guard of the actor's task removes that entry.
-/

namespace EgoRs.Entity

open Framework EventStore

variable {E S : Type}

/-- The `Debug` of a state. -/
def EntityState.debug : EntityState → String
  | .recovering => "Recovering"
  | .active => "Active"
  | .passivating => "Passivating"
  | .passivated => "Passivated"
  | .failed => "Failed"

/-- `LifecycleStateMachine::transition_to`. -/
def transitionTo (current state : EntityState) : Except EntityError EntityState :=
  match current, state with
  | .recovering, .active | .active, .passivating | .passivating, .passivated
  | .passivated, .active | _, .failed => .ok state
  | _, _ => .error (.internal
      ("Invalid state transition from " ++ current.debug ++ " to " ++ state.debug))

/-! ## A run of an actor -/

/-- Where `run` is, or that the guard of its task was dropped. -/
inductive RunPhase where
  | recovering
  | processing
  /-- `passivate`, with the mailbox closed. -/
  | draining
  | passivating
  | ended
  | dropped
  deriving DecidableEq

structure ActorRun (E S : Type) where
  facade : PersistenceFacade E
  actor : Actor S
  /-- The states on the watch channel, the newest first. -/
  published : List EntityState
  phase : RunPhase

inductive RunInput (E S : Type) where
  | recover (handler : Handler E S) (deserialize : Json → Option S)
      (fault : Option PersistenceError)
  /-- A command is taken from the mailbox. -/
  | command (command : Command E S)
  /-- The passivation signal fires, or the mailbox is closed. -/
  | signal
  /-- The closed mailbox is empty. -/
  | drained
  /-- The snapshot of a passivation. -/
  | snapshot (data : Json)
  /-- The task ends or unwinds, with what an interrupted command left in the
      store, and drops its `TeardownGuard`. Without a receiver nothing is sent. -/
  | drop (facade : PersistenceFacade E) (receiver : Bool)

namespace ActorRun

def transition (s : ActorRun E S) (state : EntityState) : ActorRun E S :=
  let lifecycle := match transitionTo s.actor.lifecycle state with
    | .ok next => next
    | .error _ => s.actor.lifecycle
  { s with actor := { s.actor with lifecycle := lifecycle }, published := state :: s.published }

/-- What a call left of the actor. The call made a transition if it is to have
another lifecycle. -/
def become (s : ActorRun E S) (actor : Actor S) : ActorRun E S :=
  let s' := { s with actor := { actor with lifecycle := s.actor.lifecycle } }
  if actor.lifecycle = s.actor.lifecycle then s' else s'.transition actor.lifecycle

/-- `execute_command`. -/
def execute (entity : EntityTriple) (s : ActorRun E S) (command : Command E S) : ActorRun E S :=
  let executed := executeCommand entity s.facade s.actor command
  { s with facade := executed.1 }.become executed.2.1

/-- A failed actor answers what is in its mailbox and is done. -/
def goOn (s : ActorRun E S) (phase : RunPhase) : ActorRun E S :=
  { s with phase := if s.actor.lifecycle = .failed then .ended else phase }

/-- `run`, from one point to the next. -/
def step (entity : EntityTriple) (s : ActorRun E S) (input : RunInput E S) :
    ActorRun E S × Unit :=
  match s.phase, input with
  | .recovering, .recover handler deserialize fault =>
    ((s.become (recoverState s.facade entity handler deserialize fault)).goOn .processing, ())
  | .processing, .command command =>
    let s' := s.execute entity command
    (s'.goOn (if s'.actor.lifecycle = .active then .processing else .draining), ())
  | .processing, .signal => (s.goOn .draining, ())
  | .draining, .command command => ((s.execute entity command).goOn .draining, ())
  | .draining, .drained => ({ s.transition .passivating with phase := .passivating }, ())
  | .passivating, .snapshot data =>
    let facade := match s.actor.state with
      | none => s.facade
      | some _ => s.facade.storeSnapshot entity.aggregateId (some entity.tenantId)
          s.actor.version data
    ({ { s with facade := facade }.transition .passivated with phase := .ended }, ())
  | .dropped, .drop .. => (s, ())
  | _, .drop facade receiver =>
    -- the guard never stomps a terminal state
    let published := match s.published.head? with
      | some .failed | some .passivated => s.published
      | _ => if receiver then .failed :: s.published else s.published
    ({ s with facade := facade, published := published, phase := .dropped }, ())
  | _, _ => (s, ())

end ActorRun

/-- The actor of `entity`, over what the store holds. -/
def actorRun (S : Type) (entity : EntityTriple) (facade : PersistenceFacade E) :
    Machine (ActorRun E S) (RunInput E S) Unit where
  init := ⟨facade, ⟨none, 0, .recovering⟩, [.recovering], .recovering⟩
  step := ActorRun.step entity

/-! ## What is published -/

variable {s : ActorRun E S} {entity : EntityTriple}

/-- Every published state but the first follows on the one before. -/
abbrev Follows (published : List EntityState) : Prop :=
  published.IsChain fun later earlier => transitionTo earlier later = .ok later

/-- The lifecycle is the newest state published. -/
structure Current (s : ActorRun E S) : Prop where
  newest : ∃ earlier, s.published = s.actor.lifecycle :: earlier
  follows : Follows s.published

/-- An allowed transition publishes the lifecycle. -/
theorem Current.transition (hc : Current s) {state : EntityState}
    (hok : transitionTo s.actor.lifecycle state = .ok state) :
    Current (s.transition state) ∧ (s.transition state).actor.lifecycle = state := by
  obtain ⟨⟨earlier, hnewest⟩, hfollows⟩ := hc
  rw [hnewest] at hfollows
  have hlifecycle : (s.transition state).actor.lifecycle = state := by
    simp [ActorRun.transition, hok]
  refine ⟨⟨⟨s.published, by rw [hlifecycle]; rfl⟩, ?_⟩, hlifecycle⟩
  show Follows (state :: s.published)
  rw [hnewest]
  exact .cons_cons hok hfollows

theorem Current.become (hc : Current s) {actor : Actor S}
    (hok : actor.lifecycle = s.actor.lifecycle ∨
      transitionTo s.actor.lifecycle actor.lifecycle = .ok actor.lifecycle) :
    Current (s.become actor) ∧ (s.become actor).actor.lifecycle = actor.lifecycle := by
  have hc' : Current { s with actor := { actor with lifecycle := s.actor.lifecycle } } :=
    ⟨hc.newest, hc.follows⟩
  unfold ActorRun.become
  by_cases hsame : actor.lifecycle = s.actor.lifecycle
  · simp only [if_pos hsame]
    exact ⟨hc', hsame.symm⟩
  · simp only [if_neg hsame]
    exact hc'.transition (hok.resolve_left hsame)

/-- A command leaves the lifecycle alone or fails the actor. -/
theorem executeCommand_lifecycle (entity : EntityTriple) (facade : PersistenceFacade E)
    (actor : Actor S) (command : Command E S) :
    (executeCommand entity facade actor command).2.1.lifecycle = actor.lifecycle ∨
      (executeCommand entity facade actor command).2.1.lifecycle = .failed := by
  unfold executeCommand executeNoEvents executeEvents afterPersist
  repeat' split
  all_goals first | exact .inl rfl | exact .inr rfl

/-- What the lifecycle is at each point of `run`. -/
def RunPhase.Has (lifecycle : EntityState) : RunPhase → Prop
  | .recovering => lifecycle = .recovering
  | .processing | .draining => lifecycle = .active
  | .passivating => lifecycle = .passivating
  | .ended | .dropped => True

structure RunInv (s : ActorRun E S) : Prop where
  current : s.phase ≠ .dropped → Current s
  follows : Follows s.published
  phase : s.phase.Has s.actor.lifecycle

theorem RunInv.running (hi : RunInv s) {phase : RunPhase} (hat : s.phase = phase)
    (hne : phase ≠ .dropped) : Current s ∧ phase.Has s.actor.lifecycle := by
  subst hat
  exact ⟨hi.current hne, hi.phase⟩

theorem Current.runInv (hc : Current s) (hphase : s.phase.Has s.actor.lifecycle) : RunInv s :=
  ⟨fun _ => hc, hc.follows, hphase⟩

/-- An actor goes on as a failed one, or with the lifecycle of the next point. -/
theorem Current.goOn (hc : Current s) {phase : RunPhase}
    (hphase : s.actor.lifecycle = .failed ∨ phase.Has s.actor.lifecycle) :
    RunInv (s.goOn phase) := by
  have hc' : Current (s.goOn phase) := ⟨hc.newest, hc.follows⟩
  refine hc'.runInv ?_
  unfold ActorRun.goOn
  by_cases hfailed : s.actor.lifecycle = .failed
  · simp only [if_pos hfailed]
    trivial
  · simp only [if_neg hfailed]
    exact hphase.resolve_left hfailed

theorem transitionTo_failed
    (current : EntityState) : transitionTo current .failed = .ok .failed := by
  cases current <;> rfl

/-- A command keeps an active actor current, and active or failed. -/
theorem Current.execute (hc : Current s) (hactive : s.actor.lifecycle = .active)
    (command : Command E S) : Current (s.execute entity command) ∧
      ((s.execute entity command).actor.lifecycle = .failed ∨
        (s.execute entity command).actor.lifecycle = .active) := by
  have hc' : Current { s with facade := (executeCommand entity s.facade s.actor command).1 } :=
    ⟨hc.newest, hc.follows⟩
  obtain hsame | hfailed := executeCommand_lifecycle entity s.facade s.actor command
  · obtain ⟨hcurrent, heq⟩ := hc'.become (.inl hsame)
    exact ⟨hcurrent, .inr (heq.trans (hsame.trans hactive))⟩
  · obtain ⟨hcurrent, heq⟩ := hc'.become (.inr (hfailed ▸ transitionTo_failed _))
    exact ⟨hcurrent, .inl (heq.trans hfailed)⟩

/-- **Step lemma**: every transition that is asked for is allowed. -/
theorem RunInv.step (hi : RunInv s) (input : RunInput E S) : RunInv (s.step entity input).1 := by
  unfold ActorRun.step
  split
  case h_1 handler deserialize fault hat =>
    obtain ⟨hc, hlifecycle⟩ := hi.running hat nofun
    have hallowed : transitionTo s.actor.lifecycle .active = .ok .active := by
      rw [show s.actor.lifecycle = .recovering from hlifecycle]
      rfl
    unfold recoverState
    dsimp only
    split
    · rename_i state version _
      obtain ⟨hc', heq⟩ := @Current.become E S s hc ⟨some state, version, .active⟩ (.inr hallowed)
      exact hc'.goOn (.inr heq)
    · obtain ⟨hc', heq⟩ := @Current.become E S s hc ⟨none, 0, .failed⟩
        (.inr (transitionTo_failed _))
      exact hc'.goOn (.inl heq)
  case h_2 command hat =>
    obtain ⟨hc, hactive⟩ := hi.running hat nofun
    obtain ⟨hc', hlifecycle⟩ := hc.execute hactive command
    refine hc'.goOn (hlifecycle.imp_right fun hactive => ?_)
    rw [if_pos hactive]
    exact hactive
  case h_3 hat =>
    obtain ⟨hc, hactive⟩ := hi.running hat nofun
    exact hc.goOn (.inr hactive)
  case h_4 command hat =>
    obtain ⟨hc, hactive⟩ := hi.running hat nofun
    obtain ⟨hc', hlifecycle⟩ := hc.execute hactive command
    exact hc'.goOn hlifecycle
  case h_5 hat =>
    obtain ⟨hc, hactive⟩ := hi.running hat nofun
    have hallowed : transitionTo s.actor.lifecycle .passivating = .ok .passivating := by
      rw [show s.actor.lifecycle = .active from hactive]
      rfl
    obtain ⟨hc', heq⟩ := hc.transition hallowed
    exact Current.runInv ⟨hc'.newest, hc'.follows⟩ heq
  case h_6 data hat =>
    obtain ⟨hc, hpassivating⟩ := hi.running hat nofun
    have hallowed : transitionTo s.actor.lifecycle .passivated = .ok .passivated := by
      rw [show s.actor.lifecycle = .passivating from hpassivating]
      rfl
    obtain ⟨hc', -⟩ := hc.transition hallowed
    exact Current.runInv ⟨hc'.newest, hc'.follows⟩ trivial
  case h_8 facade receiver _ hne =>
    obtain ⟨⟨earlier, hnewest⟩, hfollows⟩ := hi.current hne
    refine ⟨fun h => (h rfl).elim, ?_, trivial⟩
    dsimp only
    split
    · exact hfollows
    · exact hfollows
    · split
      · rw [hnewest] at hfollows ⊢
        exact .cons_cons (transitionTo_failed _) hfollows
      · exact hfollows
  all_goals exact hi

/-- **Published lifecycle.** In every run of an actor, with whatever failures,
the newest state on the channel is the lifecycle as long as the task lives,
and every state that was published follows on the one before it. -/
theorem published_lifecycle {facade : PersistenceFacade E}
    {h : List (Transition (ActorRun E S) (RunInput E S) Unit)}
    (he : (actorRun S entity facade).Exec (actorRun S entity facade).init h s) :
    (s.phase ≠ .dropped → s.published.head? = some s.actor.lifecycle) ∧
      s.published.IsChain fun later earlier => transitionTo earlier later = .ok later := by
  have hinit : RunInv (actorRun S entity facade).init :=
    Current.runInv ⟨⟨[], rfl⟩, .singleton _⟩ rfl
  have hi : RunInv s := he.invariant (P := fun _ s => RunInv s) hinit fun _ _ i _ hi => hi.step i
  refine ⟨fun hrunning => ?_, hi.follows⟩
  obtain ⟨earlier, hnewest⟩ := (hi.current hrunning).newest
  rw [hnewest, List.head?_cons]

/-- A command whose events are not stored, after the mailbox was closed. -/
def failedDrain : List (RunInput Nat Nat) :=
  [.recover ⟨0, fun s _ => .ok s⟩ (fun _ => none) none, .signal,
    .command ⟨none, .ok [7], .ok 7, { StoreFaults.clear with append := some .missingTenant },
      fun _ _ => none, [], none⟩]

theorem published_lifecycle_failedDrain :
    let m := actorRun Nat ⟨"t", "order", "o-1"⟩ (⟨⟨⟨∅, ∅⟩, ∅⟩, ∅⟩ : PersistenceFacade Nat)
    (m.after m.init failedDrain).published = [.failed, .active, .recovering] ∧
      (m.after m.init failedDrain).published.head? =
        some (m.after m.init failedDrain).actor.lifecycle :=
  ⟨by decide, (published_lifecycle (Machine.exec_trace _ _ failedDrain)).1 (by decide)⟩

/-- What can have been published at each point of `run`. -/
@[simp] def RunPhase.histories : RunPhase → List (List EntityState)
  | .recovering => [[.recovering]]
  | .processing | .draining => [[.active, .recovering]]
  | .passivating => [[.passivating, .active, .recovering]]
  | .ended => [[.failed, .recovering], [.failed, .active, .recovering],
      [.passivated, .passivating, .active, .recovering]]
  | .dropped => [[.recovering], [.active, .recovering], [.passivating, .active, .recovering],
      [.failed, .recovering], [.failed, .active, .recovering],
      [.failed, .passivating, .active, .recovering],
      [.passivated, .passivating, .active, .recovering]]

theorem RunInv.histories (hi : RunInv s) (hp : s.published ∈ s.phase.histories)
    (input : RunInput E S) :
    (s.step entity input).1.published ∈ (s.step entity input).1.phase.histories := by
  unfold ActorRun.step
  split
  case h_1 handler deserialize fault hat =>
    have hlifecycle : s.actor.lifecycle = .recovering := (hi.running hat nofun).2
    unfold recoverState
    dsimp only
    split <;> simp_all [ActorRun.become, ActorRun.transition, ActorRun.goOn, transitionTo]
  case h_2 command hat | h_4 command hat =>
    have hactive : s.actor.lifecycle = .active := (hi.running hat nofun).2
    obtain hl | hl := executeCommand_lifecycle entity s.facade s.actor command <;>
      simp_all [ActorRun.execute, ActorRun.become, ActorRun.transition, ActorRun.goOn, transitionTo]
  case h_3 hat =>
    have hactive : s.actor.lifecycle = .active := (hi.running hat nofun).2
    simp_all [ActorRun.goOn]
  case h_5 hat | h_6 hat => simp_all [ActorRun.transition]
  case h_8 _ _ receiver _ =>
    dsimp only
    revert hp
    generalize s.phase = phase, s.published = published
    cases phase <;> cases receiver <;> revert published <;> decide
  all_goals exact hp

/-- **Nothing follows a terminal state.** In every run one of these
histories was published. -/
theorem published_histories (facade : PersistenceFacade E) (inputs : List (RunInput E S)) :
    let s := (actorRun S entity facade).after (actorRun S entity facade).init inputs
    s.published ∈ s.phase.histories := by
  have hrun := (actorRun S entity facade).exec_trace (actorRun S entity facade).init inputs
  refine (hrun.invariant (P := fun _ s => RunInv s ∧ s.published ∈ s.phase.histories) ?_ ?_).2
  · exact ⟨Current.runInv ⟨⟨[], rfl⟩, .singleton _⟩ rfl, List.mem_singleton.mpr rfl⟩
  · rintro _ _ input _ ⟨hi, hp⟩
    exact ⟨hi.step input, hi.histories hp input⟩

end EgoRs.Entity
