import EgoRs.Effects.Shutdown
import EgoRs.Effects.Delivery

/-! # Clean Shutdown

What `Ok(())` from `shutdown_and_wait` stands for: nothing is running and no
effect is in flight.

Every effect in flight is with a task, and every task the loop has marked
and not yet spawned is the one it waits with. The loop may see the signal
while it waits: then that effect stays in flight and nobody has it. And the
wait for the accept calls may end by its deadline, which nobody looks at.
-/

namespace EgoRs.Effects

open Framework

/-! ## The property and its condition -/

/-- `shutdown_and_wait` was called before transition `n`. -/
def DrainingAt (h : RuntimeHistory) (n : Nat) : Prop :=
  ∃ m t, m < n ∧ h[m]? = some t ∧ t.input = .shutdownAndWait

/-- **Clean shutdown leaves nothing in flight.** -/
structure CleanShutdown (h : RuntimeHistory) (s : Runtime) : Prop where
  /-- No accept call is running. -/
  calls : ∀ call ∈ s.calls, call.isOpen = false
  /-- A call that starts after draining began is rejected and does nothing, then or
      later. -/
  rejected : ∀ n (t : RuntimeEvent) tenant effects, DrainingAt h n → h[n]? = some t →
    t.input = .enter tenant effects →
    t.post.inner = t.pre.inner ∧
      (∃ key, t.post.calls[t.pre.calls.length]? = some
        ⟨tenant, 0, [], .ended (some (.error (.permanent shutdownRejectedMsg 0 key)))⟩) ∧
      ∀ p (u : RuntimeEvent) input, n < p → h[p]? = some u →
        u.input = .call t.pre.calls.length input → u.post = u.pre
  /-- No dispatch task is running. -/
  tasks : ∀ task ∈ s.inner.tasks, task.stage.permitted = false
  /-- No executor call is running. -/
  executors : ∀ task ∈ s.inner.tasks, task.stage.running = false
  settled : ∀ id, ¬ InState s.inner.store id .inFlight

/-- The loop waits for a permit with an effect it has marked in flight. -/
def Runtime.waitsMarked (s : Runtime) : Bool :=
  match s.inner.loop with
  | .admitting i _ =>
    match s.inner.tasks[i]? with
    | some ⟨_, .admitting claimed⟩ => claimed
    | _ => false
  | _ => false

/-- The loop does not see the signal while it waits with a marked effect, and no
accept call is running when the wait for them ends by its deadline. -/
def orderly (t : RuntimeEvent) : Bool :=
  match t.input with
  | .stop => !t.pre.waitsMarked
  | .drained elapsed => !elapsed || t.pre.gate.inFlight == 0
  | _ => true

/-! ## Effects in flight -/

/-- Every effect in flight is with a task. -/
def Attended (s : State) : Prop :=
  ∀ id, InState s.store id .inFlight → ∃ (i : Nat) (task : Task), s.tasks[i]? = some task ∧
    task.effect.id = id ∧ task.stage.owns = true

section
variable {runner : DeliveryRunner} {s s' : State} {input : Input} {seen : Option Observation}
  (hs : Steps runner s input s' seen)
include hs

/-- An effect in flight was so before, or a task has just marked it. -/
theorem Steps.inFlight {id : EffectId} (hpost : InState s'.store id .inFlight) :
    InState s.store id .inFlight ∨ ∃ (i : Nat) (task : Task), s'.tasks[i]? = some task ∧
      task.effect.id = id ∧ task.stage.owns = true := by
  obtain ⟨record, hrecord, hstate⟩ := hpost
  obtain ⟨-, hpending, -⟩ | ⟨old, hold, hc⟩ := hs.changes hrecord
  · cases hpending.symm.trans hstate
  cases hc with
  | kept => exact .inl ⟨record, hold, hstate⟩
  | marked i _ _ own _ _ after owns => exact .inr ⟨i, _, after, own, owns⟩
  | _ => cases hstate

variable (hinv : RunnerInv runner s)
include hinv

/-- **An effect in flight keeps its task**, unless one is aborted. -/
theorem Steps.attended (ha : Attended s) (hdetached : ∀ task ∈ s.tasks, task.stage ≠ .detached)
    (hunaborted : ∀ i, input ≠ .abort i) : Attended s' := by
  intro id hpost
  obtain hbefore | hmarked := hs.inFlight hpost
  swap
  · exact hmarked
  obtain ⟨i, ⟨effect, stage⟩, hat, hid, howns⟩ := ha id hbefore
  obtain ⟨stage', hat'⟩ := hs.persists hat
  refine ⟨i, ⟨effect, stage'⟩, hat', hid, ?_⟩
  obtain ⟨at', -⟩ | hturns := hs.origin hinv hat'
  · cases hat.symm.trans at'
    exact howns
  cases hturns with
  | received _ new | reclaimed _ _ _ _ _ _ _ _ new => cases hat.symm.trans new
  | spawned _ claimed at' =>
    cases hat.symm.trans at'
    cases claimed with
    | true => rfl
    | false => cases howns
  | resumed _ _ _ _ _ at' moves store =>
    cases hat.symm.trans at'
    -- the effect is not in another state now
    have hput : ∀ record : EffectRecord, s'.store = s.store.put effect.id record →
        record.state = .inFlight := by
      rintro record hstore
      obtain ⟨r, hr, hstate⟩ := hpost
      rw [hstore, ← hid] at hr
      obtain ⟨-, rfl⟩ | ⟨hne, -⟩ := lookup_insert_cases hr
      · exact hstate
      · exact absurd rfl hne
    cases moves with
    | waits => exact howns
    | marks | refused | releases => cases howns
    | records | satisfies | retries | abandons => cases hput _ store
    | _ => rfl
  | finished _ _ _ _ _ _ finishes => cases finishes <;> rfl
  | unheard _ _ at' => exact absurd rfl (hdetached _ (List.mem_of_getElem? at'))
  | aborted _ _ call => exact absurd call (hunaborted i)

/-- Nobody is detached by a step that aborts nobody. -/
theorem Steps.undetached (hdetached : ∀ task ∈ s.tasks, task.stage ≠ .detached)
    (hunaborted : ∀ i, input ≠ .abort i) : ∀ task ∈ s'.tasks, task.stage ≠ .detached := by
  intro task htask hstage
  obtain ⟨i, hat⟩ := List.mem_iff_getElem?.mp htask
  obtain ⟨at', -⟩ | hturns := hs.origin hinv hat
  · exact hdetached task (List.mem_of_getElem? at') hstage
  cases hturns with
  | received | reclaimed | unheard => cases hstage
  | spawned _ claimed => cases claimed <;> cases hstage
  | resumed _ _ _ _ _ at' moves =>
    cases moves with
    | waits => exact hdetached _ (List.mem_of_getElem? at') hstage
    | abandons _ release => cases release <;> cases hstage
    | _ => cases hstage
  | finished _ _ _ _ _ _ finishes =>
    cases finishes <;> cases hstage
  | aborted _ _ call => exact absurd call (hunaborted i)

/-- With the loop stopped and no task running, no task runs again. -/
theorem Steps.joined (hloop : s.loop = .stopped)
    (hjoined : ∀ task ∈ s.tasks, task.stage.permitted = false) :
    ∀ task ∈ s'.tasks, task.stage.permitted = false := by
  intro task htask
  obtain ⟨i, hat⟩ := List.mem_iff_getElem?.mp htask
  obtain ⟨at', -⟩ | hturns := hs.origin hinv hat
  · exact hjoined task (List.mem_of_getElem? at')
  cases hturns with
  | received | reclaimed | unheard => rfl
  | spawned _ _ _ _ _ loop => cases hloop.symm.trans loop
  | resumed _ _ stage _ _ at' moves =>
    have hidle : stage.permitted = false := hjoined _ (List.mem_of_getElem? at')
    cases moves with
    | waits => exact hidle
    | _ => cases hidle
  | finished _ _ _ _ _ at' => cases hjoined _ (List.mem_of_getElem? at')
  | aborted _ stage => cases stage <;> rfl

end

/-! ## The loop and its permit -/

/-- An effect that is marked and not spawned is the one the loop waits with. -/
def Waiting (s : State) : Prop :=
  ∀ (i : Nat) (effect : AcceptedEffect), s.tasks[i]? = some ⟨effect, .admitting true⟩ →
    ∃ due, s.loop = .admitting i due

section
variable {runner : DeliveryRunner} {s : State}

/-- A loop that waits or has stopped stays so, until its task is spawned. -/
theorem step_loop {input : Input}
    (hloop : s.loop = .stopped ∨ ∃ i due, s.loop = .admitting i due) (hstop : input ≠ .stop) :
    (s.step runner input).1.loop = s.loop ∨ ∃ i due effect claimed, s.loop = .admitting i due ∧
      (s.step runner input).1.tasks[i]? = some ⟨effect, .spawned claimed⟩ := by
  cases input with
  | clock | unsent => exact .inl rfl
  | accept | send | resume | abort =>
    left
    simp only [State.step]
    split <;> rfl
  | finish =>
    left
    simp only [State.step]
    split
    · split <;> rfl
    · rfl
  | claim | reclaim | recv =>
    left
    obtain hloop | ⟨i, due, hloop⟩ := hloop <;> simp [State.step, hloop]
  | permit =>
    simp only [State.step]
    split
    · rename_i i due hwaits
      split
      · split
        · rename_i effect claimed hat
          right
          have hlt : i < s.tasks.length := (List.getElem?_eq_some_iff.mp hat).1
          exact ⟨i, due, effect, claimed, hwaits, List.getElem?_set_self hlt⟩
        · exact .inl rfl
      · exact .inl rfl
    · exact .inl rfl
  | stop => exact absurd rfl hstop

/-- **The loop waits with what it has marked**, as long as it is not stopped. -/
theorem Waiting.step (hw : Waiting s) (hinv : RunnerInv runner s) (input : Input)
    (hstop : input ≠ .stop) : Waiting (s.step runner input).1 := by
  intro i effect hat
  -- it goes on waiting with a task that it waits with
  have hwaits : s.tasks[i]? = some ⟨effect, .admitting true⟩ →
      ∃ due, (s.step runner input).1.loop = .admitting i due := by
    intro hold
    obtain ⟨due, hloop⟩ := hw i effect hold
    obtain hkept | ⟨j, due', _, claimed, hj, hspawned⟩ := step_loop (.inr ⟨i, due, hloop⟩) hstop
    · exact ⟨due, hkept.trans hloop⟩
    · cases hloop.symm.trans hj
      cases claimed <;> cases hat.symm.trans hspawned
  generalize hstage : Stage.admitting true = stage at hat
  obtain ⟨at', -⟩ | hturns := (steps_step hinv input).origin hinv hat
  · subst hstage
    exact hwaits at'
  generalize (s.step runner input).2 = seen at hturns
  cases hturns with
  | received | unheard => cases hstage
  | spawned _ claimed => cases claimed <;> cases hstage
  | reclaimed copy due record call loop found isOpen _ new =>
    subst call
    have hmark := InMemoryEffectStore.mark_of_allowed .inFlight (fun r => r) found
      (show record.state ∈ [EffectState.pending, .retryableFailed] by simpa using isOpen)
    simp only [State.step, loop, InMemoryEffectStore.markInFlight, hmark] at hat ⊢
    obtain ⟨rfl, -⟩ | hold := getElem?_concat_cases hat
    · exact ⟨due, rfl⟩
    · cases new.symm.trans hold
  | resumed _ _ _ _ _ at' moves =>
    cases moves with
    | waits =>
      subst hstage
      exact hwaits at'
    | abandons _ release => cases release <;> cases hstage
    | _ => cases hstage
  | finished _ _ _ _ _ _ finishes => cases finishes <;> cases hstage
  | aborted _ stage _ at' =>
    cases stage with
    | admitting =>
      cases hstage
      exact hwaits at'
    | _ => cases hstage

theorem step_stopped (hloop : s.loop = .stopped) (input : Input) :
    (s.step runner input).1.loop = .stopped := by
  by_cases hstop : input = .stop
  · subst hstop
    rfl
  · obtain hkept | ⟨_, _, _, _, hwaits, -⟩ := step_loop (.inl hloop) hstop
    · exact hkept.trans hloop
    · cases hloop.symm.trans hwaits

end

/-! ## Every state of a run -/

/-- The shutdown has aborted something. -/
def Phase.forced : Phase → Bool
  | .joining (.error _) => true
  | .forcing _ => true
  | .returned (.error _) => true
  | _ => false

/-- What holds of the runner's part as long as nothing is aborted. -/
structure Calm (s : State) : Prop where
  undetached : ∀ task ∈ s.tasks, task.stage ≠ .detached
  attended : Attended s
  waiting : Waiting s

/-- **What holds in every state** of an orderly run. -/
structure RuntimeInv (runner : DeliveryRunner) (s : Runtime) : Prop where
  inner : RunnerInv runner s.inner
  count : s.gate.inFlight = s.calls.countP AcceptCall.isOpen
  serving : s.gate.state = .running → s.phase = .serving
  drained : s.phase.signalled = true → s.gate.inFlight = 0
  calm : s.phase.forced = false → Calm s.inner
  stopped : s.phase = .joining (.ok ()) ∨ s.phase = .returned (.ok ()) → s.inner.loop = .stopped
  joined : s.phase = .returned (.ok ()) → ∀ task ∈ s.inner.tasks, task.stage.permitted = false

section
variable {runner : DeliveryRunner} {s : Runtime}

theorem Calm.step {s : State} (hc : Calm s) (hinv : RunnerInv runner s) (input : Input)
    (hstop : input ≠ .stop) (habort : ∀ i, input ≠ .abort i) : Calm (s.step runner input).1 where
  undetached := (steps_step hinv input).undetached hinv hc.undetached habort
  attended := (steps_step hinv input).attended hinv hc.attended hc.undetached habort
  waiting := hc.waiting.step hinv input hstop

/-- The loop stops, and does not wait with a marked effect. -/
theorem Calm.stop (runner : DeliveryRunner) (hc : Calm s.inner) (hmarked : s.waitsMarked = false) :
    Calm (s.inner.step runner .stop).1 where
  undetached := hc.undetached
  attended := hc.attended
  waiting := by
    intro i effect hat
    have hat' : s.inner.tasks[i]? = some ⟨effect, .admitting true⟩ := hat
    obtain ⟨due, hloop⟩ := hc.waiting i effect hat'
    simp [Runtime.waitsMarked, hloop, hat'] at hmarked

/-- The runner takes a step; the gate, the calls and the phase stay. -/
theorem RuntimeInv.inner_step (hi : RuntimeInv runner s) (input : Input) (hstop : input ≠ .stop)
    (habort : s.phase.forced = false → ∀ i, input ≠ .abort i) :
    RuntimeInv runner { s with inner := (s.inner.step runner input).1 } where
  inner := (steps_step hi.inner input).runnerInv hi.inner
  count := hi.count
  serving := hi.serving
  drained := hi.drained
  calm := fun h => (hi.calm h).step hi.inner input hstop (habort h)
  stopped := fun h => step_stopped (hi.stopped h) input
  joined := by
    intro h
    exact (steps_step hi.inner input).joined hi.inner (hi.stopped (.inr h)) (hi.joined h)

variable {phase : Phase} {input : Input} {k : Nat} {call : AcceptCall} {h : RuntimeHistory}

theorem Phase.allows_stop (h : phase.allows input = true) : input ≠ .stop := by
  rintro rfl
  cases h

theorem Phase.allows_abort (h : phase.allows input = true) (hforced : phase.forced = false)
    (i : Nat) : input ≠ .abort i := by
  rintro rfl
  cases phase with
  | forcing => cases hforced
  | _ => cases h

theorem Input.ne_stop (h : input.byCall = true) : input ≠ .stop := by
  rintro rfl
  cases h

theorem Input.ne_abort (h : input.byCall = true) (i : Nat) : input ≠ .abort i := by
  rintro rfl
  cases h

section
variable (hi : RuntimeInv runner s)
include hi

theorem RuntimeInv.concat (call : AcceptCall) (gate : LifecycleGate)
    (hstate : gate.state = s.gate.state)
    (hcount : gate.inFlight = s.gate.inFlight + if call.isOpen then 1 else 0)
    (hdrained : s.phase.signalled = true → gate.inFlight = 0) :
    RuntimeInv runner { s with gate := gate, calls := s.calls ++ [call] } := by
  refine { hi with count := ?_, serving := fun h => hi.serving (hstate ▸ h), drained := hdrained }
  show gate.inFlight = (s.calls ++ [call]).countP AcceptCall.isOpen
  rw [hcount, hi.count, List.countP_append, List.countP_singleton]

theorem RuntimeInv.counted (hat : s.calls[k]? = some call) (hopen : call.isOpen = true) :
    0 < s.gate.inFlight := by
  rw [hi.count]
  exact List.countP_pos_iff.mpr ⟨call, List.mem_of_getElem? hat, hopen⟩

/-- Call `k` goes on or ends, and the gate keeps count. -/
theorem RuntimeInv.set (hat : s.calls[k]? = some call) (hopen : call.isOpen = true)
    (call' : AcceptCall) (gate : LifecycleGate) (hstate : gate.state = s.gate.state)
    (hcount : gate.inFlight + 1 = s.gate.inFlight + if call'.isOpen then 1 else 0) :
    RuntimeInv runner { s with gate := gate, calls := s.calls.set k call' } := by
  have hpos := hi.counted hat hopen
  refine { hi with count := ?_, serving := fun h => hi.serving (hstate ▸ h), drained := ?_ }
  · obtain ⟨hlt, hget⟩ := List.getElem?_eq_some_iff.mp hat
    have hset := List.countP_set (p := AcceptCall.isOpen) hlt (a := call')
    show gate.inFlight = (s.calls.set k call').countP AcceptCall.isOpen
    rw [hset, hget, if_pos hopen, ← hi.count]
    omega
  · intro h
    -- a call is open, so nobody was signalled
    have hzero := hi.drained h
    omega

theorem RuntimeInv.closed (h : s.phase ≠ .serving) : s.gate.state ≠ .running :=
  fun hrunning => h (hi.serving hrunning)

/-- `shutdown_and_wait` goes on; the runner and the calls stay. -/
theorem RuntimeInv.turn (gate : LifecycleGate) (hcount : gate.inFlight = s.gate.inFlight)
    (hclosed : gate.state ≠ .running) (hdrained : phase.signalled = true → s.gate.inFlight = 0)
    (hforced : phase.forced = false → s.phase.forced = false)
    (hstopped : phase = .joining (.ok ()) ∨ phase = .returned (.ok ()) → s.inner.loop = .stopped)
    (hjoined : phase = .returned (.ok ()) → ∀ task ∈ s.inner.tasks, task.stage.permitted = false) :
    RuntimeInv runner { s with gate := gate, phase := phase } where
  inner := hi.inner
  count := hcount.trans hi.count
  serving := fun h => absurd h hclosed
  drained := fun h => hcount.trans (hdrained h)
  calm := fun h => hi.calm (hforced h)
  stopped := hstopped
  joined := hjoined

theorem RuntimeInv.call_step (hcall : input.byCall = true) :
    RuntimeInv runner { s with inner := (s.inner.step runner input).1 } :=
  hi.inner_step input (Input.ne_stop hcall) fun _ => Input.ne_abort hcall

end

variable {input : RuntimeInput}

theorem RuntimeSteps.runtimeInv {s' : Runtime} (hs : RuntimeSteps runner s input s')
    (hi : RuntimeInv runner s) (hstop : input = .stop → s.waitsMarked = false)
    (hdrained : input = .drained true → s.gate.inFlight = 0) : RuntimeInv runner s' := by
  cases hs with
  | idle => exact hi
  | ran input allowed =>
    exact hi.inner_step input (Phase.allows_stop allowed) (Phase.allows_abort allowed)
  | rejected | empty => exact hi.concat _ s.gate rfl rfl hi.drained
  | admitted _ _ _ running =>
    refine hi.concat _ _ running.symm rfl ?_
    intro hsignalled
    rw [hi.serving running] at hsignalled
    cases hsignalled
  | advanced _ _ _ call' _ at' isOpen isOpen' byCall =>
    refine (hi.call_step byCall).set at' isOpen call' s.gate rfl ?_
    rw [if_pos isOpen']
  | ended _ input call _ _ at' isOpen byCall =>
    have hpos := hi.counted at' isOpen
    have hleave : s.gate.leave.inFlight + 1 = s.gate.inFlight + 0 := by
      show s.gate.inFlight - 1 + 1 = s.gate.inFlight
      omega
    obtain rfl | ⟨input, hcall, rfl⟩ := byCall
    · exact hi.set at' isOpen _ s.gate.leave rfl hleave
    · exact (hi.call_step hcall).set at' isOpen _ s.gate.leave rfl hleave
  | began serving =>
    refine hi.turn s.gate.beginDraining rfl (fun h => by cases h) (fun h => by cases h) ?_ ?_ ?_
    · intro _
      rw [serving]
      rfl
    · rintro (h | h) <;> cases h
    · intro h
      cases h
  | drained _ draining empty =>
    refine hi.turn s.gate rfl (hi.closed (by simp [draining])) ?_ ?_ ?_ ?_
    · intro _
      obtain rfl | hempty := empty
      · exact hdrained rfl
      · exact hempty
    · intro _
      rw [draining]
      rfl
    · rintro (h | h) <;> cases h
    · intro h
      cases h
  | stopped =>
    refine ⟨(steps_step hi.inner .stop).runnerInv hi.inner, hi.count, hi.serving, hi.drained,
      ?_, fun _ => rfl, hi.joined⟩
    intro hforced
    exact (hi.calm hforced).stop runner (hstop rfl)
  | runnerJoined stopping stopped =>
    refine hi.turn s.gate rfl (hi.closed (by simp [stopping]))
      (fun _ => hi.drained (by rw [stopping]; rfl)) ?_ (fun _ => stopped) ?_
    · intro _
      rw [stopping]
      rfl
    · intro h
      cases h
  | runnerAborted stopping =>
    have hclosed := hi.closed (by simp [stopping])
    refine ⟨(steps_step hi.inner .stop).runnerInv hi.inner, hi.count,
      fun h => absurd h hclosed, fun _ => hi.drained (by rw [stopping]; rfl), ?_, fun _ => rfl, ?_⟩
    · intro h
      cases h
    · intro h
      cases h
  | tasksJoined result joining dispatched =>
    refine hi.turn s.gate.close rfl (fun h => by cases h)
      (fun _ => hi.drained (by rw [joining]; rfl)) ?_ ?_ ?_
    · intro hforced
      rw [joining]
      cases result with
      | ok => rfl
      | error => cases hforced
    · rintro (h | h)
      · cases h
      · cases h
        exact hi.stopped (.inl joining)
    · intro _ task htask
      have hall := List.any_eq_false.mp dispatched task htask
      simpa using hall
  | forced _ _ joining =>
    refine hi.turn s.gate rfl (hi.closed (by simp [joining]))
      (fun _ => hi.drained (by rw [joining]; rfl)) (fun h => by cases h) ?_ (fun h => by cases h)
    rintro (h | h) <;> cases h
  | forcedJoined _ _ forcing =>
    refine hi.turn s.gate.close rfl (fun h => by cases h)
      (fun _ => hi.drained (by rw [forcing]; rfl)) (fun h => by cases h) ?_ (fun h => by cases h)
    rintro (h | h) <;> cases h

theorem runtimeInv_run (he : (effectRuntime runner).Run h s)
    (horderly : Along (fun _ t => orderly t = true) h) : RuntimeInv runner s := by
  refine he.invariant_along (P := fun _ s => RuntimeInv runner s) ?_ ?_ horderly
  · refine ⟨runnerInv_run (.nil _), rfl, fun _ => rfl, ?_, ?_, ?_, ?_⟩
    · intro h
      cases h
    · intro _
      refine ⟨?_, ?_, ?_⟩
      · intro task htask
        cases htask
      · rintro id ⟨record, hat, -⟩
        cases hat
      · intro i effect hat
        cases hat
    · rintro (h | h) <;> cases h
    · intro h
      cases h
  · intro h s input _ hi hc
    refine (runtimeSteps_step runner s input).runtimeInv hi ?_ ?_
    · rintro rfl
      simpa [orderly] using hc
    · rintro rfl
      simpa [orderly] using hc

/-! ## Calls after the gate is closed -/

/-- `shutdown_and_wait` is called once and for all. -/
theorem step_serving (h : (s.step runner input).phase = .serving) :
    s.phase = .serving ∧ input ≠ .shutdownAndWait := by
  constructor
  · generalize hs' : s.step runner input = s' at h
    have hs := runtimeSteps_step runner s input
    rw [hs'] at hs
    cases hs <;> first | exact h | cases h
  · rintro rfl
    simp only [Runtime.step] at h
    split at h
    · cases h
    · rename_i hserving
      exact hserving h

theorem draining_run (he : (effectRuntime runner).Run h s)
    (hcalled : ∃ t ∈ h, t.input = .shutdownAndWait) : s.phase ≠ .serving := by
  refine he.invariant (P := fun h s => (∃ t ∈ h, t.input = .shutdownAndWait) →
    s.phase ≠ .serving) ?_ ?_ hcalled
  · rintro ⟨t, ht, -⟩
    cases ht
  · rintro h s input - hbefore ⟨t, ht, hinput⟩ hserving
    obtain ⟨hwas, hne⟩ := step_serving hserving
    obtain hold | hlast := List.mem_append.mp ht
    · exact hbefore ⟨t, hold, hinput⟩ hwas
    · rw [List.mem_singleton.mp hlast] at hinput
      exact hne hinput

theorem callStep_ended (hended : call.isOpen = false) (input : CallInput) :
    s.callStep runner k call input = s := by
  obtain ⟨tenant, index, rest, stage⟩ := call
  cases stage with
  | ended =>
    cases input with
    | expire =>
      simp only [Runtime.callStep]
      split <;> rfl
    | _ => rfl
  | _ => cases hended

theorem RuntimeSteps.call_ended {s' : Runtime} (hs : RuntimeSteps runner s input s')
    (hat : s.calls[k]? = some call) (hended : call.isOpen = false) : s'.calls[k]? = some call := by
  have hlt : k < s.calls.length := (List.getElem?_eq_some_iff.mp hat).1
  have hset : ∀ (j : Nat) (open' call' : AcceptCall), s.calls[j]? = some open' →
      open'.isOpen = true → (s.calls.set j call')[k]? = some call := by
    intro j open' call' hj hopen
    have hjk : j ≠ k := by
      rintro rfl
      rw [hat] at hj
      cases hj
      rw [hended] at hopen
      cases hopen
    rw [List.getElem?_set_ne hjk]
    exact hat
  cases hs with
  | rejected | empty => exact (List.getElem?_append_left hlt).trans hat
  | admitted =>
    exact (List.getElem?_append_left hlt).trans hat
  | advanced j _ _ _ _ at' isOpen | ended j _ _ _ _ at' isOpen =>
    exact hset j _ _ at' isOpen
  | _ => exact hat

/-- **A call that starts after draining began** is rejected for good. -/
theorem rejected_run {n : Nat} {t : RuntimeEvent} {tenant : TenantId}
    {effects : List ExternalEffectDescription} (he : (effectRuntime runner).Run h s)
    (horderly : Along (fun _ t => orderly t = true) h) (hdraining : DrainingAt h n)
    (hn : h[n]? = some t) (hinput : t.input = .enter tenant effects) : t.post.inner = t.pre.inner ∧
      (∃ key, t.post.calls[t.pre.calls.length]? = some
        ⟨tenant, 0, [], .ended (some (.error (.permanent shutdownRejectedMsg 0 key)))⟩) ∧
      ∀ p (u : RuntimeEvent) input, n < p → h[p]? = some u →
        u.input = .call t.pre.calls.length input → u.post = u.pre := by
  obtain ⟨hbefore, hfire, hafter⟩ := he.split_position hn
  have hclosed : t.pre.gate.state ≠ .running := by
    have htake : h = h.take n ++ h.drop n := (List.take_append_drop n h).symm
    have hinv := runtimeInv_run hbefore (by rw [htake] at horderly; exact horderly.of_append)
    apply hinv.closed
    obtain ⟨m, u, hmn, hm, hu⟩ := hdraining
    refine draining_run hbefore ⟨u, ?_, hu⟩
    apply List.mem_of_getElem? (i := m)
    rw [List.getElem?_take_of_lt hmn]
    exact hm
  have hpost : t.post = t.pre.enter tenant effects := by
    rw [hfire, hinput]
    rfl
  -- what the call is from then on
  have hcall : t.post.inner = t.pre.inner ∧ ∃ key, t.post.calls = t.pre.calls ++
      [⟨tenant, 0, [], .ended (some (.error (.permanent shutdownRejectedMsg 0 key)))⟩] := by
    rw [hpost]
    unfold Runtime.enter LifecycleGate.enter
    cases hstate : t.pre.gate.state with
    | running => exact absurd hstate hclosed
    | draining | closed => exact ⟨rfl, _, rfl⟩
  obtain ⟨hinner, key, hcalls⟩ := hcall
  have hat : t.post.calls[t.pre.calls.length]? = some
      ⟨tenant, 0, [], .ended (some (.error (.permanent shutdownRejectedMsg 0 key)))⟩ := by
    rw [hcalls]
    exact List.getElem?_concat_length
  refine ⟨hinner, ⟨key, hat⟩, ?_⟩
  intro p u input hnp hp hu
  have hp' : (h.drop (n + 1))[p - (n + 1)]? = some u := by
    rw [List.getElem?_drop, show n + 1 + (p - (n + 1)) = p by omega]
    exact hp
  obtain ⟨hmid, hfire', -⟩ := hafter.split_position hp'
  have hk := hmid.invariant (P := fun _ s => s.calls[t.pre.calls.length]? = some _) hat
    fun _ s input _ hk => (runtimeSteps_step runner s input).call_ended hk rfl
  have hstep : u.post = u.pre.step runner (.call t.pre.calls.length input) := by
    rw [hfire', hu]
    rfl
  rw [hstep]
  simp only [Runtime.step, hk]
  exact callStep_ended rfl input

end

/-! ## Clean shutdown -/

/-- **Clean shutdown leaves nothing in flight**, in every orderly run. -/
theorem clean_shutdown {runner : DeliveryRunner} {h : RuntimeHistory} {s : Runtime}
    (he : (effectRuntime runner).Exec (effectRuntime runner).init h s)
    (horderly : ∀ t ∈ h, orderly t = true) (hok : s.phase = .returned (.ok ())) :
    CleanShutdown h s := by
  have hi := runtimeInv_run he (.of_forall horderly)
  have hcalm := hi.calm (by rw [hok]; rfl)
  have hjoined := hi.joined hok
  refine ⟨?_, ?_, hjoined, ?_, ?_⟩
  · intro call hcall
    have hzero : s.calls.countP AcceptCall.isOpen = 0 :=
      hi.count.symm.trans (hi.drained (by rw [hok]; rfl))
    simpa using List.countP_eq_zero.mp hzero call hcall
  · intro n t tenant effects hdraining hn hinput
    exact rejected_run he (.of_forall horderly) hdraining hn hinput
  · rintro ⟨effect, stage⟩ htask
    have hidle := hjoined _ htask
    have hheard := hcalm.undetached _ htask
    cases stage with
    | executing => cases hidle
    | detached => exact absurd rfl hheard
    | _ => rfl
  · intro id hflight
    obtain ⟨i, ⟨effect, stage⟩, hat, -, howns⟩ := hcalm.attended id hflight
    have hidle := hjoined _ (List.mem_of_getElem? hat)
    have hheard := hcalm.undetached _ (List.mem_of_getElem? hat)
    -- who has it and does not run waits with the loop, which has stopped
    cases stage with
    | admitting claimed =>
      cases claimed with
      | false => cases howns
      | true =>
        obtain ⟨due, hloop⟩ := hcalm.waiting i effect hat
        rw [hi.stopped (.inr hok)] at hloop
        cases hloop
    | detached => exact absurd rfl hheard
    | done | marking | releasing => cases howns
    | _ => cases hidle

/-- A mail is accepted and delivered; a second call comes too late. -/
def mailShutDown : List RuntimeInput :=
  [.enter sampleTenant [sampleMail], .call 0 (.accept ⟨"a"⟩), .shutdownAndWait,
    .enter sampleTenant [sampleMail], .call 0 .send, .drained false, .run .recv, .run .permit,
    .stop, .joinRunner false, .run (.resume 0 0), .run (.resume 0 0), .run (.resume 0 0),
    .run (.finish 0 (.ok .success) 0), .run (.resume 0 0), .run (.resume 0 0), .joinTasks false]

theorem clean_shutdown_mail :
    ((effectRuntime mailRunner).after (effectRuntime mailRunner).init mailShutDown).phase =
        .returned (.ok ()) ∧
      CleanShutdown ((effectRuntime mailRunner).trace (effectRuntime mailRunner).init mailShutDown)
        ((effectRuntime mailRunner).after (effectRuntime mailRunner).init mailShutDown) :=
  ⟨by decide, clean_shutdown (Machine.exec_trace _ _ _) (by decide) (by decide)⟩

/-- A runner with the one permit `start` gives it. -/
def soleRunner : DeliveryRunner := { mailRunner with concurrency := 1 }

/-- The signal comes while one mail is on its way and a second waits, marked, for the permit. -/
def mailLeft : List RuntimeInput :=
  [.enter sampleTenant [sampleMail], .call 0 (.accept ⟨"a"⟩), .call 0 .send, .run .recv,
    .run .permit, .run (.resume 0 0), .run (.resume 0 0), .run (.resume 0 0),
    .enter sampleTenant [sampleMail], .call 1 (.accept ⟨"b"⟩), .run (.claim .stored),
    .run .reclaim, .call 1 .send, .shutdownAndWait, .drained false, .stop, .joinRunner false,
    .run (.finish 0 (.ok .success) 0), .run (.resume 0 0), .run (.resume 0 0), .joinTasks false]

/-- `shutdown_and_wait` returns `Ok(())`, and the second mail is in flight. -/
theorem shutdown_leaves_in_flight :
    ((effectRuntime soleRunner).after (effectRuntime soleRunner).init mailLeft).phase =
        .returned (.ok ()) ∧
      ¬ CleanShutdown ((effectRuntime soleRunner).trace (effectRuntime soleRunner).init mailLeft)
        ((effectRuntime soleRunner).after (effectRuntime soleRunner).init mailLeft) := by
  refine ⟨by decide, ?_⟩
  intro hclean
  exact hclean.settled ⟨"b"⟩ ⟨_, rfl, rfl⟩

end EgoRs.Effects
