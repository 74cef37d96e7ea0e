import EgoRs.Effects.Delivery

/-! # Retry Budget and Backoff

An effect should be executed at most `max_attempts + 1` times, with attempt
numbers that increase, and not before the `next_at` its last failure
recorded.

That holds **as long as a copy that is marked in flight is of the attempt
its record is at**. `mark_in_flight` does not look at it: a copy that waits
in the queue while the reclaim tick dispatches the stored one is executed
after its failure, at once and under the old number (`retries_overrun`).

A record gets to its next attempt in one way, by a failure below the cap,
and a copy of the attempt its record is at is due (`Pace`). So a call that
was started is behind its record, or it is spent: nobody comes to the point
of starting it once more (`Charged`).
-/

namespace EgoRs.Effects

open Framework

/-! ## The promise -/

/-- The contexts of the executor calls for `id`, in order. -/
def executions (h : History) (id : EffectId) : List EffectContext :=
  h.filterMap fun t =>
    match t.output with
    | some (.started _ _ context) => if context.effectId = id then some context else none
    | _ => none

/-- After the transition, `id` has failed and is to be tried again at `nextAt`. -/
def Records (t : Event) (id : EffectId) (nextAt : Timestamp) : Prop :=
  ∃ record, t.post.store.states.lookup id = some record ∧ record.state = .retryableFailed ∧
    record.nextAt = some nextAt

/-- **Budget and backoff are respected** in a run `h`. -/
structure RetryRespected (runner : DeliveryRunner) (h : History) : Prop where
  budget : ∀ t ∈ h, ∀ i effect, Starts t i effect →
    (executions h effect.id).length ≤ (runner.policyFor effect).maxAttempts + 1
  increasing : ∀ id, ((executions h id).map EffectContext.attempt).Pairwise (· < ·)
  backoff : ∀ (m n : Nat) (t u : Event) (i : Nat) (effect : AcceptedEffect) (nextAt : Timestamp),
    h[m]? = some t → Records t effect.id nextAt → m < n → h[n]? = some u → Starts u i effect →
    nextAt ≤ u.pre.clock

/-! ### When it is kept -/

def uncancelled (t : Event) : Bool :=
  match t.input with
  | .finish _ .cancelled _ => false
  | _ => true

/-- If the record can be marked in flight, the copy is of the attempt it is at. -/
def sameAttempt (store : InMemoryEffectStore) (effect : AcceptedEffect) : Bool :=
  match store.states.lookup effect.id with
  | some record =>
    !decide (record.state = .pending ∨ record.state = .retryableFailed) ||
      decide (record.attempt = effect.attempt)
  | none => true

/-- The clock does not go back, and the copy that is marked in flight is of the
attempt its record is at. -/
def attemptCurrent (t : Event) : Bool :=
  match t.input with
  | .clock now => decide (t.pre.clock ≤ now)
  | .reclaim =>
    match t.pre.loop with
    | .reclaiming (copy :: _) => sameAttempt t.pre.store copy.effect
    | _ => true
  | .resume i _ =>
    match t.pre.tasks[i]? with
    | some ⟨effect, .marking _⟩ => sameAttempt t.pre.store effect
    | _ => true
  | _ => true

variable {s : State} {input : Input} {effect : AcceptedEffect} {record : EffectRecord}

theorem Marks.mem (hm : Marks s input effect) : effect ∈ s.effects := by
  obtain ⟨-, copy, due, hloop, rfl⟩ | ⟨i, draw, tries, -, hat⟩ := hm
  · refine mem_effects.mpr (.inr (.inr (.inl ?_)))
    rw [hloop]
    exact List.mem_cons_self
  · exact mem_effects_of_task hat

/-- What `attemptCurrent` says of a step. -/
structure Current (s : State) (input : Input) (s' : State) : Prop where
  clock : s.clock ≤ s'.clock
  attempt : ∀ effect record, Marks s input effect →
    s.store.states.lookup effect.id = some record →
    (record.state = .pending ∨ record.state = .retryableFailed) → record.attempt = effect.attempt

variable {store : InMemoryEffectStore}

theorem attempt_eq_of_sameAttempt
    (h : sameAttempt store effect = true) (hat : store.states.lookup effect.id = some record)
    (hopen : record.state = .pending ∨ record.state = .retryableFailed) :
    record.attempt = effect.attempt := by
  unfold sameAttempt at h
  rw [hat] at h
  simpa [hopen] using h

variable {runner : DeliveryRunner}

theorem Steps.clock_eq {s' : State} {seen : Option Observation}
    (hs : Steps runner s input s' seen) : s'.clock = s.clock ∨ input = .clock s'.clock := by
  cases hs with
  | quiet clock => exact clock
  | _ => left; assumption

theorem current_of_attemptCurrent (hinv : RunnerInv runner s)
    (h : attemptCurrent ((delivery runner).fire s input) = true) :
    Current s input (s.step runner input).1 := by
  constructor
  · obtain heq | hinput := (steps_step hinv input).clock_eq
    · rw [heq]
    · generalize (s.step runner input).1.clock = now at hinput ⊢
      subst hinput
      exact of_decide_eq_true h
  · intro effect record hmarks hat hopen
    obtain ⟨rfl, copy, due, hloop, rfl⟩ | ⟨i, draw, tries, rfl, htask⟩ := hmarks
    · have hsame : sameAttempt s.store copy.effect = true := by
        simpa [attemptCurrent, hloop] using h
      exact attempt_eq_of_sameAttempt hsame hat hopen
    · have hsame : sameAttempt s.store effect = true := by
        simpa [attemptCurrent, htask] using h
      exact attempt_eq_of_sameAttempt hsame hat hopen

/-! ## The pace of retries -/

/-- `next_at` is over. -/
def EffectRecord.DueBy (record : EffectRecord) (now : Timestamp) : Prop :=
  ∀ nextAt, record.nextAt = some nextAt → nextAt ≤ now

theorem EffectRecord.DueBy.mono {now later : Timestamp} (h : record.DueBy now) (hle : now ≤ later) :
    record.DueBy later :=
  fun nextAt hat => le_trans (h nextAt hat) hle

theorem EffectRecord.dueBy_of_due {now : Timestamp} (h : record.due now = true) :
    record.DueBy now := by
  intro nextAt hat
  simp only [EffectRecord.due, hat, Bool.and_eq_true, decide_eq_true_eq] at h
  exact h.2

/-- The policy is the one for the effect type. -/
theorem policyFor_record (runner : DeliveryRunner) (id : EffectId)
    (h : record.description = effect.description) :
    runner.policyFor (record.effect id) = runner.policyFor effect := by
  show runner.retry.policyFor record.description.effectType = _
  rw [h]
  rfl

/-- What a task is about to record of its effect. -/
def Recording (runner : DeliveryRunner) (s : State) (effect : AcceptedEffect) : Stage → Prop
  | .retrying .failure attempt _ _ =>
    attempt = effect.attempt + 1 ∧ effect.attempt < (runner.policyFor effect).maxAttempts
  | .retrying .requeue attempt nextAt _ => attempt = effect.attempt ∧ nextAt ≤ s.clock
  | _ => True

/-- What a task has to do with the attempts of its effect. -/
structure TaskPace (runner : DeliveryRunner) (s : State) (task : Task) : Prop where
  owns : task.stage.owns = true → ∃ record, s.store.states.lookup task.effect.id = some record ∧
    record.attempt = task.effect.attempt
  recording : Recording runner s task.effect task.stage

/-- **The pace of every run** that never marks an old copy. -/
structure Pace (runner : DeliveryRunner) (s : State) : Prop where
  bounded : ∀ id record, s.store.states.lookup id = some record →
    record.attempt ≤ (runner.policyFor (record.effect id)).maxAttempts
  fresh : ∀ id record, s.store.states.lookup id = some record → record.attempt = 0 →
    record.DueBy s.clock
  copies : ∀ effect ∈ s.effects, ∀ record, s.store.states.lookup effect.id = some record →
    effect.attempt < record.attempt ∨ effect.attempt = record.attempt ∧ record.DueBy s.clock
  tasks : ∀ (i : Nat) (task : Task), s.tasks[i]? = some task → TaskPace runner s task

section
variable {runner : DeliveryRunner} {s s' : State} {input : Input} {seen : Option Observation}
  {id : EffectId} {record record' : EffectRecord} {effect : AcceptedEffect} {stage : Stage}
  {task : Task}

theorem TaskPace.of_not_busy (h : task.stage.busy = false) : TaskPace runner s task := by
  obtain ⟨effect, stage⟩ := task
  refine ⟨?_, ?_⟩
  · intro howns
    rw [Stage.busy_of_owns howns] at h
    cases h
  · cases stage with
    | retrying => cases h
    | _ => trivial

/-- The record of a task's effect is at the task's attempt. -/
theorem TaskPace.attempt_eq (hp : TaskPace runner s task)
    (howns : task.stage.owns = true) (hat : s.store.states.lookup task.effect.id = some record) :
    record.attempt = task.effect.attempt := by
  obtain ⟨r, hr, hattempt⟩ := hp.owns howns
  obtain rfl : record = r := Option.mem_unique hat hr
  exact hattempt

theorem Leaves.lookup (h : Leaves s s' task) :
    s'.store.states.lookup task.effect.id = s.store.states.lookup task.effect.id := by
  obtain hstore | ⟨id, htouch, hne⟩ := h
  · rw [hstore]
  · exact htouch.states _ hne

/-- The record of the task's effect stays, and time goes on. -/
theorem TaskPace.frame (hp : TaskPace runner s task)
    (hlookup : s'.store.states.lookup task.effect.id = s.store.states.lookup task.effect.id)
    (hclock : s.clock ≤ s'.clock) : TaskPace runner s' task := by
  refine ⟨?_, ?_⟩
  · intro howns
    rw [hlookup]
    exact hp.owns howns
  · have hrecording := hp.recording
    generalize task.stage = stage at hrecording ⊢
    cases stage with
    | retrying purpose =>
      cases purpose with
      | requeue => exact ⟨hrecording.1, le_trans hrecording.2 hclock⟩
      | _ => exact hrecording
    | _ => trivial

theorem TaskPace.of_marked (hcur : Current s input s') (hmarks : Marks s input effect)
    (hat : s.store.states.lookup effect.id = some record)
    (hopen : record.state = .pending ∨ record.state = .retryableFailed)
    (hstore : s'.store = s.store.put effect.id { record with state := .inFlight })
    (hrecording : Recording runner s' effect stage) : TaskPace runner s' ⟨effect, stage⟩ := by
  refine ⟨fun _ => ⟨{ record with state := .inFlight }, ?_, ?_⟩, hrecording⟩
  · rw [hstore]
    exact InMemoryEffectStore.lookup_put_self s.store effect.id _
  · exact hcur.attempt effect record hmarks hat hopen

theorem Moves.pace {i draw : Nat} {o : InMemoryEffectStore × Stage × Option Observation}
    (hm : Moves runner s.store s.clock i effect stage o) (hp : TaskPace runner s ⟨effect, stage⟩)
    (hat : s.tasks[i]? = some ⟨effect, stage⟩) (hcur : Current s (.resume i draw) s')
    (hstore : s'.store = o.1) : TaskPace runner s' ⟨effect, o.2.1⟩ := by
  -- the steps that leave the records
  have howns : stage.owns = true → o.1.states = s.store.states →
      ∃ record, s'.store.states.lookup effect.id = some record ∧
        record.attempt = effect.attempt := by
    intro h hstates
    rw [hstore, hstates]
    exact hp.owns h
  cases hm with
  | waits =>
    refine hp.frame ?_ hcur.clock
    rw [hstore]
  | marks tries _ at' isOpen =>
    exact .of_marked hcur (.inr ⟨i, draw, tries, rfl, hat⟩) at' isOpen hstore trivial
  | refused | records | satisfies | retries | releases => exact .of_not_busy rfl
  | postponed =>
    exact ⟨fun _ => howns rfl rfl, rfl, hcur.clock⟩
  | abandons _ release =>
    cases release with
    | false => exact .of_not_busy rfl
    | true => exact ⟨(fun h => by cases h), trivial⟩
  | _ => exact ⟨fun _ => howns rfl rfl, trivial⟩

theorem Finishes.pace {result : JoinResult} (hf : Finishes runner effect s.clock result stage)
    (hp : TaskPace runner s ⟨effect, .executing⟩) : TaskPace runner s ⟨effect, stage⟩ := by
  have howns := hp.owns rfl
  cases hf with
  | delivered | givesUp => exact ⟨fun _ => howns, trivial⟩
  | retries _ _ _ allowed => exact ⟨fun _ => howns, rfl, allowed⟩
  | requeued => exact ⟨fun _ => howns, rfl, le_refl _⟩

theorem TaskPace.abort (hp : TaskPace runner s ⟨effect, stage⟩) :
    TaskPace runner s ⟨effect, stage.aborted⟩ := by
  cases stage with
  | admitting | detached => exact hp
  | executing => exact ⟨fun _ => hp.owns rfl, trivial⟩
  | _ => exact .of_not_busy rfl

theorem Steps.taskPace (hs : Steps runner s input s' seen) (hinv : RunnerInv runner s)
    (hp : Pace runner s) (hcur : Current s input s') :
    ∀ (i : Nat) (task : Task), s'.tasks[i]? = some task → TaskPace runner s' task := by
  refine hs.each_task (P := TaskPace runner s) hinv ?_ ?_ ?_ ?_ ?_ ?_ ?_ hp.tasks
  · intro task hidle
    exact .of_not_busy hidle
  · intro task _ hleaves hpace
    exact hpace.frame hleaves.lookup hcur.clock
  · intro copy due record hinput hloop hat hopen hstore
    have hmarks : Marks s input copy.effect := .inl ⟨hinput, copy, due, hloop, rfl⟩
    exact .of_marked hcur hmarks hat hopen hstore trivial
  · intro effect hstore hpace
    refine ⟨fun _ => ?_, trivial⟩
    rw [hstore]
    exact hpace.owns rfl
  · rintro i draw effect stage o rfl hat hm hstore hpace
    exact hm.pace hpace hat hcur hstore
  · intro i draw result effect stage _ hf hstore hpace
    refine (hf.pace hpace).frame ?_ hcur.clock
    rw [hstore]
  · intro effect stage hstore hpace
    refine hpace.abort.frame ?_ hcur.clock
    rw [hstore]

/-- **A record stays at its attempt**, no later due than now, or gets to the next
one below the cap. -/
theorem Changes.advances (hc : Changes s input s' id record record') (hinv : RunnerInv runner s)
    (hp : Pace runner s) (hat : s.store.states.lookup id = some record) :
    record'.description = record.description ∧
      (record'.attempt = record.attempt ∧ (record.DueBy s.clock → record'.DueBy s.clock) ∨
        record'.attempt = record.attempt + 1 ∧
          record.attempt < (runner.policyFor (record.effect id)).maxAttempts) := by
  cases hc with
  | retried i effect purpose attempt nextAt tries own at' =>
    subst own
    refine ⟨rfl, ?_⟩
    have hpace := hp.tasks i _ at'
    -- the task's copy is of the attempt the record is at
    have hattempt : record.attempt = effect.attempt := hpace.attempt_eq rfl hat
    cases purpose with
    | unconfirmed => exact (hinv.tasks i _ at').needs.elim
    | failure =>
      right
      obtain ⟨hnext, hcap⟩ := hpace.recording
      obtain ⟨r, hr, -, hdescription⟩ := hinv.known effect (mem_effects_of_task at')
      obtain rfl : record = r := Option.mem_unique hat hr
      refine ⟨?_, ?_⟩
      · show attempt = record.attempt + 1
        rw [hattempt]
        exact hnext
      · rw [policyFor_record runner effect.id hdescription, hattempt]
        exact hcap
    | requeue =>
      left
      obtain ⟨hsame, hle⟩ := hpace.recording
      refine ⟨hsame.trans hattempt.symm, ?_⟩
      intro _ nextAt' hnext
      obtain rfl : nextAt = nextAt' := Option.some.inj hnext
      exact hle
  | _ => exact ⟨rfl, .inl ⟨rfl, fun h => h⟩⟩

theorem Steps.pace (hs : Steps runner s input s' seen) (hinv : RunnerInv runner s)
    (hp : Pace runner s) (hcur : Current s input s') : Pace runner s' := by
  have hfresh : ∀ id record, s'.store.states.lookup id = some record → record.attempt = 0 →
      record.DueBy s'.clock := by
    intro id record' hpost hzero
    obtain ⟨-, -, -, hnone⟩ | ⟨record, hat, hc⟩ := hs.changes hpost
    · intro nextAt hnext
      rw [hnone] at hnext
      cases hnext
    · obtain ⟨-, ⟨hsame, hdue⟩ | ⟨hnext, -⟩⟩ := hc.advances hinv hp hat
      · exact (hdue (hp.fresh id record hat (hsame.symm.trans hzero))).mono hcur.clock
      · omega
  refine ⟨?_, hfresh, ?_, hs.taskPace hinv hp hcur⟩
  · intro id record' hpost
    obtain ⟨-, -, hzero, -⟩ | ⟨record, hat, hc⟩ := hs.changes hpost
    · omega
    · obtain ⟨hdescription, hattempt⟩ := hc.advances hinv hp hat
      have hle := hp.bounded id record hat
      rw [policyFor_record runner id (show record'.description = (record.effect id).description from
        hdescription)]
      obtain ⟨hsame, -⟩ | ⟨hnext, hcap⟩ := hattempt <;> omega
  · intro effect he record' hpost
    obtain hold | hnew := hs.copied he
    · obtain ⟨record, hat, -⟩ := hinv.known effect hold
      obtain ⟨r, hr, hc⟩ := hs.changed hinv hat
      obtain rfl : r = record' := Option.mem_unique hr hpost
      have hcopy := hp.copies effect hold record hat
      obtain ⟨-, ⟨hsame, hdue⟩ | ⟨hnext, -⟩⟩ := hc.advances hinv hp hat
      · obtain hlt | ⟨heq, hdueNow⟩ := hcopy
        · left
          omega
        · exact .inr ⟨by omega, (hdue hdueNow).mono hcur.clock⟩
      · -- the copy is of an old attempt now
        left
        omega
    · obtain hzero | ⟨r, hr, hattempt, hdue⟩ := hnew.attempt
      · by_cases hfirst : record'.attempt = 0
        · exact .inr ⟨by omega, hfresh effect.id record' hpost hfirst⟩
        · left
          omega
      · obtain rfl : r = record' := Option.mem_unique hr hpost
        exact .inr ⟨hattempt, (EffectRecord.dueBy_of_due hdue).mono hcur.clock⟩

theorem pace_run {h : History} (he : (delivery runner).Run h s)
    (hcurrent : Along (fun _ t => attemptCurrent t = true) h) : Pace runner s := by
  refine he.invariant_along (P := fun _ s => Pace runner s) ?_ ?_ hcurrent
  · refine ⟨?_, ?_, ?_, ?_⟩
    · intro id record hat
      cases hat
    · intro id record hat
      cases hat
    · intro effect heffect
      cases heffect
    · intro i task hat
      cases hat
  · intro h s input hex hp hcur
    have hinv := runnerInv_run hex
    exact (steps_step hinv input).pace hinv hp (current_of_attemptCurrent hinv hcur)

end

/-! ## Spent attempts -/

/-- The call of the attempt was started, and the task does not requeue it. -/
def Stage.late : Stage → Bool
  | .retrying purpose _ _ _ => decide (purpose = .failure)
  | stage => !stage.early

/-- Nobody comes to the point of starting the attempt the record is at. -/
def Spent (s : State) (id : EffectId) (record : EffectRecord) : Prop :=
  record.state = .succeeded ∨ record.state = .terminalFailed ∨
    record.state = .inFlight ∧ ∀ (j : Nat) (task : Task), s.tasks[j]? = some task →
      task.effect.id = id → task.stage.busy = true → task.stage.late = true

/-- The attempt of a call is behind the record, or spent. -/
def Charged (s : State) (effect : AcceptedEffect) : Prop :=
  ∃ record, s.store.states.lookup effect.id = some record ∧
    (effect.attempt < record.attempt ∨
      effect.attempt = record.attempt ∧ Spent s effect.id record)

section
variable {runner : DeliveryRunner} {s s' : State} {input : Input} {seen : Option Observation}
  {id : EffectId} {record record' : EffectRecord} {effect effect' : AcceptedEffect} {stage : Stage}

theorem Moves.late {now : Timestamp} {i : Nat}
    {o : InMemoryEffectStore × Stage × Option Observation}
    (hm : Moves runner store now i effect stage o) (hbusy : stage.busy = true)
    (hlate : stage.late = true) : o.2.1.late = true := by
  cases hm with
  | waits => exact hlate
  | commits | records | satisfies | retries | releases => rfl
  | abandons _ release => cases release <;> rfl
  | marks | refused => cases hbusy
  | _ => cases hlate

/-- The tasks with an effect that is in flight: none of them gets to another call
for it. -/
theorem Steps.late (hs : Steps runner s input s' seen) (hinv : RunnerInv runner s)
    (hat : s.store.states.lookup id = some record) (hstate : record.state = .inFlight)
    (huncancelled : ∀ i draw, input ≠ .finish i .cancelled draw)
    (hlate : ∀ (j : Nat) (task : Task), s.tasks[j]? = some task → task.effect.id = id →
      task.stage.busy = true → task.stage.late = true) :
    ∀ (j : Nat) (task : Task), s'.tasks[j]? = some task → task.effect.id = id →
      task.stage.busy = true → task.stage.late = true := by
  -- nobody can mark it
  have hclosed : ∀ r, s.store.states.lookup id = some r →
      ¬ (r.state = .pending ∨ r.state = .retryableFailed) := by
    intro r hr hopen
    obtain rfl : record = r := Option.mem_unique hat hr
    rw [hstate] at hopen
    simp at hopen
  refine hs.each_task (P := fun task => task.effect.id = id → task.stage.busy = true →
    task.stage.late = true) hinv ?_ ?_ ?_ ?_ ?_ ?_ ?_ hlate
  · intro task hidle _ hbusy
    rw [hidle] at hbusy
    cases hbusy
  · intro task _ _ hp
    exact hp
  · rintro copy due r - - hr hopen - rfl -
    exact absurd hopen (hclosed r hr)
  · intro effect _ hp hid _
    cases hp hid rfl
  · rintro i draw effect stage o - - hm - hp rfl hbusy
    by_cases hwas : stage.busy = true
    · exact hm.late hwas (hp rfl hwas)
    · obtain hb | ⟨r, hr, hopen⟩ := hm.busy hbusy
      · exact absurd hb hwas
      · exact absurd hopen (hclosed r hr)
  · intro i draw result effect stage hinput hf _ _ _ _
    cases hf with
    | requeued => exact absurd hinput (huncancelled i draw)
    | _ => rfl
  · intro effect stage _ hp hid hbusy
    cases stage with
    | admitting => exact hp hid hbusy
    | executing | detached => rfl
    | _ => cases hbusy

/-- **A charged attempt stays charged.** -/
theorem Charged.step (hc : Charged s effect) (hs : Steps runner s input s' seen)
    (hinv : RunnerInv runner s) (hp : Pace runner s)
    (huncancelled : ∀ i draw, input ≠ .finish i .cancelled draw) : Charged s' effect := by
  obtain ⟨record, hat, hcharged⟩ := hc
  obtain ⟨record', hpost, hchanges⟩ := hs.changed hinv hat
  refine ⟨record', hpost, ?_⟩
  have hadvances := (hchanges.advances hinv hp hat).2
  obtain hlt | ⟨heq, hspent⟩ := hcharged
  · left
    omega
  cases hchanges with
  | kept =>
    refine .inr ⟨heq, ?_⟩
    obtain h | h | ⟨hstate, hlate⟩ := hspent
    · exact .inl h
    · exact .inr (.inl h)
    · exact .inr (.inr ⟨hstate, hs.late hinv hat hstate huncancelled hlate⟩)
  | marked _ _ _ _ _ isOpen =>
    -- what is spent cannot be marked again
    obtain h | h | ⟨h, -⟩ := hspent <;> simp [h] at isOpen
  | succeeded => exact .inr ⟨heq, .inl rfl⟩
  | abandoned => exact .inr ⟨heq, .inr (.inl rfl)⟩
  | retried i e purpose attempt nextAt tries own at' inFlight =>
    obtain h | h | ⟨-, hlate⟩ := hspent
    · rw [inFlight] at h
      cases h
    · rw [inFlight] at h
      cases h
    · -- the task is past its call, so its failure is charged
      have hpurpose : purpose = .failure := by simpa [Stage.late] using hlate i _ at' own rfl
      subst hpurpose
      have hpace := hp.tasks i _ at'
      have hnext : attempt = e.attempt + 1 := hpace.recording.1
      rw [← own] at hat
      have hattempt : record.attempt = e.attempt := hpace.attempt_eq rfl hat
      left
      show effect.attempt < attempt
      omega

/-- A call that starts is charged. -/
theorem Steps.charged (hs : Steps runner s input s' seen) (hinv : RunnerInv runner s)
    (hp : Pace runner s) {i : Nat} {context : EffectContext}
    (hseen : seen = some (.started i effect context)) : Charged s' effect := by
  obtain ⟨hat, hat', hstore, -⟩ := hs.started hseen
  obtain ⟨record, hrecord, hstate⟩ := (hinv.tasks i _ hat).owns rfl
  have hattempt := (hp.tasks i _ hat).attempt_eq rfl hrecord
  refine ⟨record, ?_, .inr ⟨hattempt.symm, .inr (.inr ⟨hstate, ?_⟩)⟩⟩
  · rw [hstore]
    exact hrecord
  · intro j task hj hid hbusy
    obtain rfl : j = i := (hs.runnerInv hinv).alone j i task _ hj hat' hbusy rfl hid
    obtain rfl : task = ⟨effect, .executing⟩ := Option.mem_unique hj hat'
    rfl

/-- **Whoever starts a call** has a later attempt than all that were charged. -/
theorem Charged.lt_of_launching (hc : Charged s effect) (hinv : RunnerInv runner s)
    (hp : Pace runner s) {i : Nat} (hat : s.tasks[i]? = some ⟨effect', .launching⟩)
    (hid : effect'.id = effect.id) : effect.attempt < effect'.attempt := by
  obtain ⟨record, hrecord, hcharged⟩ := hc
  rw [← hid] at hrecord
  have hattempt : record.attempt = effect'.attempt := (hp.tasks i _ hat).attempt_eq rfl hrecord
  obtain ⟨r, hr, hstate⟩ := (hinv.tasks i _ hat).owns rfl
  obtain rfl : record = r := Option.mem_unique hrecord hr
  obtain hlt | ⟨-, h | h | ⟨-, hlate⟩⟩ := hcharged
  · omega
  · rw [hstate] at h
    cases h
  · rw [hstate] at h
    cases h
  · -- the task is busy with it, and before its call
    cases hlate i _ hat hid rfl

end

/-! ## Every run -/

/-- What a run leaves of its calls and of the failures it recorded. -/
structure Spending (runner : DeliveryRunner) (h : History) (s : State) : Prop where
  charged : ∀ t ∈ h, ∀ i effect context, t.output = some (.started i effect context) →
    context = effect.context ∧ Charged s effect
  increasing : ∀ id, ((executions h id).map EffectContext.attempt).Pairwise (· < ·)
  recorded : ∀ t ∈ h, ∀ id nextAt, Records t id nextAt →
    ∃ record, s.store.states.lookup id = some record ∧
      (nextAt ≤ s.clock ∨ record.state = .retryableFailed ∧ record.nextAt = some nextAt)

section
variable {runner : DeliveryRunner} {h : History} {s s' : State} {input : Input}
  {seen : Option Observation} {id : EffectId}

theorem executions_append (h h' : History) (id : EffectId) :
    executions (h ++ h') id = executions h id ++ executions h' id :=
  List.filterMap_append

theorem mem_executions {context : EffectContext} :
    context ∈ executions h id ↔ context.effectId = id ∧
      ∃ t ∈ h, ∃ i effect, t.output = some (.started i effect context) := by
  unfold executions
  rw [List.mem_filterMap]
  constructor
  · rintro ⟨t, ht, hmatch⟩
    split at hmatch
    · rename_i i effect context' hout
      split at hmatch
      · rename_i hid
        obtain rfl := Option.some.inj hmatch
        exact ⟨hid, t, ht, i, effect, hout⟩
      · cases hmatch
    · cases hmatch
  · rintro ⟨hid, t, ht, i, effect, hout⟩
    refine ⟨t, ht, ?_⟩
    simp [hout, hid]

/-- What one transition adds to the calls of `id`. -/
theorem executions_singleton (t : Event) (id : EffectId) :
    executions [t] id = [] ∨ ∃ i effect context,
      t.output = some (.started i effect context) ∧ context.effectId = id ∧
        executions [t] id = [context] := by
  unfold executions
  rw [List.filterMap_cons]
  split
  · left
    rfl
  · rename_i context hmatch
    right
    split at hmatch
    · rename_i i effect context' hout
      split at hmatch
      · rename_i hid
        obtain rfl := Option.some.inj hmatch
        exact ⟨i, effect, _, hout, hid, rfl⟩
      · cases hmatch
    · cases hmatch

theorem Spending.increasing_step (hsp : Spending runner h s) (hs : Steps runner s input s' seen)
    (hinv : RunnerInv runner s) (hp : Pace runner s) (id : EffectId) :
    ((executions (h ++ [⟨s, input, seen, s'⟩]) id).map EffectContext.attempt).Pairwise (· < ·) := by
  rw [executions_append]
  obtain hnone | ⟨i, effect, context, hout, hid, hone⟩ :=
    executions_singleton ⟨s, input, seen, s'⟩ id
  · rw [hnone, List.append_nil]
    exact hsp.increasing id
  · rw [hone, List.map_append, List.pairwise_append]
    refine ⟨hsp.increasing id, List.pairwise_singleton _ _, ?_⟩
    intro a ha b hb
    obtain rfl : b = context.attempt := by simpa using hb
    obtain ⟨earlier, hmem, rfl⟩ := List.mem_map.mp ha
    obtain ⟨hid', t, ht, j, effect', hout'⟩ := mem_executions.mp hmem
    obtain ⟨hat, -, -, hcontext⟩ := hs.started hout
    obtain ⟨hcontext', hcharged⟩ := hsp.charged t ht j effect' earlier hout'
    rw [hcontext] at hid
    rw [hcontext'] at hid'
    have hsame : effect.id = effect'.id := hid.trans hid'.symm
    have hlt := hcharged.lt_of_launching hinv hp hat hsame
    rw [hcontext, hcontext']
    show effect'.attempt + 1 < effect.attempt + 1
    omega

variable {nextAt : Timestamp}

/-- A failure that was recorded, after one more step. -/
theorem Steps.recorded (hs : Steps runner s input s' seen) (hinv : RunnerInv runner s)
    (hp : Pace runner s) (hcur : Current s input s') {record : EffectRecord}
    (hat : s.store.states.lookup id = some record)
    (hnext : nextAt ≤ s.clock ∨ record.state = .retryableFailed ∧ record.nextAt = some nextAt) :
    ∃ record', s'.store.states.lookup id = some record' ∧
      (nextAt ≤ s'.clock ∨ record'.state = .retryableFailed ∧ record'.nextAt = some nextAt) := by
  obtain ⟨record', hpost, hc⟩ := hs.changed hinv hat
  refine ⟨record', hpost, ?_⟩
  obtain hle | ⟨hstate, hrecorded⟩ := hnext
  · exact .inl (le_trans hle hcur.clock)
  · have hclosed : record.state ≠ .inFlight := by
      rw [hstate]
      simp
    cases hc with
    | kept => exact .inr ⟨hstate, hrecorded⟩
    | marked _ effect _ own marks isOpen =>
      -- the copy is of the attempt the record is at, so the record is due
      left
      subst own
      have hattempt := hcur.attempt effect record marks hat isOpen
      obtain hlt | ⟨-, hdue⟩ := hp.copies effect marks.mem record hat
      · omega
      · exact le_trans (hdue nextAt hrecorded) hcur.clock
    | succeeded _ _ _ _ _ inFlight | retried _ _ _ _ _ _ _ _ inFlight
    | abandoned _ _ _ _ _ _ _ inFlight => exact absurd inFlight hclosed

theorem Spending.step (hsp : Spending runner h s) (hs : Steps runner s input s' seen)
    (hinv : RunnerInv runner s) (hp : Pace runner s) (hcur : Current s input s')
    (huncancelled : ∀ i draw, input ≠ .finish i .cancelled draw) :
    Spending runner (h ++ [⟨s, input, seen, s'⟩]) s' := by
  refine ⟨?_, hsp.increasing_step hs hinv hp, ?_⟩
  · intro t ht i effect context hout
    obtain hold | rfl := mem_snoc ht
    · obtain ⟨hcontext, hcharged⟩ := hsp.charged t hold i effect context hout
      exact ⟨hcontext, hcharged.step hs hinv hp huncancelled⟩
    · exact ⟨(hs.started hout).2.2.2, hs.charged hinv hp hout⟩
  · intro t ht id nextAt hrec
    obtain hold | rfl := mem_snoc ht
    · obtain ⟨record, hat, hnext⟩ := hsp.recorded t hold id nextAt hrec
      exact hs.recorded hinv hp hcur hat hnext
    · obtain ⟨record, hat, hstate, hnext⟩ := hrec
      exact ⟨record, hat, .inr ⟨hstate, hnext⟩⟩

theorem spending_run (he : (delivery runner).Run h s) (huncancelled : ∀ t ∈ h, uncancelled t = true)
    (hcurrent : ∀ t ∈ h, attemptCurrent t = true) : Spending runner h s := by
  have hall : Along (fun _ t => uncancelled t = true ∧ attemptCurrent t = true) h :=
    .of_forall fun t ht => ⟨huncancelled t ht, hcurrent t ht⟩
  have hboth : Pace runner s ∧ Spending runner h s := by
    refine he.invariant_along (P := fun h s => Pace runner s ∧ Spending runner h s) ?_ ?_ hall
    · refine ⟨pace_run (.nil _) .nil, ?_, ?_, ?_⟩
      · intro t ht
        cases ht
      · intro id
        exact List.Pairwise.nil
      · intro t ht
        cases ht
    · rintro h s input hex ⟨hp, hsp⟩ ⟨hun, hcur⟩
      have hinv := runnerInv_run hex
      have hs := steps_step hinv input
      have hcur' := current_of_attemptCurrent hinv hcur
      refine ⟨hs.pace hinv hp hcur', hsp.step hs hinv hp hcur' ?_⟩
      rintro i draw rfl
      cases hun
  exact hboth.2

/-- Increasing numbers from `1` to `n` are at most `n`. -/
theorem length_le_of_increasing {l : List Nat} {n : Nat} (hinc : l.Pairwise (· < ·))
    (hrange : ∀ a ∈ l, 1 ≤ a ∧ a ≤ n) : l.length ≤ n := by
  have hnodup : l.Nodup := hinc.imp fun h => Nat.ne_of_lt h
  have hsubset : l ⊆ List.range' 1 n := by
    intro a ha
    obtain ⟨hpos, hle⟩ := hrange a ha
    rw [List.mem_range'_1]
    omega
  have hle := (List.subperm_of_subset hnodup hsubset).length_le
  rwa [List.length_range'] at hle

variable {effect : AcceptedEffect}

theorem Spending.budget (hsp : Spending runner h s) (hp : Pace runner s)
    (hknown : Known s.store effect) :
    (executions h effect.id).length ≤ (runner.policyFor effect).maxAttempts + 1 := by
  obtain ⟨record, hat, -, hdescription⟩ := hknown
  have hbounded := hp.bounded effect.id record hat
  rw [policyFor_record runner effect.id hdescription] at hbounded
  rw [← List.length_map EffectContext.attempt]
  refine length_le_of_increasing (hsp.increasing effect.id) ?_
  intro a ha
  obtain ⟨context, hmem, rfl⟩ := List.mem_map.mp ha
  obtain ⟨hid, t, ht, i, effect', hout⟩ := mem_executions.mp hmem
  obtain ⟨hcontext, record', hat', hcharged⟩ := hsp.charged t ht i effect' context hout
  -- no attempt is ahead of the record
  rw [hcontext] at hid
  have hsame : effect'.id = effect.id := hid
  rw [hsame] at hat'
  obtain rfl : record = record' := Option.mem_unique hat hat'
  have hle : effect'.attempt ≤ record.attempt := by
    obtain hlt | ⟨heq, -⟩ := hcharged <;> omega
  rw [hcontext]
  show 1 ≤ effect'.attempt + 1 ∧ effect'.attempt + 1 ≤ _
  omega

/-- Whoever starts a call does so when every `next_at` recorded before is over. -/
theorem Spending.backoff (hsp : Spending runner h s) (hinv : RunnerInv runner s)
    (hs : Steps runner s input s' seen) {i : Nat}
    (hstart : seen = some (.started i effect effect.context)) {t : Event} (ht : t ∈ h)
    (hrec : Records t effect.id nextAt) : nextAt ≤ s.clock := by
  obtain ⟨hat, -⟩ := hs.started hstart
  obtain ⟨r, hr, hstate⟩ := (hinv.tasks i _ hat).owns rfl
  obtain ⟨record, hrecord, hle | ⟨hfailed, -⟩⟩ := hsp.recorded t ht effect.id nextAt hrec
  · exact hle
  · obtain rfl : record = r := Option.mem_unique hrecord hr
    rw [hstate] at hfailed
    cases hfailed

end

/-- **Retry budget and backoff are respected** in every run without a cancelled
call in which a copy that is marked in flight is of the attempt its record is
at. -/
theorem retry_respected {runner : DeliveryRunner} {h : History} {s : State}
    (he : (delivery runner).Exec (delivery runner).init h s)
    (huncancelled : ∀ t ∈ h, uncancelled t = true)
    (hcurrent : ∀ t ∈ h, attemptCurrent t = true) : RetryRespected runner h where
  budget := by
    intro t ht i effect hstart
    obtain ⟨stage, hat, -⟩ := (calls_run he).launched t ht i effect hstart
    have hknown := (runnerInv_run he).known effect (mem_effects_of_task hat)
    exact (spending_run he huncancelled hcurrent).budget (pace_run he (.of_forall hcurrent)) hknown
  increasing := (spending_run he huncancelled hcurrent).increasing
  backoff := by
    intro m n t u i effect nextAt hm hrec hlt hn hstart
    -- the run up to the start
    have hmem : t ∈ h.take n := by
      apply List.mem_of_getElem? (i := m)
      rw [List.getElem?_take_of_lt hlt]
      exact hm
    obtain ⟨hbefore, hfire, -⟩ := he.split_position hn
    have hsp := spending_run hbefore (fun v hv => huncancelled v (List.mem_of_mem_take hv))
      (fun v hv => hcurrent v (List.mem_of_mem_take hv))
    have hout : (u.pre.step runner u.input).2 = some (.started i effect effect.context) := by
      rw [← hstart, hfire]
      rfl
    have hinv := runnerInv_run hbefore
    exact hsp.backoff hinv (steps_step hinv u.input) hout hmem hrec

/-- A runner that sends mail one at a time and tries again once, after ten
nanoseconds at the most. -/
def patientRunner : DeliveryRunner where
  registry := ["mail"]
  retry := ⟨⟨1, 10, 10⟩, ∅⟩
  concurrency := 1
  sha256 := id

/-- A mail fails and is sent again when its `next_at` has come. -/
def mailRetried : List Input :=
  [.accept ⟨"a"⟩ sampleTenant sampleMail, .send 0, .recv, .permit, .resume 0 0, .resume 0 0,
    .resume 0 0, .finish 0 (.ok (.retryableFailure "busy")) 5, .resume 0 0, .clock 5,
    .claim .stored, .reclaim, .permit, .resume 1 0, .resume 1 0, .finish 1 (.ok .success) 0,
    .resume 1 0, .resume 1 0]

theorem retry_respected_mail :
    ((executions ((delivery patientRunner).trace (delivery patientRunner).init mailRetried)
        ⟨"a"⟩).map EffectContext.attempt) = [1, 2] ∧
      RetryRespected patientRunner
        ((delivery patientRunner).trace (delivery patientRunner).init mailRetried) :=
  ⟨by decide, retry_respected (Machine.exec_trace _ _ _) (by decide) (by decide)⟩

/-- The reclaim tick dispatches the stored mail while its copy is in the queue.
After the failure the loop gets to the copy. -/
def mailOverrun : List Input :=
  [.accept ⟨"a"⟩ sampleTenant sampleMail, .send 0, .claim .stored, .reclaim, .permit, .resume 0 0,
    .resume 0 0, .finish 0 (.ok (.retryableFailure "busy")) 5, .resume 0 0,
    .recv, .permit, .resume 1 0, .resume 1 0, .resume 1 0,
    .finish 1 (.ok (.retryableFailure "busy")) 5, .resume 1 0, .clock 5,
    .claim .stored, .reclaim, .permit, .resume 2 0, .resume 2 0,
    .finish 2 (.ok (.retryableFailure "busy")) 5, .resume 2 0, .resume 2 0]

/-- The mail is sent three times where two are allowed, twice as its first
attempt, the second time before `next_at`. -/
theorem retries_overrun :
    (patientRunner.retry.policyFor "mail").maxAttempts = 1 ∧
      (∀ t ∈ (delivery patientRunner).trace (delivery patientRunner).init mailOverrun,
        uncancelled t = true) ∧
      ((executions ((delivery patientRunner).trace (delivery patientRunner).init mailOverrun)
        ⟨"a"⟩).map EffectContext.attempt) = [1, 1, 2] ∧
      ¬ RetryRespected patientRunner
        ((delivery patientRunner).trace (delivery patientRunner).init mailOverrun) := by
  have hattempts : ((executions
      ((delivery patientRunner).trace (delivery patientRunner).init mailOverrun)
      ⟨"a"⟩).map EffectContext.attempt) = [1, 1, 2] := by decide
  refine ⟨rfl, by decide, hattempts, ?_⟩
  intro hrespected
  have hincreasing := hrespected.increasing ⟨"a"⟩
  rw [hattempts] at hincreasing
  simp at hincreasing

end EgoRs.Effects
