import EgoRs.Effects.Runner

/-! # One Step of the Delivery Runner

A task that has marked its effect in flight has the effect to itself until
it marks it again: nobody else can, since only `Pending` and
`RetryableFailed` effects are marked in flight. So none of the store calls
of such a task is refused, and `Moves` lists what is left of
`DeliveryRunner.resume`.
-/

namespace EgoRs.Effects

/-! ## Stages -/

/-- The task has its effect to itself. -/
def Stage.busy : Stage → Bool
  | .admitting claimed => claimed
  | .marking _ => false
  | .done => false
  | _ => true

/-- The effect is in flight. -/
def Stage.owns : Stage → Bool
  | .releasing => false
  | stage => stage.busy

/-- The task holds the reservation of its scope, and has not delivered. -/
def Stage.holds : Stage → Bool
  | .launching => true
  | .executing => true
  | .detached => true
  | .retrying .failure _ _ _ => true
  | .abandoning _ release => release
  | .releasing => true
  | _ => false

variable {stage : Stage}

theorem Stage.busy_of_owns (h : stage.owns = true) : stage.busy = true := by
  cases stage <;> first | exact h | cases h

theorem Stage.busy_of_holds (h : stage.holds = true) : stage.busy = true := by
  cases stage <;> first | rfl | cases h

theorem Stage.owns_of_busy (h : stage.busy = true) (hr : stage ≠ .releasing) :
    stage.owns = true := by
  cases stage <;> first | exact h | exact absurd rfl hr

/-! ## What tasks rely on -/

section
variable (runner : DeliveryRunner) (store : InMemoryEffectStore)

/-- The record of `id` is in `state`. -/
def InState (id : EffectId) (state : EffectState) : Prop :=
  ∃ record, store.states.lookup id = some record ∧ record.state = state

/-- The effect is in the store. -/
def Known (effect : AcceptedEffect) : Prop :=
  ∃ record, store.states.lookup effect.id = some record ∧ record.tenant = effect.tenant ∧
    record.description = effect.description

/-- The effect has the reservation of its scope. -/
def Holding (effect : AcceptedEffect) (succeeded : Bool) : Prop :=
  store.dedup.lookup effect.scope =
    some ⟨effect.id, effect.fingerprint runner.sha256, succeeded⟩

/-- What a stage needs in particular. -/
def Needs (effect : AcceptedEffect) : Stage → Prop
  | .releasing => InState store effect.id .terminalFailed
  | .committing _ => ∃ succeeded, Holding runner store effect succeeded
  | .recording _ => Holding runner store effect true
  -- `finish_success` never runs out of rounds
  | .retrying .unconfirmed _ _ _ => False
  | _ => True

/-- **What a task relies on** at its stage. -/
structure TaskInv (task : Task) : Prop where
  owns : task.stage.owns = true → InState store task.effect.id .inFlight
  holds : task.stage.holds = true → Holding runner store task.effect false
  needs : Needs runner store task.effect task.stage

end

section
variable {runner : DeliveryRunner} {store store' : InMemoryEffectStore} {id : EffectId}
  {record : EffectRecord}

theorem InState.unique {a b : EffectState} (ha : InState store id a) (hb : InState store id b) :
    a = b := by
  obtain ⟨record, hat, rfl⟩ := ha
  obtain ⟨record', hat', rfl⟩ := hb
  rw [hat] at hat'
  rw [Option.some.inj hat']

/-- A task that is not busy relies on nothing. -/
theorem TaskInv.of_not_busy {task : Task} (h : task.stage.busy = false) :
    TaskInv runner store task := by
  obtain ⟨effect, stage⟩ := task
  refine ⟨?_, ?_, ?_⟩
  · intro howns
    rw [Stage.busy_of_owns howns] at h
    cases h
  · intro hholds
    rw [Stage.busy_of_holds hholds] at h
    cases h
  · cases stage with
    | releasing | committing | recording | retrying => cases h
    | _ => trivial

/-- A busy task's effect is in flight, or its reservation is being released. -/
theorem TaskInv.busy {task : Task} (hi : TaskInv runner store task) (h : task.stage.busy = true) :
    InState store task.effect.id .inFlight ∨ InState store task.effect.id .terminalFailed := by
  by_cases hr : task.stage = .releasing
  · have hneeds := hi.needs
    rw [hr] at hneeds
    exact .inr hneeds
  · exact .inl (hi.owns (Stage.owns_of_busy h hr))

end

/-! ## What a step does to the store -/

/-- A step on behalf of effect `id` leaves everybody else's records and
reservations alone, and no record changes its effect. -/
structure Touches (store : InMemoryEffectStore) (id : EffectId) (store' : InMemoryEffectStore) :
    Prop where
  states : ∀ other, other ≠ id → store'.states.lookup other = store.states.lookup other
  dedup : ∀ scope reservation, store.dedup.lookup scope = some reservation →
    reservation.effectId ≠ id → store'.dedup.lookup scope = some reservation
  content : ∀ other record, store.states.lookup other = some record →
    ∃ record', store'.states.lookup other = some record' ∧ record'.tenant = record.tenant ∧
      record'.description = record.description

namespace Touches
variable {runner : DeliveryRunner} {store store' : InMemoryEffectStore} {id : EffectId}
  {record : EffectRecord}

theorem refl (store : InMemoryEffectStore) (id : EffectId) : Touches store id store :=
  ⟨fun _ _ => rfl, fun _ _ h _ => h, fun _ record h => ⟨record, h, rfl, rfl⟩⟩

theorem put (record' : EffectRecord) (hat : store.states.lookup id = some record)
    (htenant : record'.tenant = record.tenant)
    (hdescription : record'.description = record.description) :
    Touches store id (store.put id record') := by
  refine ⟨?_, fun _ _ h _ => h, ?_⟩
  · intro other hne
    exact InMemoryEffectStore.lookup_put_ne store record' hne
  · intro other r hr
    by_cases hne : other = id
    · subst hne
      obtain rfl : record = r := Option.mem_unique hat hr
      exact ⟨record', InMemoryEffectStore.lookup_put_self store other record', htenant,
        hdescription⟩
    · exact ⟨r, (InMemoryEffectStore.lookup_put_ne store record' hne).trans hr, rfl, rfl⟩

theorem insert (record' : EffectRecord) (hnew : store.states.lookup id = none) :
    Touches store id (store.put id record') := by
  refine ⟨?_, fun _ _ h _ => h, ?_⟩
  · intro other hne
    exact InMemoryEffectStore.lookup_put_ne store record' hne
  · intro other r hr
    have hne : other ≠ id := by
      rintro rfl
      rw [hnew] at hr
      cases hr
    exact ⟨r, (InMemoryEffectStore.lookup_put_ne store record' hne).trans hr, rfl, rfl⟩

/-- A reservation is written or erased: the effect's own, if there was one. -/
theorem of_scope {scope : DedupScope} (hstates : store'.states = store.states)
    (hdedup : ∀ other, other ≠ scope → store'.dedup.lookup other = store.dedup.lookup other)
    (hold : ∀ r, store.dedup.lookup scope = some r → r.effectId = id) :
    Touches store id store' := by
  refine ⟨fun _ _ => by rw [hstates], ?_, fun _ record h => ⟨record, hstates ▸ h, rfl, rfl⟩⟩
  intro other r hr hne
  have hscope : other ≠ scope := by
    rintro rfl
    exact hne (hold r hr)
  exact (hdedup other hscope).trans hr

theorem inState (ht : Touches store id store') {other : EffectId} {state : EffectState}
    (hne : other ≠ id) (hs : InState store other state) : InState store' other state := by
  obtain ⟨record, hat, hstate⟩ := hs
  exact ⟨record, (ht.states other hne).trans hat, hstate⟩

variable {effect : AcceptedEffect}

theorem known (ht : Touches store id store') (hk : Known store effect) : Known store' effect := by
  obtain ⟨record, hat, htenant, hdescription⟩ := hk
  obtain ⟨record', hat', htenant', hdescription'⟩ := ht.content _ record hat
  exact ⟨record', hat', htenant'.trans htenant, hdescription'.trans hdescription⟩

theorem holding (ht : Touches store id store') {b : Bool}
    (hne : effect.id ≠ id) (hh : Holding runner store effect b) : Holding runner store' effect b :=
  ht.dedup _ _ hh hne

/-- A task with another effect goes on relying on what it did. -/
theorem taskInv (ht : Touches store id store') {task : Task} (hne : task.effect.id ≠ id)
    (hi : TaskInv runner store task) : TaskInv runner store' task := by
  refine ⟨fun h => ht.inState hne (hi.owns h), fun h => ht.holding hne (hi.holds h), ?_⟩
  have hneeds := hi.needs
  generalize task.stage = stage at hneeds ⊢
  cases stage with
  | releasing => exact ht.inState hne hneeds
  | committing =>
    obtain ⟨b, hb⟩ := hneeds
    exact ⟨b, ht.holding hne hb⟩
  | recording => exact ht.holding hne hneeds
  | retrying purpose => cases purpose <;> exact hneeds
  | _ => trivial

end Touches

/-! ## Moves of a task -/

section
variable (runner : DeliveryRunner) (store : InMemoryEffectStore) (now : Timestamp) (i : Nat)
  (effect : AcceptedEffect)

/-- Everything task `i` can do next, with its effect to itself. -/
inductive Moves : Stage → InMemoryEffectStore × Stage × Option Observation → Prop where
  | waits (stage : Stage) : Moves stage (store, stage, none)
  | marks (tries : Nat) (record : EffectRecord)
      (at' : store.states.lookup effect.id = some record)
      (isOpen : record.state = .pending ∨ record.state = .retryableFailed) : Moves (.marking tries)
        (store.put effect.id { record with state := .inFlight }, .reserving 0, none)
  | refused (tries : Nat) : Moves (.marking tries) (store, .done, none)
  | reserves (tries : Nat) (free : store.dedup.lookup effect.scope = none) :
      Moves (.reserving tries) (store.putReservation effect.scope
            ⟨effect.id, effect.fingerprint runner.sha256, false⟩, .launching, none)
  | reservedBefore (tries : Nat) (held : Holding runner store effect false) :
      Moves (.reserving tries) (store, .launching, none)
  | deliveredBefore (tries : Nat) (owner : EffectId)
      (held : store.dedup.lookup effect.scope =
        some ⟨owner, effect.fingerprint runner.sha256, true⟩) :
      Moves (.reserving tries) (store, .satisfying, none)
  | postponed (tries : Nat) (owner : EffectId) (other : owner ≠ effect.id)
      (held : store.dedup.lookup effect.scope =
        some ⟨owner, effect.fingerprint runner.sha256, false⟩) : Moves (.reserving tries)
        (store, .retrying .requeue effect.attempt now 0, none)
  | conflicts (tries : Nat) (reason : TerminalReason) (existing : ReservationRecord)
      (held : store.dedup.lookup effect.scope = some existing)
      (differs : existing.fingerprint ≠ effect.fingerprint runner.sha256) :
      Moves (.reserving tries) (store, .abandoning reason false, none)
  | launches (registered : effect.description.effectType ∈ runner.registry) : Moves .launching
        (store, .executing, some (.started i effect effect.context))
  | unregistered : Moves .launching (store, .abandoning .executorMissing true, none)
  | commits (round : Nat) (succeeded : Bool) (held : Holding runner store effect succeeded) :
      Moves (.committing round) (store.putReservation effect.scope
            ⟨effect.id, effect.fingerprint runner.sha256, true⟩, .recording round, none)
  | records (round : Nat) (record : EffectRecord)
      (at' : store.states.lookup effect.id = some record) (inFlight : record.state = .inFlight) :
      Moves (.recording round)
        (store.put effect.id { record with state := .succeeded }, .done, none)
  | satisfies (record : EffectRecord) (at' : store.states.lookup effect.id = some record)
      (inFlight : record.state = .inFlight) :
      Moves .satisfying (store.put effect.id { record with state := .succeeded }, .done, none)
  | retries (purpose : Purpose) (attempt : Nat) (nextAt : Timestamp) (tries : Nat)
      (record : EffectRecord) (at' : store.states.lookup effect.id = some record)
      (inFlight : record.state = .inFlight) : Moves (.retrying purpose attempt nextAt tries)
        (store.put effect.id { record with
            state := .retryableFailed, attempt := attempt, nextAt := some nextAt }, .done, none)
  | abandons (reason : TerminalReason) (release : Bool) (record : EffectRecord)
      (at' : store.states.lookup effect.id = some record) (inFlight : record.state = .inFlight) :
      Moves (.abandoning reason release) (store.put effect.id { record with
            state := .terminalFailed, terminalReason := some reason },
          if release then .releasing else .done, none)
  | releases : Moves .releasing
        ({ store with dedup := store.dedup.erase effect.scope }, .done, none)

end

section
variable {runner : DeliveryRunner} {store : InMemoryEffectStore} {now : Timestamp} {i : Nat}
  {effect : AcceptedEffect}

theorem moves_marking (tries draw : Nat) : Moves runner store now i effect (.marking tries)
      (runner.resume store now draw i ⟨effect, .marking tries⟩) := by
  by_cases hopen : ∃ record, store.states.lookup effect.id = some record ∧
      (record.state = .pending ∨ record.state = .retryableFailed)
  · obtain ⟨record, hat, hstate⟩ := hopen
    have hmark := InMemoryEffectStore.mark_of_allowed .inFlight (fun r => r) hat
      (show record.state ∈ [EffectState.pending, .retryableFailed] by simpa using hstate)
    simp only [DeliveryRunner.resume, InMemoryEffectStore.markInFlight, hmark]
    exact .marks tries record hat hstate
  · have hrefused : ∀ record, store.states.lookup effect.id = some record →
        record.state ∉ [EffectState.pending, .retryableFailed] := by
      intro record hat hmem
      exact hopen ⟨record, hat, by simpa using hmem⟩
    obtain ⟨e, hmark, htext⟩ := InMemoryEffectStore.mark_of_not_allowed .inFlight
      (fun r => r) hrefused
    simp only [DeliveryRunner.resume, InMemoryEffectStore.markInFlight, hmark]
    -- a refusal is no reason to try again
    have hdone : marked tries (.error e) = .done := by
      cases e <;> first | rfl | exact absurd rfl (htext _)
    rw [hdone]
    exact .refused tries

theorem moves_reserving (tries draw : Nat) : Moves runner store now i effect (.reserving tries)
      (runner.resume store now draw i ⟨effect, .reserving tries⟩) := by
  simp only [DeliveryRunner.resume, InMemoryEffectStore.reserve]
  cases hheld : store.dedup.lookup effect.scope with
  | none => exact .reserves tries hheld
  | some existing =>
    obtain ⟨owner, fingerprint, succeeded⟩ := existing
    by_cases hfp : fingerprint = effect.fingerprint runner.sha256
    · subst hfp
      by_cases howner : owner = effect.id
      · subst howner
        cases succeeded with
        | true =>
          simp only [ne_eq, not_true_eq_false, if_false, if_true]
          exact .deliveredBefore tries effect.id hheld
        | false =>
          simp only [ne_eq, not_true_eq_false, if_false, if_true, Bool.false_eq_true]
          exact .reservedBefore tries hheld
      · cases succeeded with
        | true =>
          simp only [ne_eq, not_true_eq_false, if_false, if_true, howner]
          exact .deliveredBefore tries owner hheld
        | false =>
          simp only [ne_eq, not_true_eq_false, if_false, Bool.false_eq_true, howner]
          exact .postponed tries owner howner hheld
    · simp only [ne_eq, hfp, not_false_eq_true, if_true]
      exact .conflicts tries _ _ hheld hfp

/-- **A task with its effect to itself is refused nothing.** -/
theorem moves_resume (draw : Nat) {task : Task} (hi : TaskInv runner store task) :
    Moves runner store now i task.effect task.stage (runner.resume store now draw i task) := by
  obtain ⟨effect, stage⟩ := task
  -- the transitions of an effect that is in flight
  have hmark : stage.owns = true → ∃ record, store.states.lookup effect.id = some record ∧
      record.state = .inFlight ∧ ∀ allowed target update, EffectState.inFlight ∈ allowed →
        store.mark effect.id allowed target update =
          (store.put effect.id (update { record with state := target }), .ok ()) := by
    intro howns
    obtain ⟨record, hat, hstate⟩ := hi.owns howns
    refine ⟨record, hat, hstate, ?_⟩
    intro allowed target update hallowed
    exact InMemoryEffectStore.mark_of_allowed target update hat (by rw [hstate]; exact hallowed)
  cases stage with
  | marking tries => exact moves_marking tries draw
  | reserving tries => exact moves_reserving tries draw
  | launching =>
    simp only [DeliveryRunner.resume]
    by_cases hreg : effect.description.effectType ∈ runner.registry
    · simp only [if_pos hreg]
      exact .launches hreg
    · simp only [if_neg hreg]
      exact .unregistered
  | committing round =>
    obtain ⟨b, hheld⟩ := hi.needs
    have hlookup : store.dedup.lookup effect.scope =
        some ⟨effect.id, effect.fingerprint runner.sha256, b⟩ := hheld
    simp only [DeliveryRunner.resume, InMemoryEffectStore.commitSuccess, hlookup]
    exact .commits round b hheld
  | recording round =>
    obtain ⟨record, hat, hstate, hmarks⟩ := hmark rfl
    simp only [DeliveryRunner.resume, InMemoryEffectStore.markSucceeded,
      hmarks [.inFlight] .succeeded _ (by simp)]
    exact .records round record hat hstate
  | satisfying =>
    obtain ⟨record, hat, hstate, hmarks⟩ := hmark rfl
    simp only [DeliveryRunner.resume, InMemoryEffectStore.markSucceeded,
      hmarks [.inFlight] .succeeded _ (by simp)]
    exact .satisfies record hat hstate
  | retrying purpose attempt nextAt tries =>
    obtain ⟨record, hat, hstate, hmarks⟩ := hmark rfl
    simp only [DeliveryRunner.resume, InMemoryEffectStore.markRetryable,
      hmarks [.inFlight] .retryableFailed _ (by simp)]
    exact .retries purpose attempt nextAt tries record hat hstate
  | abandoning reason release =>
    obtain ⟨record, hat, hstate, hmarks⟩ := hmark rfl
    simp only [DeliveryRunner.resume, InMemoryEffectStore.markTerminal,
      hmarks [.inFlight, .retryableFailed] .terminalFailed _ (by simp)]
    exact .abandons reason release record hat hstate
  | releasing => exact .releases
  | _ => exact .waits _

end

section
variable {runner : DeliveryRunner} {store : InMemoryEffectStore} {now : Timestamp} {i : Nat}
  {effect : AcceptedEffect} {stage : Stage}
  {o : InMemoryEffectStore × Stage × Option Observation}

theorem Moves.touches (hm : Moves runner store now i effect stage o)
    (hi : TaskInv runner store ⟨effect, stage⟩) : Touches store effect.id o.1 := by
  have howner : ∀ {b : Bool}, Holding runner store effect b →
      ∀ r, store.dedup.lookup effect.scope = some r → r.effectId = effect.id := by
    intro b hheld r hr
    have hheld' : store.dedup.lookup effect.scope =
        some ⟨effect.id, effect.fingerprint runner.sha256, b⟩ := hheld
    rw [hheld'] at hr
    rw [← Option.some.inj hr]
  cases hm with
  | marks _ _ at' | records _ _ at' | satisfies _ at' | retries _ _ _ _ _ at'
  | abandons _ _ _ at' =>
    exact Touches.put _ at' rfl rfl
  | reserves _ free =>
    refine .of_scope rfl (fun _ hne => AList.lookup_insert_ne hne) ?_
    intro r hr
    rw [free] at hr
    cases hr
  | commits _ _ held => exact .of_scope rfl (fun _ hne => AList.lookup_insert_ne hne) (howner held)
  | releases => exact .of_scope rfl (fun _ hne => AList.lookup_erase_ne hne) (howner (hi.holds rfl))
  | _ => exact Touches.refl store effect.id

/-- A task in flight that holds no reservation of its own. -/
theorem TaskInv.of_inFlight (hstate : InState store effect.id .inFlight)
    (hholds : stage.holds = false) (hneeds : Needs runner store effect stage) :
    TaskInv runner store ⟨effect, stage⟩ where
  owns := fun _ => hstate
  holds := by
    intro h
    have h' : stage.holds = true := h
    rw [hholds] at h'
    cases h'
  needs := hneeds

/-- A task in flight with its reservation. -/
theorem TaskInv.of_holding (hstate : InState store effect.id .inFlight)
    (hheld : Holding runner store effect false) (hneeds : Needs runner store effect stage) :
    TaskInv runner store ⟨effect, stage⟩ :=
  ⟨fun _ => hstate, fun _ => hheld, hneeds⟩

/-- The task that moves can rely on what its next stage needs. -/
theorem Moves.taskInv (hm : Moves runner store now i effect stage o)
    (hi : TaskInv runner store ⟨effect, stage⟩) : TaskInv runner o.1 ⟨effect, o.2.1⟩ := by
  cases hm with
  | waits => exact hi
  | marks _ record =>
    have hstate : InState (store.put effect.id { record with state := .inFlight }) effect.id
        .inFlight :=
      ⟨_, InMemoryEffectStore.lookup_put_self store effect.id _, rfl⟩
    exact .of_inFlight hstate rfl trivial
  | reserves =>
    have hheld : Holding runner (store.putReservation effect.scope
        ⟨effect.id, effect.fingerprint runner.sha256, false⟩) effect false :=
      InMemoryEffectStore.lookup_putReservation_self store effect.scope _
    exact .of_holding (hi.owns rfl) hheld trivial
  | reservedBefore _ held =>
    exact .of_holding (hi.owns rfl) held trivial
  | deliveredBefore | postponed | conflicts =>
    exact .of_inFlight (hi.owns rfl) rfl trivial
  | launches =>
    exact .of_holding (hi.owns rfl) (hi.holds rfl) trivial
  | unregistered => exact .of_holding (hi.owns rfl) (hi.holds rfl) trivial
  | commits =>
    refine .of_inFlight (hi.owns rfl) rfl ?_
    exact InMemoryEffectStore.lookup_putReservation_self store effect.scope _
  | abandons _ release =>
    cases release with
    | false => exact .of_not_busy rfl
    | true =>
      refine ⟨(fun h => by cases h), fun _ => hi.holds rfl, ?_⟩
      exact ⟨_, InMemoryEffectStore.lookup_put_self store effect.id _, rfl⟩
  | _ => exact .of_not_busy rfl

/-- A task becomes busy by marking its effect in flight, and in no other way. -/
theorem Moves.busy (hm : Moves runner store now i effect stage o) (hbusy : o.2.1.busy = true) :
    stage.busy = true ∨ ∃ record, store.states.lookup effect.id = some record ∧
      (record.state = .pending ∨ record.state = .retryableFailed) := by
  cases hm with
  | waits => exact .inl hbusy
  | marks _ record at' isOpen => exact .inr ⟨record, at', isOpen⟩
  | refused | records | satisfies | retries => cases hbusy
  | _ => exact .inl rfl

end

/-! ### After the executor call -/

section
variable (runner : DeliveryRunner) (effect : AcceptedEffect) (now : Timestamp)

/-- What `finished` makes of the end of the executor call. -/
inductive Finishes : JoinResult → Stage → Prop where
  | delivered : Finishes (.ok .success) (.committing 0)
  | retries (result : JoinResult) (nextAt : Timestamp) (failed : result ≠ .ok .success)
      (allowed : effect.attempt < (runner.policyFor effect).maxAttempts) :
      Finishes result (.retrying .failure (effect.attempt + 1) nextAt 0)
  | givesUp (result : JoinResult) (reason : TerminalReason) (failed : result ≠ .ok .success) :
      Finishes result (.abandoning reason true)
  | requeued : Finishes .cancelled (.retrying .requeue effect.attempt now 0)

end

theorem finishes_finished (runner : DeliveryRunner) (effect : AcceptedEffect) (now : Timestamp)
    (draw : Nat) (result : JoinResult) : Finishes runner effect now result
      (runner.finished effect now draw (classifyJoinResult result)) := by
  have hretry : result ≠ .ok .success →
      Finishes runner effect now result (runner.retryOrGiveUp effect now draw) := by
    intro hfailed
    unfold DeliveryRunner.retryOrGiveUp
    by_cases hallowed : effect.attempt < (runner.policyFor effect).maxAttempts
    · simp only [RetryPolicy.allowsRetry, decide_eq_true hallowed, if_true]
      exact .retries result _ hfailed hallowed
    · simp only [RetryPolicy.allowsRetry, decide_eq_false hallowed, Bool.false_eq_true, if_false]
      exact .givesUp result _ hfailed
  cases result with
  | ok outcome =>
    cases outcome with
    | success => exact .delivered
    | retryableFailure => exact hretry (by simp)
    | terminalFailure => exact .givesUp _ _ (by simp)
  | panicked => exact hretry (by simp)
  | cancelled => exact .requeued

variable {runner : DeliveryRunner} {store : InMemoryEffectStore}

theorem Finishes.taskInv {effect : AcceptedEffect} {now : Timestamp}
    {result : JoinResult} (hf : Finishes runner effect now result stage)
    (hi : TaskInv runner store ⟨effect, .executing⟩) :
    TaskInv runner store ⟨effect, stage⟩ := by
  have hstate := hi.owns rfl
  have hheld := hi.holds rfl
  cases hf with
  | delivered => exact .of_holding hstate hheld ⟨false, hheld⟩
  | _ => exact .of_holding hstate hheld trivial

/-- What an abort leaves relies on no more than what was there. -/
theorem TaskInv.abort {effect : AcceptedEffect} (hi : TaskInv runner store ⟨effect, stage⟩) :
    TaskInv runner store ⟨effect, stage.aborted⟩ := by
  cases stage with
  | admitting | detached => exact hi
  | executing =>
    show TaskInv runner store ⟨effect, .detached⟩
    exact .of_holding (hi.owns rfl) (hi.holds rfl) trivial
  | _ => exact .of_not_busy rfl

theorem Stage.busy_of_aborted (h : stage.aborted.busy = true) : stage.busy = true := by
  cases stage <;> first | exact h | rfl

end EgoRs.Effects
