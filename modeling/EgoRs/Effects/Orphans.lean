import EgoRs.Effects.Delivery

/-! # Orphaned Reservations

A delivery runner whose `reserve` calls may fail. `abandon_and_release`
deletes the reservation of the effect it gives up; `abandon` does not, since
the effect is not meant to have one where it is called. It has one where a
later attempt of the effect cannot reserve: the reservation of an earlier
attempt stays, and stands in the way of every later effect of its scope.
-/

namespace EgoRs.Effects

open Framework

/-! ## A runner whose reserve calls may fail -/

inductive FaultyInput where
  | input (input : Input)
  /-- The `reserve` call of task `i` fails. -/
  | reserveFails (i : Nat) (error : EffectStoreError)

/-- Task `i` gets an error from `reserve`. -/
def State.reserveFails (runner : DeliveryRunner) (s : State) (i : Nat) (error : EffectStoreError) :
    State :=
  match s.tasks[i]? with
  | some ⟨effect, .reserving tries⟩ =>
    s.stage i ⟨effect, .reserving tries⟩ (runner.reserved effect s.clock tries (.error error))
  | _ => s

def faultyDelivery (runner : DeliveryRunner) :
    Machine State FaultyInput (Option Observation) where
  init := (delivery runner).init
  step := fun s input =>
    match input with
    | .input input => s.step runner input
    | .reserveFails i error => (s.reserveFails runner i error, none)

abbrev FaultyEvent : Type := Transition State FaultyInput (Option Observation)

abbrev FaultyHistory : Type := List FaultyEvent

/-- **No reservation is left to an effect that has failed**, and nobody waits for
it. -/
structure NoOrphan (store : InMemoryEffectStore) (id : EffectId) : Prop where
  released : InState store id .terminalFailed → ∀ scope reservation,
    store.dedup.lookup scope = some reservation → reservation.effectId = id →
    reservation.succeeded = true
  unblocked : ∀ scope reservation other fingerprint,
    store.dedup.lookup scope = some reservation → reservation.effectId = id →
    (store.reserve scope other fingerprint).2 = .ok .otherInProgress →
    ¬ InState store id .terminalFailed

/-! ## The condition -/

/-- The effect has a reservation and has not delivered. -/
def ownsUnfinished (store : InMemoryEffectStore) (effect : AcceptedEffect) : Bool :=
  match store.dedup.lookup effect.scope with
  | some reservation => decide (reservation.effectId = effect.id) && !reservation.succeeded
  | none => false

/-- `reserve_with_retry` gives up. -/
def Stage.givesUp : Stage → Bool
  | .abandoning _ _ => true
  | _ => false

/-- No effect that has a reservation is given up for a failing `reserve`, and no
task is aborted before it releases one. -/
def reservationKept (runner : DeliveryRunner) (t : FaultyEvent) : Bool :=
  match t.input with
  | .reserveFails i error =>
    match t.pre.tasks[i]? with
    | some ⟨effect, .reserving tries⟩ =>
      !((runner.reserved effect t.pre.clock tries (.error error)).givesUp &&
        ownsUnfinished t.pre.store effect)
    | _ => true
  | .input (.abort i) =>
    match t.pre.tasks[i]? with
    | some ⟨_, .releasing⟩ => false
    | _ => true
  | _ => true

/-- A task of the effect is between `mark_terminal` and `release`. -/
def State.Releasing (s : State) (id : EffectId) : Prop :=
  ∃ (i : Nat) (effect : AcceptedEffect), s.tasks[i]? = some ⟨effect, .releasing⟩ ∧ effect.id = id

def State.releasing (s : State) (id : EffectId) : Bool :=
  s.tasks.any fun task => decide (task.effect.id = id ∧ task.stage = .releasing)

variable {s : State} {runner : DeliveryRunner}

theorem State.releasing_of_releasing {id : EffectId} (h : s.Releasing id) :
    s.releasing id = true := by
  obtain ⟨i, effect, hat, hid⟩ := h
  exact List.any_eq_true.mpr ⟨_, List.mem_of_getElem? hat, decide_eq_true ⟨hid, rfl⟩⟩

/-! ## Steps -/

/-- A step of the runner, or a failing `reserve`. -/
inductive FaultySteps (runner : DeliveryRunner) (s : State) :
    FaultyInput → State → Prop where
  | steps {input : Input} {s' : State} (seen : Option Observation)
      (steps : Steps runner s input s' seen) : FaultySteps runner s (.input input) s'
  | ignored (i : Nat) (error : EffectStoreError) : FaultySteps runner s (.reserveFails i error) s
  | failed (i : Nat) (error : EffectStoreError) (effect : AcceptedEffect) (tries : Nat)
      (stage : Stage) (at' : s.tasks[i]? = some ⟨effect, .reserving tries⟩)
      (reserved : stage = runner.reserved effect s.clock tries (.error error))
      (next : stage = .reserving (tries + 1) ∨ ∃ reason, stage = .abandoning reason false) :
      FaultySteps runner s (.reserveFails i error) (s.stage i ⟨effect, .reserving tries⟩ stage)

theorem faultySteps_step (hinv : RunnerInv runner s) (input : FaultyInput) :
    FaultySteps runner s input ((faultyDelivery runner).step s input).1 := by
  cases input with
  | input input => exact .steps _ (steps_step hinv input)
  | reserveFails i error =>
    simp only [faultyDelivery, State.reserveFails]
    split
    · rename_i effect tries hat
      refine .failed i error effect tries _ hat rfl ?_
      cases error with
      | temporarilyUnavailable =>
        simp only [DeliveryRunner.reserved]
        split
        · exact .inl rfl
        · exact .inr ⟨_, rfl⟩
      | _ => exact .inr ⟨_, rfl⟩
    · exact .ignored i error

section
variable {runner : DeliveryRunner} {s s' : State} {input : FaultyInput}

theorem FaultySteps.runnerInv (hs : FaultySteps runner s input s') (hinv : RunnerInv runner s) :
    RunnerInv runner s' := by
  cases hs with
  | steps _ steps => exact steps.runnerInv hinv
  | ignored => exact hinv
  | failed _ _ _ _ _ at' _ next =>
    refine ⟨?_, ?_, ?_⟩
    · intro e he
      exact hinv.known e (effects_stage at' rfl rfl rfl rfl e he)
    · intro j task hat
      obtain ⟨rfl, rfl⟩ | ⟨-, hold⟩ := getElem?_set_cases at' hat
      · have hstate := (hinv.tasks j _ at').owns rfl
        obtain rfl | ⟨reason, rfl⟩ := next
        · exact .of_inFlight hstate rfl trivial
        · exact .of_inFlight hstate rfl trivial
      · exact hinv.tasks j task hold
    · exact hinv.alone_written (.set at') fun _ => (hinv.others at' rfl :)

end

theorem runnerInv_faulty_run {h : FaultyHistory}
    (he : (faultyDelivery runner).Run h s) : RunnerInv runner s := by
  refine he.invariant (P := fun _ s => RunnerInv runner s) ?_ ?_
  · exact runnerInv_run (.nil _)
  · intro h s input _ hinv
    exact (faultySteps_step hinv input).runnerInv hinv

/-! ## Failed effects -/

section
variable {runner : DeliveryRunner} {s s' : State} {input : Input} {seen : Option Observation}
  {id : EffectId}

/-- A task that is about to release stays so, releases, or is aborted. -/
theorem Steps.releasing (hs : Steps runner s input s' seen) (hinv : RunnerInv runner s)
    (hreleasing : s.Releasing id) : s'.Releasing id ∨
      (∃ (i : Nat) (effect : AcceptedEffect), s.tasks[i]? = some ⟨effect, .releasing⟩ ∧
        effect.id = id ∧ s'.store.dedup.lookup effect.scope = none) ∨
      ∃ (i : Nat) (effect : AcceptedEffect), s.tasks[i]? = some ⟨effect, .releasing⟩ ∧
        input = .abort i := by
  obtain ⟨i, effect, hat, hid⟩ := hreleasing
  obtain ⟨stage', hat'⟩ := hs.persists hat
  obtain ⟨at', -⟩ | hturns := hs.origin hinv hat'
  · cases hat.symm.trans at'
    exact .inl ⟨i, effect, hat', hid⟩
  cases hturns with
  | received _ new | reclaimed _ _ _ _ _ _ _ _ new => cases hat.symm.trans new
  | spawned _ _ at' | finished _ _ _ _ _ at' | unheard _ _ at' => cases hat.symm.trans at'
  | resumed _ _ _ _ _ at' moves store =>
    cases hat.symm.trans at'
    cases moves with
    | waits => exact .inl ⟨i, effect, hat', hid⟩
    | releases =>
      refine .inr (.inl ⟨i, effect, hat, hid, ?_⟩)
      rw [store]
      exact AList.lookup_erase _ _
  | aborted _ _ call => exact .inr (.inr ⟨i, effect, hat, call⟩)

end

/-! ## Every state of a run -/

/-- **Reservations and their owners**, in runs that meet the condition. -/
structure Reservations (runner : DeliveryRunner) (s : State) : Prop where
  /-- A reservation is for the scope and the fingerprint of its effect. -/
  owned : ∀ scope reservation, s.store.dedup.lookup scope = some reservation →
    ∃ effect : AcceptedEffect, Known s.store effect ∧ effect.id = reservation.effectId ∧
      effect.scope = scope ∧ effect.fingerprint runner.sha256 = reservation.fingerprint
  failed : ∀ id, InState s.store id .terminalFailed → ∀ scope reservation,
    s.store.dedup.lookup scope = some reservation → reservation.effectId = id →
    reservation.succeeded = true ∨ s.Releasing id
  /-- Who gives up without releasing has nothing to release. -/
  unreserved : ∀ (i : Nat) (effect : AcceptedEffect) (reason : TerminalReason),
    s.tasks[i]? = some ⟨effect, .abandoning reason false⟩ → ∀ scope reservation,
    s.store.dedup.lookup scope = some reservation → reservation.effectId = effect.id →
    reservation.succeeded = true

section
variable {runner : DeliveryRunner} {s s' : State} {input : Input} {seen : Option Observation}

/-- A reservation of an effect is the one of its scope. -/
theorem Reservations.scope_eq (hr : Reservations runner s) {effect : AcceptedEffect}
    (hknown : Known s.store effect) {scope : DedupScope} {reservation : ReservationRecord}
    (hat : s.store.dedup.lookup scope = some reservation)
    (howner : reservation.effectId = effect.id) :
    scope = effect.scope ∧ reservation.fingerprint = effect.fingerprint runner.sha256 := by
  obtain ⟨owner, hk, hid, rfl, hfp⟩ := hr.owned scope reservation hat
  obtain ⟨hscope, hfingerprint⟩ := hk.same runner hknown (hid.trans howner)
  exact ⟨hscope, hfp.symm.trans hfingerprint⟩

variable (hs : Steps runner s input s' seen) (hinv : RunnerInv runner s)
  (hr : Reservations runner s)
include hs hinv hr

theorem Steps.owned : ∀ scope reservation, s'.store.dedup.lookup scope = some reservation →
      ∃ effect : AcceptedEffect, Known s'.store effect ∧ effect.id = reservation.effectId ∧
        effect.scope = scope ∧ effect.fingerprint runner.sha256 = reservation.fingerprint := by
  intro scope reservation hpost
  obtain ⟨id, htouch⟩ := hs.touches hinv
  cases hs.reservation hpost with
  | kept reservation before =>
    obtain ⟨effect, hk, hrest⟩ := hr.owned scope reservation before
    exact ⟨effect, htouch.known hk, hrest⟩
  | reserved _ effect _ own at' | committed _ effect _ _ own at' =>
    exact ⟨effect, htouch.known (hinv.known effect (mem_effects_of_task at')), rfl, own.symm, rfl⟩

theorem Steps.failed_released
    (hunaborted : ∀ (i : Nat) (effect : AcceptedEffect), s.tasks[i]? = some ⟨effect, .releasing⟩ →
      input ≠ .abort i) : ∀ id, InState s'.store id .terminalFailed → ∀ scope reservation,
      s'.store.dedup.lookup scope = some reservation → reservation.effectId = id →
      reservation.succeeded = true ∨ s'.Releasing id := by
  intro id hfailed scope reservation hpost howner
  cases hs.reservation hpost with
  | committed => exact .inl rfl
  | reserved i effect _ _ at' _ states =>
    -- the effect is in flight
    obtain ⟨record, hat, hstate⟩ := (hinv.tasks i _ at').owns rfl
    have hinflight : InState s'.store id .inFlight := by
      subst howner
      exact ⟨record, by rw [states]; exact hat, hstate⟩
    cases hfailed.unique hinflight
  | kept reservation before =>
    obtain ⟨record, hrecord, hstate⟩ := hfailed
    obtain ⟨-, hpending, -⟩ | ⟨old, hbefore, hc⟩ := hs.changes hrecord
    · cases hpending.symm.trans hstate
    cases hc with
    | kept =>
      obtain hsucceeded | hreleasing :=
        hr.failed id ⟨record, hbefore, hstate⟩ scope reservation before howner
      · exact .inl hsucceeded
      · obtain hstays | ⟨i, effect, hat, hid, hgone⟩ | ⟨i, effect, hat, habort⟩ :=
          hs.releasing hinv hreleasing
        · exact .inr hstays
        · have hknown := hinv.known effect (mem_effects_of_task hat)
          obtain ⟨hscope, -⟩ := hr.scope_eq hknown before (howner.trans hid.symm)
          rw [hscope, hgone] at hpost
          cases hpost
        · exact absurd habort (hunaborted i effect hat)
    | abandoned i effect reason release hid hat hafter =>
      cases release with
      | true => exact .inr ⟨i, effect, hafter, hid⟩
      | false => exact .inl (hr.unreserved i effect reason hat scope reservation before
          (howner.trans hid.symm))
    | _ => cases hstate

theorem Steps.unreserved : ∀ (i : Nat) (effect : AcceptedEffect) (reason : TerminalReason),
      s'.tasks[i]? = some ⟨effect, .abandoning reason false⟩ → ∀ scope reservation,
      s'.store.dedup.lookup scope = some reservation → reservation.effectId = effect.id →
      reservation.succeeded = true := by
  intro i effect reason hat scope reservation hpost howner
  -- who is about to give up was, or has just met another fingerprint
  have hwas : ∃ stage, s.tasks[i]? = some ⟨effect, stage⟩ ∧ stage.busy = true ∧
      (stage = .abandoning reason false ∨ ∃ existing,
        s.store.dedup.lookup effect.scope = some existing ∧
          existing.fingerprint ≠ effect.fingerprint runner.sha256) := by
    obtain ⟨at', -⟩ | hturns := hs.origin hinv hat
    · exact ⟨_, at', rfl, .inl rfl⟩
    generalize htask : (⟨effect, .abandoning reason false⟩ : Task) = task at hturns
    cases hturns with
    | received | reclaimed | unheard => cases htask
    | spawned _ claimed => cases claimed <;> cases htask
    | resumed _ _ _ _ _ at' moves =>
      cases moves with
      | waits =>
        cases htask
        exact ⟨_, at', rfl, .inl rfl⟩
      | conflicts _ _ existing held differs =>
        cases htask
        exact ⟨_, at', rfl, .inr ⟨existing, held, differs⟩⟩
      | abandons _ release => cases release <;> cases htask
      | _ => cases htask
    | finished _ _ _ _ _ _ finishes =>
      cases finishes <;> cases htask
    | aborted _ stage => cases stage <;> cases htask
  obtain ⟨stage, hold, hbusy, hstage⟩ := hwas
  cases hs.reservation hpost with
  | kept reservation before =>
    obtain rfl | ⟨existing, hheld, hdiffers⟩ := hstage
    · exact hr.unreserved i effect reason hold scope reservation before howner
    · -- the effect's own reservation has its own fingerprint
      have hknown := hinv.known effect (mem_effects_of_task hold)
      obtain ⟨rfl, hfp⟩ := hr.scope_eq hknown before howner
      rw [before] at hheld
      cases hheld
      exact absurd hfp hdiffers
  | reserved j _ _ _ at' after =>
    -- nobody else is at work on the effect
    have hij : j = i := hinv.alone j i _ _ at' hold rfl hbusy howner
    subst hij
    rw [hat] at after
    cases after
  | committed => rfl

end

theorem FaultySteps.reservations {s' : State} {input : FaultyInput}
    (hs : FaultySteps runner s input s') (hinv : RunnerInv runner s) (hr : Reservations runner s)
    {seen : Option Observation} (hkept : reservationKept runner ⟨s, input, seen, s'⟩ = true) :
    Reservations runner s' := by
  cases hs with
  | steps _ steps =>
    refine ⟨steps.owned hinv hr, steps.failed_released hinv hr ?_, steps.unreserved hinv hr⟩
    rintro i effect hat rfl
    simp [reservationKept, hat] at hkept
  | ignored => exact hr
  | failed i _ effect _ _ at' reserved =>
    refine ⟨hr.owned, ?_, ?_⟩
    · intro id hfailed scope reservation hat howner
      obtain hsucceeded | ⟨j, effect', hj, hid⟩ := hr.failed id hfailed scope reservation hat howner
      · exact .inl hsucceeded
      · refine .inr ⟨j, effect', ?_, hid⟩
        have hij : i ≠ j := by
          rintro rfl
          rw [at'] at hj
          cases hj
        show (s.tasks.set i _)[j]? = _
        rw [List.getElem?_set_ne hij]
        exact hj
    · intro j effect' reason hj scope reservation hat howner
      obtain ⟨rfl, heq⟩ | ⟨-, hold⟩ := getElem?_set_cases at' hj
      · cases heq
        have hknown := hinv.known effect (mem_effects_of_task at')
        obtain ⟨rfl, -⟩ := hr.scope_eq hknown hat howner
        cases hsucceeded : reservation.succeeded with
        | true => rfl
        | false =>
          -- the condition rules this out
          have howns : ownsUnfinished s.store effect = true := by
            have hlookup : s.store.dedup.lookup effect.scope = some reservation := hat
            have hid : reservation.effectId = effect.id := howner
            simp [ownsUnfinished, hlookup, hid, hsucceeded]
          simp [reservationKept, at', ← reserved, Stage.givesUp, howns] at hkept
      · exact hr.unreserved j effect' reason hold scope reservation hat howner

theorem reservations_run {h : FaultyHistory} (he : (faultyDelivery runner).Run h s)
    (hkept : Along (fun _ t => reservationKept runner t = true) h) : Reservations runner s := by
  refine he.invariant_along (P := fun _ s => Reservations runner s) ?_ ?_ hkept
  · refine ⟨?_, ?_, ?_⟩
    · intro scope reservation hat
      cases hat
    · rintro id ⟨record, hat, -⟩
      cases hat
    · intro i effect reason hat
      cases hat
  · intro h s input hex hr hc
    have hinv := runnerInv_faulty_run hex
    exact (faultySteps_step hinv input).reservations hinv hr hc

/-- **No orphaned reservation**: unless a task is just about to release it, no
reservation is left to an effect that has failed. -/
theorem no_orphan {runner : DeliveryRunner} {h : FaultyHistory} {s : State}
    (he : (faultyDelivery runner).Exec (faultyDelivery runner).init h s)
    (hkept : ∀ t ∈ h, reservationKept runner t = true) {id : EffectId}
    (hreleased : s.releasing id = false) : NoOrphan s.store id := by
  have hr := reservations_run he (.of_forall hkept)
  have hsucceeded : InState s.store id .terminalFailed → ∀ scope reservation,
      s.store.dedup.lookup scope = some reservation → reservation.effectId = id →
      reservation.succeeded = true := by
    intro hfailed scope reservation hat howner
    obtain hdone | hreleasing := hr.failed id hfailed scope reservation hat howner
    · exact hdone
    · rw [State.releasing_of_releasing hreleasing] at hreleased
      cases hreleased
  refine ⟨hsucceeded, ?_⟩
  intro scope reservation other fingerprint hat howner hanswer hfailed
  have hdone := hsucceeded hfailed scope reservation hat howner
  -- a delivered reservation is never answered `OtherInProgress`
  simp only [InMemoryEffectStore.reserve, hat, hdone, if_true] at hanswer
  split at hanswer
  · cases hanswer
  · split at hanswer <;> cases hanswer

/-- A mail is tried again and given up, its reservation is released. -/
def mailGivenUp : List FaultyInput :=
  [.input (.accept ⟨"a"⟩ sampleTenant sampleMail), .input (.send 0), .input .recv, .input .permit,
    .input (.resume 0 0), .reserveFails 0 (.temporarilyUnavailable "down"), .input (.resume 0 0),
    .input (.resume 0 0), .input (.finish 0 (.ok (.retryableFailure "busy")) 0),
    .input (.resume 0 0), .input (.claim .stored), .input .reclaim, .input .permit,
    .input (.resume 1 0), .input (.resume 1 0), .input (.finish 1 (.ok (.terminalFailure "no")) 0),
    .input (.resume 1 0), .input (.resume 1 0)]

theorem no_orphan_given_up :
    InState ((faultyDelivery mailRunner).after (faultyDelivery mailRunner).init mailGivenUp).store
        ⟨"a"⟩ .terminalFailed ∧
      NoOrphan ((faultyDelivery mailRunner).after (faultyDelivery mailRunner).init
        mailGivenUp).store ⟨"a"⟩ :=
  ⟨⟨_, rfl, rfl⟩, no_orphan (Machine.exec_trace _ _ _) (by decide) (by decide)⟩

/-- A mail fails once; its second attempt cannot reserve, and it is given up. -/
def mailOrphaned : List FaultyInput :=
  [.input (.accept ⟨"a"⟩ sampleTenant sampleMail), .input (.send 0), .input .recv, .input .permit,
    .input (.resume 0 0), .input (.resume 0 0), .input (.resume 0 0),
    .input (.finish 0 (.ok (.retryableFailure "busy")) 0), .input (.resume 0 0),
    .input (.claim .stored), .input .reclaim, .input .permit, .reserveFails 1 (.backend "down"),
    .input (.resume 1 0)]

/-- Every task is done. The mail has failed, has a reservation, and whoever sends
the same mail is told to wait for it. -/
theorem reservation_orphaned :
    (((faultyDelivery mailRunner).after (faultyDelivery mailRunner).init mailOrphaned).tasks.all
        fun task => decide (task.stage = .done)) = true ∧
      (((faultyDelivery mailRunner).after (faultyDelivery mailRunner).init
        mailOrphaned).store.reserve ⟨sampleTenant, "mail", sampleMail.idempotencyKey⟩ ⟨"b"⟩
          (.compute id sampleMail.payload sampleMail.destination)).2 = .ok .otherInProgress ∧
      ¬ NoOrphan ((faultyDelivery mailRunner).after (faultyDelivery mailRunner).init
        mailOrphaned).store ⟨"a"⟩ := by
  refine ⟨by decide, by decide, ?_⟩
  intro hno
  have hreserved := hno.released ⟨_, rfl, rfl⟩
    ⟨sampleTenant, "mail", sampleMail.idempotencyKey⟩ _ rfl rfl
  cases hreserved

end EgoRs.Effects
