import EgoRs.Effects.RunnerRun

/-! # One Delivery per Idempotency Scope

Over every interleaving of the queue, the reclaim ticks and the dispatch
tasks, and whatever the executor calls return: at most one executor call
runs per scope, after one that returned `Success` no other starts, and no
effect is `Succeeded` without one.

Whoever starts a call has the reservation of its scope, not marked as
delivered, and the effect in flight. A delivery leaves the reservation
marked, or its effect in flight for good (`Settled`); in neither state can
a task come to the point of starting a call.
-/

namespace EgoRs.Effects

open Framework

/-! ## The promise -/

/-- The transition starts an executor call, for the effect and by task `i`. -/
def Starts (t : Event) (i : Nat) (effect : AcceptedEffect) : Prop :=
  t.output = some (.started i effect effect.context)

/-- The call of task `i` is over. -/
def Returns (t : Event) (i : Nat) : Prop :=
  ∃ effect result, t.output = some (.returned i effect result)

/-- The transition is the end of a call that delivered the effect. -/
def Delivers (t : Event) (effect : AcceptedEffect) : Prop :=
  ∃ i, t.output = some (.returned i effect (.ok .success))

/-- The call that transition `n` of the run started is running at its end. -/
def Running (h : History) (n i : Nat) (effect : AcceptedEffect) : Prop :=
  (∃ t, h[n]? = some t ∧ Starts t i effect) ∧ ∀ m > n, ∀ t, h[m]? = some t → ¬ Returns t i

def EffectRecord.effect (record : EffectRecord) (id : EffectId) : AcceptedEffect :=
  ⟨id, record.tenant, record.attempt, record.description⟩

/-- An executor call for the scope and the fingerprint has delivered. -/
def Delivered (runner : DeliveryRunner) (h : History) (scope : DedupScope)
    (fingerprint : EffectFingerprint) : Prop :=
  ∃ t ∈ h, ∃ effect, Delivers t effect ∧ effect.scope = scope ∧
    effect.fingerprint runner.sha256 = fingerprint

/-- **One delivery per scope** in a run `h` that ends in `s`. -/
structure OneDelivery (runner : DeliveryRunner) (h : History) (s : State) : Prop where
  /-- At most one executor call runs per scope. -/
  single : ∀ m n i j effect effect', Running h m i effect → Running h n j effect' →
    effect.scope = effect'.scope → m = n
  /-- No call starts after one that delivered. -/
  final : ∀ (m n : Nat) (t u : Event) (i : Nat) (effect effect' : AcceptedEffect),
    h[m]? = some t → Delivers t effect → m < n → h[n]? = some u →
      Starts u i effect' → effect'.scope ≠ effect.scope
  /-- What is `Succeeded` was delivered. -/
  earned : ∀ id record, s.store.states.lookup id = some record → record.state = .succeeded →
    Delivered runner h (record.effect id).scope ((record.effect id).fingerprint runner.sha256)

/-! ## Tasks and their calls -/

def Stage.running : Stage → Bool
  | .executing => true
  | .detached => true
  | _ => false

/-- The executor call is still to come. -/
def Stage.early : Stage → Bool
  | .admitting _ => true
  | .marking _ => true
  | .reserving _ => true
  | .launching => true
  | _ => false

theorem Stage.holds_of_running {stage : Stage} (h : stage.running = true) : stage.holds = true := by
  cases stage <;> first | rfl | cases h

section
variable {runner : DeliveryRunner} {store : InMemoryEffectStore} {now : Timestamp} {i : Nat}
  {effect : AcceptedEffect} {stage : Stage}
  {o : InMemoryEffectStore × Stage × Option Observation}

/-- A task never gets back to before its call. -/
theorem Moves.early (hm : Moves runner store now i effect stage o) (h : o.2.1.early = true) :
    stage.early = true := by
  cases hm with
  | waits => exact h
  | marks | reserves | reservedBefore => rfl
  | abandons _ release => cases release <;> cases h
  | _ => cases h

/-- A running call goes on when its task is resumed. -/
theorem Moves.running (hm : Moves runner store now i effect stage o)
    (h : stage.running = true) : o.2.1 = stage := by
  cases hm with
  | waits => rfl
  | _ => cases h

/-- Only `launching` starts a call. -/
theorem Moves.observed (hm : Moves runner store now i effect stage o) {seen : Observation}
    (h : o.2.2 = some seen) : stage = .launching ∧ o.1 = store ∧ o.2.1 = .executing ∧
      seen = .started i effect effect.context := by
  cases hm with
  | launches => exact ⟨rfl, rfl, rfl, (Option.some.inj h).symm⟩
  | _ => cases h

end

section
variable {runner : DeliveryRunner} {s s' : State} {input : Input} {seen : Option Observation}
  (hs : Steps runner s input s' seen)
include hs

/-- **A call is started** by a task at `launching`; the store stays. -/
theorem Steps.started {i : Nat} {effect : AcceptedEffect} {context : EffectContext}
    (hseen : seen = some (.started i effect context)) :
    s.tasks[i]? = some ⟨effect, .launching⟩ ∧ s'.tasks[i]? = some ⟨effect, .executing⟩ ∧
      s'.store = s.store ∧ context = effect.context := by
  cases hs with
  | quiet | accepted => cases hseen
  | written j _ turns _ tasks =>
    cases turns with
    | resumed _ _ _ _ _ at' moves store =>
      obtain ⟨rfl, hstore, hstage, hobs⟩ := moves.observed hseen
      cases hobs
      refine ⟨at', ?_, store.trans hstore, rfl⟩
      rw [tasks.self, hstage]
    | _ => cases hseen

/-- **A call returns** to its task, which was at it; the store stays. -/
theorem Steps.returned {i : Nat} {effect : AcceptedEffect} {result : JoinResult}
    (hseen : seen = some (.returned i effect result)) : s'.store = s.store ∧
      ∃ stage stage', s.tasks[i]? = some ⟨effect, stage⟩ ∧ stage.running = true ∧
        Written s.tasks s'.tasks i ⟨effect, stage'⟩ ∧ stage'.running = false ∧
        (result = .ok .success → stage' = .committing 0 ∨ stage' = .done) := by
  cases hs with
  | quiet | accepted => cases hseen
  | written j _ turns _ tasks =>
    cases turns with
    | resumed _ _ _ _ _ _ moves =>
      obtain ⟨-, -, -, hobs⟩ := moves.observed hseen
      cases hobs
    | finished _ _ _ stage _ at' finishes store =>
      cases hseen
      refine ⟨store, .executing, stage, at', rfl, tasks, ?_, ?_⟩
      · cases finishes <;> rfl
      · rintro rfl
        cases finishes with
        | delivered => exact .inl rfl
        | retries _ _ failed | givesUp _ _ failed => exact absurd rfl failed
    | unheard _ _ at' store =>
      cases hseen
      exact ⟨store, .detached, .done, at', rfl, tasks, rfl, fun _ => .inr rfl⟩
    | _ => cases hseen

theorem Steps.task (hinv : RunnerInv runner s) {i : Nat} {task : Task}
    (hat : s.tasks[i]? = some task) : ∃ stage', s'.tasks[i]? = some ⟨task.effect, stage'⟩ ∧
      (stage'.early = true → task.stage.early = true) ∧
      (task.stage.running = true → stage'.running = true ∨
        ∃ result, seen = some (.returned i task.effect result)) := by
  obtain ⟨stage', hat'⟩ := hs.persists hat
  obtain ⟨effect, stage⟩ := task
  refine ⟨stage', hat', ?_⟩
  obtain ⟨at', -⟩ | hturns := hs.origin hinv hat'
  · cases hat.symm.trans at'
    exact ⟨fun h => h, .inl⟩
  cases hturns with
  | received _ new | reclaimed _ _ _ _ _ _ _ _ new => cases hat.symm.trans new
  | spawned _ _ at' =>
    cases hat.symm.trans at'
    exact ⟨fun _ => rfl, nofun⟩
  | resumed _ _ _ _ _ at' moves =>
    cases hat.symm.trans at'
    refine ⟨moves.early, fun hr => .inl ?_⟩
    rw [moves.running hr]
    exact hr
  | finished _ result _ _ _ at' finishes =>
    refine ⟨?_, fun _ => .inr ⟨result, rfl⟩⟩
    cases finishes <;> nofun
  | unheard result => exact ⟨nofun, fun _ => .inr ⟨result, rfl⟩⟩
  | aborted _ _ _ at' =>
    cases hat.symm.trans at'
    cases stage with
    | admitting => exact ⟨fun h => h, nofun⟩
    | executing | detached => exact ⟨nofun, fun _ => .inl rfl⟩
    | _ => exact ⟨nofun, nofun⟩

end

/-! ## Settled scopes -/

/-- The effect was delivered, and can be seen to be. -/
def Settled (runner : DeliveryRunner) (s : State) (effect : AcceptedEffect) : Prop :=
  Holding runner s.store effect true ∨
    Holding runner s.store effect false ∧ InState s.store effect.id .inFlight ∧
      ∀ (j : Nat) (task : Task), s.tasks[j]? = some task → task.effect.id = effect.id →
        task.stage.busy = true → ∃ round, task.stage = .committing round

section
variable {runner : DeliveryRunner} {s s' : State} {input : Input} {seen : Option Observation}
  {store : InMemoryEffectStore} {effect effect' : AcceptedEffect}

/-- Two copies of an effect have one scope and one fingerprint. -/
theorem Known.same (runner : DeliveryRunner) (hk : Known store effect)
    (hk' : Known store effect') (hid : effect.id = effect'.id) : effect.scope = effect'.scope ∧
      effect.fingerprint runner.sha256 = effect'.fingerprint runner.sha256 := by
  obtain ⟨record, hat, htenant, hdescription⟩ := hk
  obtain ⟨record', hat', htenant', hdescription'⟩ := hk'
  rw [← hid, hat] at hat'
  obtain rfl := Option.some.inj hat'
  have ht : effect.tenant = effect'.tenant := htenant.symm.trans htenant'
  have hd : effect.description = effect'.description := hdescription.symm.trans hdescription'
  unfold AcceptedEffect.scope AcceptedEffect.fingerprint
  rw [ht, hd]
  exact ⟨rfl, rfl⟩

/-- Who holds a scope is one effect, in one state of delivery. -/
theorem Holding.unique {b b' : Bool} (hh : Holding runner store effect b)
    (hh' : Holding runner store effect' b') (hscope : effect.scope = effect'.scope) :
    effect.id = effect'.id ∧ b = b' := by
  have h : store.dedup.lookup effect.scope =
      some ⟨effect.id, effect.fingerprint runner.sha256, b⟩ := hh
  have h' : store.dedup.lookup effect'.scope =
      some ⟨effect'.id, effect'.fingerprint runner.sha256, b'⟩ := hh'
  rw [hscope, h'] at h
  have heq := Option.some.inj h
  exact ⟨(congrArg ReservationRecord.effectId heq).symm,
    (congrArg ReservationRecord.succeeded heq).symm⟩

variable {i : Nat} {stage : Stage}

/-- **Nobody starts a call** for a scope that is settled. -/
theorem Settled.not_launching (hset : Settled runner s effect) (hinv : RunnerInv runner s)
    (hat : s.tasks[i]? = some ⟨effect', .launching⟩) : effect'.scope ≠ effect.scope := by
  intro hscope
  have hheld := (hinv.tasks i _ hat).holds rfl
  obtain hmarked | ⟨hheld', -, hothers⟩ := hset
  · have hb := (hheld.unique hmarked hscope).2
    cases hb
  · have hid := (hheld.unique hheld' hscope).1
    obtain ⟨round, hstage⟩ := hothers i _ hat hid rfl
    cases hstage

variable (hs : Steps runner s input s' seen) (hinv : RunnerInv runner s)
include hs hinv

/-- The reservation stays marked, is marked, or stays as it is with its effect in
flight. -/
theorem Steps.settled_store (hknown : Known s.store effect) (hset : Settled runner s effect) :
    Holding runner s'.store effect true ∨ Holding runner s.store effect false ∧
      Holding runner s'.store effect false ∧ InState s'.store effect.id .inFlight := by
  cases hs.writes with
  | nothing store =>
    rw [store]
    exact hset.imp id fun h => ⟨h.1, h.1, h.2.1⟩
  | accepted id record new _ _ _ store =>
    rw [store]
    refine hset.imp (fun h => h) fun ⟨hheld, hstate, _⟩ =>
      ⟨hheld, hheld, (Touches.insert record new).inState ?_ hstate⟩
    rintro rfl
    obtain ⟨r, hr, -⟩ := hstate
    cases new.symm.trans hr
  | reclaimed _ copy _ record _ _ found isOpen store =>
    rw [store]
    have htouch : Touches s.store copy.id
      (s.store.put copy.id { record with state := .inFlight }) :=
      .put _ found rfl rfl
    refine hset.imp (fun h => h) fun ⟨hheld, hstate, _⟩ => ⟨hheld, hheld, htouch.inState ?_ hstate⟩
    intro hid
    rw [← hid] at found
    simp [← hstate.unique ⟨record, found, rfl⟩] at isOpen
  | resumed i _ other stage _ _ at' moves store =>
    rw [store]
    have hi := hinv.tasks i _ at'
    have htouch := moves.touches hi
    by_cases hid : other.id = effect.id
    swap
    · exact hset.imp (htouch.holding (Ne.symm hid)) fun ⟨hheld, hstate, _⟩ =>
        ⟨hheld, htouch.holding (Ne.symm hid) hheld, htouch.inState (Ne.symm hid) hstate⟩
    obtain ⟨hscope, hfp⟩ := (hinv.known other (mem_effects_of_task at')).same runner hknown hid
    have hcommits : Holding runner (s.store.putReservation other.scope
        ⟨other.id, other.fingerprint runner.sha256, true⟩) effect true := by
      unfold Holding
      rw [← hscope, ← hid, ← hfp]
      exact InMemoryEffectStore.lookup_putReservation_self s.store other.scope _
    obtain hmarked | ⟨hheld, hstate, hothers⟩ := hset
    · cases moves with
      | reserves _ free =>
        rw [hscope] at free
        cases free.symm.trans hmarked
      | commits => exact .inl hcommits
      | releases => cases ((hi.holds rfl).unique hmarked hscope).2
      | _ => exact .inl hmarked
    · by_cases hbusy : stage.busy = true
      · -- it is at `commit_success`, and marks the reservation
        obtain ⟨round, rfl⟩ : ∃ round, stage = .committing round := hothers i _ at' hid hbusy
        cases moves with
        | waits => exact .inr ⟨hheld, hheld, hstate⟩
        | commits => exact .inl hcommits
      · -- it is not busy, and the effect is not to be had
        cases moves with
        | waits | refused => exact .inr ⟨hheld, hheld, hstate⟩
        | marks _ record found isOpen =>
          rw [hid] at found
          simp [← hstate.unique ⟨record, found, rfl⟩] at isOpen
        | _ => exact absurd rfl hbusy

/-- **What is settled stays settled.** -/
theorem Steps.settled (hknown : Known s.store effect) (hset : Settled runner s effect) :
    Settled runner s' effect := by
  obtain hmarked | ⟨hwas, hheld, hflight⟩ := hs.settled_store hinv hknown hset
  · exact .inl hmarked
  obtain hbefore | ⟨-, hstate, hothers⟩ := hset
  · cases (hwas.unique hbefore rfl).2
  -- nobody can mark the effect in flight once more
  have hclosed : ∀ record, s.store.states.lookup effect.id = some record →
      ¬ (record.state = .pending ∨ record.state = .retryableFailed) := by
    intro record hat hopen
    simp [← hstate.unique ⟨record, hat, rfl⟩] at hopen
  refine .inr ⟨hheld, hflight, ?_⟩
  refine hs.each_task (P := fun task => task.effect.id = effect.id → task.stage.busy = true →
    ∃ round, task.stage = .committing round) hinv ?_ ?_ ?_ ?_ ?_ ?_ ?_ hothers
  · intro task hidle _ hbusy
    rw [hidle] at hbusy
    cases hbusy
  · intro task _ _ hp
    exact hp
  · intro copy due record _ _ hat hopen _ hid _
    rw [← hid] at hclosed
    exact absurd hopen (hclosed record hat)
  · intro other _ hp hid _
    obtain ⟨round, hstage⟩ := hp hid rfl
    cases hstage
  · intro i draw other stage o _ hat hm hstore hp hid hbusy
    by_cases hwasBusy : stage.busy = true
    · obtain ⟨round, rfl⟩ : ∃ round, stage = .committing round := hp hid hwasBusy
      cases hm with
      | waits => exact ⟨round, rfl⟩
      | commits =>
        -- then the reservation would be marked
        have hscope := ((hinv.known other (mem_effects_of_task hat)).same runner hknown hid).1
        have hmarks : Holding runner s'.store other true := by
          rw [hstore]
          exact InMemoryEffectStore.lookup_putReservation_self s.store other.scope _
        cases (hmarks.unique hheld hscope).2
    · obtain hb | ⟨record, hrecord, hopen⟩ := hm.busy hbusy
      · exact absurd hb hwasBusy
      · change other.id = effect.id at hid
        rw [hid] at hrecord
        exact absurd hopen (hclosed record hrecord)
  · intro i draw result other stage _ _ _ hp hid _
    obtain ⟨round, hstage⟩ := hp hid rfl
    cases hstage
  · intro other stage _ hp hid hbusy
    obtain ⟨round, rfl⟩ : ∃ round, stage = .committing round :=
      hp hid (Stage.busy_of_aborted hbusy)
    cases hbusy

/-- **A delivery settles its scope.** -/
theorem Steps.settles (hseen : seen = some (.returned i effect (.ok .success))) :
    Settled runner s' effect := by
  obtain ⟨hstore, stage, stage', hat, hrunning, htasks, -, hsuccess⟩ := hs.returned hseen
  have hi := hinv.tasks i _ hat
  have hholds := Stage.holds_of_running hrunning
  have hbusy : stage.busy = true := Stage.busy_of_holds hholds
  have howns : stage.owns = true := by
    apply Stage.owns_of_busy hbusy
    rintro rfl
    cases hrunning
  unfold Settled
  rw [hstore]
  refine .inr ⟨hi.holds hholds, hi.owns howns, ?_⟩
  intro j task hj hid hb
  obtain ⟨rfl, rfl⟩ | ⟨hne, hold⟩ := htasks.cases hj
  · obtain rfl | rfl := hsuccess rfl
    · exact ⟨0, rfl⟩
    · cases hb
  · exact absurd hid (hinv.others hat hbusy j task hne hold hb)

end

/-! ## Calls of a run -/

/-- **What is known of the executor calls** of a run `h` that ends in `s`. -/
structure Calls (runner : DeliveryRunner) (h : History) (s : State) : Prop where
  settled : ∀ t ∈ h, ∀ effect, Delivers t effect →
    Known s.store effect ∧ Settled runner s effect
  launched : ∀ t ∈ h, ∀ i effect, Starts t i effect →
    ∃ stage, s.tasks[i]? = some ⟨effect, stage⟩ ∧ stage.early = false
  running : ∀ n i effect, Running h n i effect →
    ∃ stage, s.tasks[i]? = some ⟨effect, stage⟩ ∧ stage.running = true
  /-- A task starts one call. -/
  once : ∀ (m n : Nat) (t u : Event) (i : Nat) (effect effect' : AcceptedEffect),
    h[m]? = some t → h[n]? = some u → Starts t i effect → Starts u i effect' → m = n
  final : ∀ (m n : Nat) (t u : Event) (i : Nat) (effect effect' : AcceptedEffect),
    h[m]? = some t → Delivers t effect → m < n → h[n]? = some u → Starts u i effect' →
    effect'.scope ≠ effect.scope

section
variable {runner : DeliveryRunner} {h : History} {s s' : State} {input : Input}
  {seen : Option Observation}

theorem Calls.step (hc : Calls runner h s) (hinv : RunnerInv runner s)
    (hs : Steps runner s input s' seen) : Calls runner (h ++ [⟨s, input, seen, s'⟩]) s' := by
  obtain ⟨id, htouch⟩ := hs.touches hinv
  refine ⟨?_, ?_, ?_, ?_, ?_⟩
  · intro t ht effect hdel
    obtain ht | rfl := mem_snoc ht
    · obtain ⟨hknown, hset⟩ := hc.settled t ht effect hdel
      exact ⟨htouch.known hknown, hs.settled hinv hknown hset⟩
    · obtain ⟨i, hseen⟩ := hdel
      obtain ⟨-, stage, -, hat, -⟩ := hs.returned hseen
      have hmem : effect ∈ s.effects := mem_effects_of_task hat
      exact ⟨htouch.known (hinv.known effect hmem), hs.settles hinv hseen⟩
  · intro t ht i effect hstart
    obtain ht | rfl := mem_snoc ht
    · obtain ⟨stage, hat, hlate⟩ := hc.launched t ht i effect hstart
      obtain ⟨stage', hat', hearly, -⟩ := hs.task hinv hat
      refine ⟨stage', hat', ?_⟩
      cases he : stage'.early with
      | false => rfl
      | true =>
        have hwas : stage.early = true := hearly he
        rw [hlate] at hwas
        cases hwas
    · exact ⟨.executing, (hs.started hstart).2.1, rfl⟩
  · intro n i effect ⟨⟨t, hn, hstart⟩, hgoes⟩
    obtain ⟨-, rfl⟩ | hold := getElem?_concat_cases hn
    · exact ⟨.executing, (hs.started hstart).2.1, rfl⟩
    · have hlt : n < h.length := (List.getElem?_eq_some_iff.mp hold).1
      have hbefore : Running h n i effect := by
        refine ⟨⟨t, hold, hstart⟩, ?_⟩
        intro m hm u hu
        apply hgoes m hm u
        rw [List.getElem?_append_left (List.getElem?_eq_some_iff.mp hu).1]
        exact hu
      obtain ⟨stage, hat, hrunning⟩ := hc.running n i effect hbefore
      obtain ⟨stage', hat', -, hnext⟩ := hs.task hinv hat
      obtain hr | ⟨result, hseen⟩ := hnext hrunning
      · exact ⟨stage', hat', hr⟩
      · -- the last transition would be its return
        have hreturns : Returns ⟨s, input, seen, s'⟩ i := ⟨effect, result, hseen⟩
        exact absurd hreturns (hgoes h.length hlt _ (by simp))
  · intro m n t u i effect effect' hm hn ht hu
    obtain ⟨rfl, rfl⟩ | hm' := getElem?_concat_cases hm
    · obtain ⟨rfl, -⟩ | hn' := getElem?_concat_cases hn
      · rfl
      · obtain ⟨stage, hat, hlate⟩ := hc.launched u (List.mem_of_getElem? hn') i effect' hu
        rw [(hs.started ht).1] at hat
        cases hat
        cases hlate
    · obtain ⟨rfl, rfl⟩ | hn' := getElem?_concat_cases hn
      · obtain ⟨stage, hat, hlate⟩ := hc.launched t (List.mem_of_getElem? hm') i effect ht
        rw [(hs.started hu).1] at hat
        cases hat
        cases hlate
      · exact hc.once m n t u i effect effect' hm' hn' ht hu
  · intro m n t u i effect effect' hm hdel hlt hn hstart
    have hm' : h[m]? = some t := by
      obtain ⟨rfl, -⟩ | hm' := getElem?_concat_cases hm
      · have hlen := (List.getElem?_eq_some_iff.mp hn).1
        rw [List.length_append, List.length_singleton] at hlen
        omega
      · exact hm'
    obtain ⟨-, rfl⟩ | hn' := getElem?_concat_cases hn
    · have hset := (hc.settled t (List.mem_of_getElem? hm') effect hdel).2
      exact hset.not_launching hinv (hs.started hstart).1
    · exact hc.final m n t u i effect effect' hm' hdel hlt hn' hstart

theorem calls_run (he : (delivery runner).Run h s) : Calls runner h s := by
  refine he.invariant (P := Calls runner) ?_ ?_
  · refine ⟨?_, ?_, ?_, ?_, ?_⟩
    · intro t ht
      cases ht
    · intro t ht
      cases ht
    · rintro n i effect ⟨⟨t, hn, -⟩, -⟩
      cases hn
    · intro m n t u i effect effect' hm
      cases hm
    · intro m n t u i effect effect' hm
      cases hm
  · intro h s input hex hc
    have hinv := runnerInv_run hex
    exact hc.step hinv (steps_step hinv input)

/-- Two calls that run for one scope are one. -/
theorem Calls.single (hc : Calls runner h s) (hinv : RunnerInv runner s) {m n i j : Nat}
    {effect effect' : AcceptedEffect} (hm : Running h m i effect) (hn : Running h n j effect')
    (hscope : effect.scope = effect'.scope) : m = n := by
  obtain ⟨stage, hat, hr⟩ := hc.running m i effect hm
  obtain ⟨stage', hat', hr'⟩ := hc.running n j effect' hn
  have hholds := Stage.holds_of_running hr
  have hholds' := Stage.holds_of_running hr'
  have hheld : Holding runner s.store effect false := (hinv.tasks i _ hat).holds hholds
  have hheld' : Holding runner s.store effect' false := (hinv.tasks j _ hat').holds hholds'
  have hij : i = j := hinv.alone i j _ _ hat hat' (Stage.busy_of_holds hholds)
    (Stage.busy_of_holds hholds') (hheld.unique hheld' hscope).1
  subst hij
  obtain ⟨⟨t, ht, hstart⟩, -⟩ := hm
  obtain ⟨⟨u, hu, hstart'⟩, -⟩ := hn
  exact hc.once m n t u i effect effect' ht hu hstart hstart'

end

/-! ## Where success comes from -/

/-- The task has seen that its scope was delivered. -/
def Stage.proven : Stage → Bool
  | .committing _ => true
  | .recording _ => true
  | .satisfying => true
  | _ => false

/-- The input marks the copy in flight, or tries to. -/
def Marks (s : State) (input : Input) (effect : AcceptedEffect) : Prop :=
  (input = .reclaim ∧ ∃ copy due, s.loop = .reclaiming (copy :: due) ∧ copy.effect = effect) ∨
    ∃ i draw tries, input = .resume i draw ∧ s.tasks[i]? = some ⟨effect, .marking tries⟩

section
variable (s : State) (input : Input) (s' : State) (id : EffectId) (record : EffectRecord)

/-- What happens to the record of `id` in a step, and who does it. -/
inductive Changes : EffectRecord → Prop where
  | kept : Changes record
  | marked (i : Nat) (effect : AcceptedEffect) (stage : Stage) (own : effect.id = id)
      (marks : Marks s input effect)
      (isOpen : record.state = .pending ∨ record.state = .retryableFailed)
      (after : s'.tasks[i]? = some ⟨effect, stage⟩) (owns : stage.owns = true) :
      Changes { record with state := .inFlight }
  | succeeded (i : Nat) (task : Task) (at' : s.tasks[i]? = some task) (own : task.effect.id = id)
      (proven : task.stage.proven = true) (inFlight : record.state = .inFlight) :
      Changes { record with state := .succeeded }
  | retried (i : Nat) (effect : AcceptedEffect) (purpose : Purpose) (attempt : Nat)
      (nextAt : Timestamp) (tries : Nat) (own : effect.id = id)
      (at' : s.tasks[i]? = some ⟨effect, .retrying purpose attempt nextAt tries⟩)
      (inFlight : record.state = .inFlight) : Changes { record with
        state := .retryableFailed, attempt := attempt, nextAt := some nextAt }
  | abandoned (i : Nat) (effect : AcceptedEffect) (reason : TerminalReason) (release : Bool)
      (own : effect.id = id) (at' : s.tasks[i]? = some ⟨effect, .abandoning reason release⟩)
      (after : s'.tasks[i]? = some ⟨effect, if release then .releasing else .done⟩)
      (inFlight : record.state = .inFlight) :
      Changes { record with state := .terminalFailed, terminalReason := some reason }

end

section
variable {runner : DeliveryRunner} {h : History} {s s' : State} {input : Input}
  {seen : Option Observation} {store : InMemoryEffectStore} {now : Timestamp} {i : Nat}
  {effect : AcceptedEffect} {stage : Stage} {o : InMemoryEffectStore × Stage × Option Observation}

theorem Moves.proven (hm : Moves runner store now i effect stage o) (h : o.2.1.proven = true) :
    stage.proven = true ∨ ∃ owner, store.dedup.lookup effect.scope =
      some ⟨owner, effect.fingerprint runner.sha256, true⟩ := by
  cases hm with
  | waits => exact .inl h
  | deliveredBefore _ owner held => exact .inr ⟨owner, held⟩
  | commits => exact .inl rfl
  | abandons _ release => cases release <;> cases h
  | _ => cases h

section
variable (hs : Steps runner s input s' seen)
include hs

theorem Steps.proven (hinv : RunnerInv runner s) {task : Task} (hat : s'.tasks[i]? = some task)
    (hp : task.stage.proven = true) :
    (∃ stage, s.tasks[i]? = some ⟨task.effect, stage⟩ ∧ stage.proven = true) ∨
      seen = some (.returned i task.effect (.ok .success)) ∨
      ∃ owner, s.store.dedup.lookup task.effect.scope =
        some ⟨owner, task.effect.fingerprint runner.sha256, true⟩ := by
  obtain ⟨at', -⟩ | hturns := hs.origin hinv hat
  · exact .inl ⟨task.stage, at', hp⟩
  cases hturns with
  | received | reclaimed | unheard => cases hp
  | spawned _ claimed => cases claimed <;> cases hp
  | resumed _ _ stage _ _ at' moves =>
    obtain hwas | hheld := moves.proven hp
    · exact .inl ⟨stage, at', hwas⟩
    · exact .inr (.inr hheld)
  | finished _ _ _ _ _ _ finishes =>
    cases finishes with
    | delivered => exact .inr (.inl rfl)
    | _ => cases hp
  | aborted _ stage => cases stage <;> cases hp

/-- What a step has to do with a reservation that is there after it. -/
inductive Reservation (runner : DeliveryRunner) (s s' : State) (scope : DedupScope) :
    ReservationRecord → Prop where
  | kept (reservation : ReservationRecord)
      (before : s.store.dedup.lookup scope = some reservation) :
      Reservation runner s s' scope reservation
  | reserved (i : Nat) (effect : AcceptedEffect) (tries : Nat) (own : scope = effect.scope)
      (at' : s.tasks[i]? = some ⟨effect, .reserving tries⟩)
      (after : s'.tasks[i]? = some ⟨effect, .launching⟩)
      (states : s'.store.states = s.store.states) :
      Reservation runner s s' scope ⟨effect.id, effect.fingerprint runner.sha256, false⟩
  | committed (i : Nat) (effect : AcceptedEffect) (round : Nat) (delivered : Bool)
      (own : scope = effect.scope) (at' : s.tasks[i]? = some ⟨effect, .committing round⟩)
      (held : Holding runner s.store effect delivered) :
      Reservation runner s s' scope ⟨effect.id, effect.fingerprint runner.sha256, true⟩

/-- **A reservation was there, or it is a task's own.** -/
theorem Steps.reservation {scope : DedupScope} {r : ReservationRecord}
    (hpost : s'.store.dedup.lookup scope = some r) : Reservation runner s s' scope r := by
  cases hs.writes with
  | nothing store | accepted _ _ _ _ _ _ store | reclaimed _ _ _ _ _ _ _ _ store =>
    rw [store] at hpost
    exact .kept _ hpost
  | resumed i _ effect _ _ _ at' moves store after =>
    rw [store] at hpost
    cases moves with
    | reserves tries =>
      obtain ⟨hscope, rfl⟩ | ⟨-, hold⟩ := lookup_insert_cases hpost
      · exact .reserved i effect tries hscope at' after (by rw [store]; rfl)
      · exact .kept _ hold
    | commits round delivered held =>
      obtain ⟨hscope, rfl⟩ | ⟨-, hold⟩ := lookup_insert_cases hpost
      · exact .committed i effect round delivered hscope at' held
      · exact .kept _ hold
    | releases => exact .kept _ (lookup_erase_some hpost).2
    | _ => exact .kept _ hpost

/-- **A record comes from the one before it**, or it is new. -/
theorem Steps.changes {id : EffectId} {record' : EffectRecord}
    (hpost : s'.store.states.lookup id = some record') :
    (s.store.states.lookup id = none ∧ record'.state = .pending ∧ record'.attempt = 0 ∧
        record'.nextAt = none) ∨
      ∃ record, s.store.states.lookup id = some record ∧ Changes s input s' id record record' := by
  cases hs.writes with
  | nothing store =>
    rw [store] at hpost
    exact .inr ⟨record', hpost, .kept⟩
  | accepted _ _ new pending attempt nextAt store =>
    rw [store] at hpost
    obtain ⟨rfl, rfl⟩ | ⟨-, hold⟩ := lookup_insert_cases hpost
    · exact .inl ⟨new, pending, attempt, nextAt⟩
    · exact .inr ⟨record', hold, .kept⟩
  | reclaimed i copy due record call loop found isOpen store after =>
    right
    rw [store] at hpost
    obtain ⟨rfl, rfl⟩ | ⟨-, hold⟩ := lookup_insert_cases hpost
    · exact ⟨record, found,
        .marked i copy.effect _ rfl (.inl ⟨call, copy, due, loop, rfl⟩) isOpen after rfl⟩
    · exact ⟨record', hold, .kept⟩
  | resumed i draw effect _ _ call at' moves store after =>
    right
    rw [store] at hpost
    cases moves with
    | marks tries record found isOpen =>
      obtain ⟨rfl, rfl⟩ | ⟨-, hold⟩ := lookup_insert_cases hpost
      · exact ⟨record, found,
          .marked i effect _ rfl (.inr ⟨i, draw, tries, call, at'⟩) isOpen after rfl⟩
      · exact ⟨record', hold, .kept⟩
    | records _ record found inFlight | satisfies record found inFlight =>
      obtain ⟨rfl, rfl⟩ | ⟨-, hold⟩ := lookup_insert_cases hpost
      · exact ⟨record, found, .succeeded i _ at' rfl rfl inFlight⟩
      · exact ⟨record', hold, .kept⟩
    | retries purpose attempt nextAt tries record found inFlight =>
      obtain ⟨rfl, rfl⟩ | ⟨-, hold⟩ := lookup_insert_cases hpost
      · exact ⟨record, found, .retried i effect purpose attempt nextAt tries rfl at' inFlight⟩
      · exact ⟨record', hold, .kept⟩
    | abandons reason release record found inFlight =>
      obtain ⟨rfl, rfl⟩ | ⟨-, hold⟩ := lookup_insert_cases hpost
      · exact ⟨record, found, .abandoned i effect reason release rfl at' after inFlight⟩
      · exact ⟨record', hold, .kept⟩
    | _ => exact ⟨record', hpost, .kept⟩

/-- A record stays in the store, changed or not. -/
theorem Steps.changed (hinv : RunnerInv runner s) {id : EffectId} {record : EffectRecord}
    (hat : s.store.states.lookup id = some record) :
    ∃ record', s'.store.states.lookup id = some record' ∧ Changes s input s' id record record' := by
  obtain ⟨other, htouch⟩ := hs.touches hinv
  obtain ⟨record', hpost, -⟩ := htouch.content id record hat
  refine ⟨record', hpost, ?_⟩
  obtain ⟨hnew, -⟩ | ⟨r, hr, hc⟩ := hs.changes hpost
  · rw [hat] at hnew
    cases hnew
  · obtain rfl : record = r := Option.mem_unique hat hr
    exact hc

end

theorem Delivered.later {scope : DedupScope} {fingerprint : EffectFingerprint} {t : Event}
    (hd : Delivered runner h scope fingerprint) :
    Delivered runner (h ++ [t]) scope fingerprint := by
  obtain ⟨u, hu, hrest⟩ := hd
  exact ⟨u, List.mem_append_left _ hu, hrest⟩

/-- **Nobody knows of a delivery that was none.** -/
structure Earned (runner : DeliveryRunner) (h : History) (s : State) : Prop where
  reserved : ∀ scope r, s.store.dedup.lookup scope = some r → r.succeeded = true →
    Delivered runner h scope r.fingerprint
  tasks : ∀ (i : Nat) (task : Task), s.tasks[i]? = some task → task.stage.proven = true →
    Delivered runner h task.effect.scope (task.effect.fingerprint runner.sha256)
  succeeded : ∀ id record, s.store.states.lookup id = some record → record.state = .succeeded →
    Delivered runner h (record.effect id).scope ((record.effect id).fingerprint runner.sha256)

theorem Earned.step (hd : Earned runner h s) (hinv : RunnerInv runner s)
    (hs : Steps runner s input s' seen) : Earned runner (h ++ [⟨s, input, seen, s'⟩]) s' := by
  refine ⟨?_, ?_, ?_⟩
  · intro scope r hat hr
    cases hs.reservation hat with
    | kept r before => exact (hd.reserved scope r before hr).later
    | reserved => cases hr
    | committed i _ _ _ own at' =>
      subst own
      exact (hd.tasks i _ at' rfl).later
  · intro i task hat hp
    obtain ⟨stage, hold, hwas⟩ | hseen | ⟨owner, hheld⟩ := hs.proven hinv hat hp
    · exact (hd.tasks i _ hold hwas).later
    · -- its call has just delivered
      exact ⟨_, List.mem_append_right _ (List.mem_singleton_self _), task.effect, ⟨i, hseen⟩, rfl,
        rfl⟩
    · exact (hd.reserved _ _ hheld rfl).later
  · intro id record hat hr
    obtain ⟨-, hpending, -⟩ | ⟨old, hold, hc⟩ := hs.changes hat
    · cases hpending.symm.trans hr
    have hrecord : Known s'.store (record.effect id) := ⟨record, hat, rfl, rfl⟩
    cases hc with
    | kept => exact (hd.succeeded id record hold hr).later
    | succeeded i task htask own hp =>
      -- the record is of the task's effect
      subst own
      obtain ⟨other, htouch⟩ := hs.touches hinv
      have hmem : task.effect ∈ s.effects := mem_effects_of_task htask
      have hknown : Known s'.store task.effect := htouch.known (hinv.known _ hmem)
      obtain ⟨hscope, hfp⟩ := hrecord.same runner hknown rfl
      rw [hscope, hfp]
      exact (hd.tasks i task htask hp).later
    | _ => cases hr

theorem earned_run (he : (delivery runner).Run h s) : Earned runner h s := by
  refine he.invariant (P := Earned runner) ?_ ?_
  · refine ⟨?_, ?_, ?_⟩
    · intro scope r hat
      cases hat
    · intro i task hat
      cases hat
    · intro id record hat
      cases hat
  · intro h s input hex hd
    have hinv := runnerInv_run hex
    exact hd.step hinv (steps_step hinv input)

end

/-! ## One delivery -/

/-- **One delivery per scope**, in every run of a runner. -/
theorem one_delivery {runner : DeliveryRunner} {h : History} {s : State}
    (he : (delivery runner).Exec (delivery runner).init h s) : OneDelivery runner h s where
  single := by
    intro m n i j effect effect' hm hn hscope
    exact (calls_run he).single (runnerInv_run he) hm hn hscope
  final := (calls_run he).final
  earned := (earned_run he).succeeded

def mailRunner : DeliveryRunner where
  registry := ["mail"]
  retry := ⟨⟨1, 0, 0⟩, ∅⟩
  concurrency := 2
  sha256 := id

/-- The same mail is accepted twice; the second is put off until the first is delivered. -/
def sameMailTwice : List Input :=
  [.accept ⟨"a"⟩ sampleTenant sampleMail, .accept ⟨"b"⟩ sampleTenant sampleMail, .send 0, .send 0,
    .recv, .permit, .recv, .permit, .resume 0 0, .resume 0 0, .resume 1 0, .resume 1 0,
    .resume 0 0, .resume 1 0, .finish 0 (.ok .success) 0, .resume 0 0, .resume 0 0,
    .claim .stored, .reclaim, .permit, .resume 2 0, .resume 2 0]

/-- One executor call starts in that run, and both effects are `Succeeded`. -/
theorem one_delivery_shared :
    ((delivery mailRunner).trace (delivery mailRunner).init sameMailTwice).filterMap
        (fun t => t.output) =
        [.started 0 ⟨⟨"a"⟩, sampleTenant, 0, sampleMail⟩
            ⟨⟨"a"⟩, sampleTenant, 1, sampleMail.idempotencyKey⟩,
          .returned 0 ⟨⟨"a"⟩, sampleTenant, 0, sampleMail⟩ (.ok .success)] ∧
      [(⟨"a"⟩ : EffectId), ⟨"b"⟩].map (fun id =>
        (((delivery mailRunner).after (delivery mailRunner).init sameMailTwice).store.states.lookup
          id).map EffectRecord.state) = [some .succeeded, some .succeeded] ∧
      OneDelivery mailRunner
        ((delivery mailRunner).trace (delivery mailRunner).init sameMailTwice)
        ((delivery mailRunner).after (delivery mailRunner).init sameMailTwice) :=
  ⟨by decide, by decide, one_delivery (Machine.exec_trace _ _ _)⟩

end EgoRs.Effects
