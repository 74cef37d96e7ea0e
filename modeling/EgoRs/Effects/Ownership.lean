import EgoRs.Effects.PostgresLeases
import EgoRs.Effects.WorkersRun

/-! # Reservations across Workers

`commit_success` and `release` name a scope and nothing else: no owner, no
worker, no lease. That is enough. A task only gets to them with the
reservation of its own effect in hand, and while it is at work nobody else
is at work for that effect, not even a worker that has claimed it after the
lease: the effect stays in flight, and an effect in flight is not marked
again.
-/

namespace EgoRs.Effects

open Framework

variable {W κ : Type}

/-! ## What is claimed -/

/-- An executor call for effect `id` has returned `Success`. -/
def Acknowledged (h : FleetHistory W κ) (id : EffectId) : Prop :=
  ∃ t ∈ h, ∃ i effect, t.output = some (.returned i effect (.ok .success)) ∧ effect.id = id

/-- **Reservations are handled by their owners.** -/
structure OwnReservations (h : FleetHistory W κ) : Prop where
  /-- A new reservation is not marked. -/
  reserved : ∀ t ∈ h, ∀ scope row, t.pre.tables.dedup.lookup scope = none →
    t.post.tables.dedup.lookup scope = some row → row.reservation.succeeded = false
  /-- One is marked only after a success for the effect that owns it. -/
  marked : ∀ n t, h[n]? = some t → ∀ scope row row',
    t.pre.tables.dedup.lookup scope = some row → t.post.tables.dedup.lookup scope = some row' →
    row.reservation.succeeded = false → row'.reservation.succeeded = true →
    Acknowledged (h.take n) row.reservation.effectId
  /-- Whoever marks or deletes one is dispatching the effect that owns it. -/
  own : ∀ t ∈ h, ∀ scope row, t.pre.tables.dedup.lookup scope = some row →
    t.post.tables.dedup.lookup scope ≠ some row →
    (∃ i draw task, t.input.action = .resume i draw ∧
      t.pre.taskAt (t.input.worker, i) = some task ∧
      task.effect.id = row.reservation.effectId) ∧
    ∀ row', t.post.tables.dedup.lookup scope = some row' →
      row'.reservation.effectId = row.reservation.effectId

/-! ## What a step does to a reservation -/

/-- The reservation of one scope before and after a step. -/
inductive ReservationStep (s : Fleet W κ) (input : WorkerInput W) :
    Option DedupRow → Option DedupRow → Prop where
  | kept (row : Option DedupRow) : ReservationStep s input row row
  | reserved (row : DedupRow) (unmarked : row.reservation.succeeded = false) :
      ReservationStep s input none (some row)
  | committed (i draw round : Nat) (effect : AcceptedEffect) (inspecting : Bool) (row : DedupRow)
      (call : input.action = .resume i draw)
      (at' : s.taskAt (input.worker, i) = some ⟨⟨effect, .committing round⟩, inspecting⟩)
      (owner : effect.id = row.reservation.effectId) :
      ReservationStep s input (some row)
        (some ⟨{ row.reservation with succeeded := true }, some input.wall⟩)
  | released (i draw : Nat) (effect : AcceptedEffect) (stage : Stage) (inspecting : Bool)
      (row : DedupRow) (call : input.action = .resume i draw)
      (at' : s.taskAt (input.worker, i) = some ⟨⟨effect, stage⟩, inspecting⟩)
      (owner : effect.id = row.reservation.effectId) :
      ReservationStep s input (some row) none

section
variable {runner : W → DeliveryRunner} {rules : W → Timestamp → ClaimRules κ}
  {s s' : Fleet W κ} {input : WorkerInput W} {seen : Option Observation}

theorem TaskSteps.reservation {p : W × Nat} {task : Task} {tables' : EffectTables κ}
    (hs : TaskSteps runner rules s input p task tables' seen) (hinv : FleetInv s)
    (scope : DedupScope) :
    ReservationStep s input (s.tables.dedup.lookup scope) (tables'.dedup.lookup scope) := by
  cases hs with
  | resumed draw effect stage inspecting _ tables' _ worker call at' moves =>
    have hat : s.taskAt (input.worker, p.2) = some ⟨⟨effect, stage⟩, inspecting⟩ := by
      rw [worker]
      exact at'
    have hr := hinv.relies p _ at'
    -- only three statements write to the table, each under the task's own scope
    by_cases hscope : scope = effect.scope
    · subst hscope
      cases moves with
      | reserves _ free =>
        rw [free]
        show ReservationStep s input none ((s.tables.dedup.insert effect.scope _).lookup _)
        rw [AList.lookup_insert]
        exact .reserved _ rfl
      | commits round =>
        obtain ⟨row, hrow, howner⟩ := Option.map_eq_some_iff.mp (hr.reserves rfl)
        rw [EffectTables.lookup_commitSuccess_self input.wall hrow, hrow]
        exact .committed p.2 draw round effect inspecting row call hat howner.symm
      | releases =>
        obtain ⟨row, hrow, howner⟩ := Option.map_eq_some_iff.mp (hr.reserves rfl)
        show ReservationStep s input _ ((s.tables.dedup.erase effect.scope).lookup effect.scope)
        rw [AList.lookup_erase, hrow]
        exact .released p.2 draw effect .releasing inspecting row call hat howner.symm
      | _ => exact .kept _
    · have hkept : tables'.dedup.lookup scope = s.tables.dedup.lookup scope := by
        cases moves with
        | reserves => exact AList.lookup_insert_ne hscope
        | commits => exact EffectTables.lookup_commitSuccess_ne s.tables input.wall hscope
        | releases => exact EffectTables.lookup_release_ne s.tables hscope
        | _ => rfl
      rw [hkept]
      exact .kept _
  | _ => exact .kept _

theorem FleetSteps.reservation [DecidableEq W] (hs : FleetSteps runner rules s input s' seen)
    (hinv : FleetInv s) (scope : DedupScope) :
    ReservationStep s input (s.tables.dedup.lookup scope) (s'.tables.dedup.lookup scope) := by
  cases hs with
  | quiet _ dedup =>
    rw [dedup]
    exact .kept _
  | accepted _ _ _ _ tables | crashed _ tables =>
    rw [tables]
    exact .kept _
  | written _ _ steps => exact steps.reservation hinv scope

end

/-! ## Who has been acknowledged -/

/-- The executor call has returned `Success`, and it is not yet recorded. -/
def Stage.confirming : Stage → Bool
  | .committing _ => true
  | .recording _ => true
  | _ => false

theorem Stage.reserves_of_confirming {stage : Stage} (h : stage.confirming = true) :
    stage.reserves = true := by
  cases stage <;> first | rfl | cases h

/-- **Marks are earned**, and so is the way to them. -/
structure Earnings (h : FleetHistory W κ) (s : Fleet W κ) : Prop where
  tasks : ∀ p task, s.taskAt p = some task → task.stage.confirming = true →
    Acknowledged h task.effect.id
  reservations : ∀ scope row, s.tables.dedup.lookup scope = some row →
    row.reservation.succeeded = true → Acknowledged h row.reservation.effectId

theorem Acknowledged.later {h : FleetHistory W κ} {id : EffectId} (ha : Acknowledged h id)
    (t : FleetEvent W κ) : Acknowledged (h ++ [t]) id := by
  obtain ⟨u, hu, hreturned⟩ := ha
  exact ⟨u, List.mem_append_left _ hu, hreturned⟩

section
variable {runner : W → DeliveryRunner} {rules : W → Timestamp → ClaimRules κ}
  {h : FleetHistory W κ} {s s' : Fleet W κ} {input : WorkerInput W} {seen : Option Observation}

/-- A task confirms what it confirmed before, or has just heard. -/
theorem TaskSteps.confirming {p : W × Nat} {task : Task} {tables' : EffectTables κ}
    (hs : TaskSteps runner rules s input p task tables' seen)
    (hconfirming : task.stage.confirming = true) :
    (∃ old, s.taskAt p = some old ∧ old.stage.confirming = true ∧ old.effect = task.effect) ∨
      seen = some (.returned p.2 task.effect (.ok .success)) := by
  cases hs with
  | received | reclaimed => cases hconfirming
  | spawned _ claimed => cases claimed <;> cases hconfirming
  | resumed _ _ stage _ stage' _ _ _ _ at' moves =>
    refine .inl ⟨_, at', ?_, rfl⟩
    cases moves with
    | waits => exact hconfirming
    | commits => rfl
    | refused _ _ _ _ next =>
      cases next with
      | again => rfl
      | _ => cases hconfirming
    | unreserved _ _ _ reserves =>
      rw [Stage.reserves_of_confirming hconfirming] at reserves
      cases reserves
    | settles =>
      unfold Stage.settled at hconfirming
      split at hconfirming <;> cases hconfirming
    | _ => cases hconfirming
  | finished _ _ _ _ _ finishes =>
    cases finishes with
    | delivered => exact .inr rfl
    | _ => cases hconfirming

variable [DecidableEq W]

theorem Earnings.step (he : Earnings h s) (hinv : FleetInv s)
    (hs : FleetSteps runner rules s input s' seen) : Earnings (h ++ [⟨s, input, seen, s'⟩]) s' := by
  refine ⟨?_, ?_⟩
  · intro q task' hq hconfirming
    cases hs with
    | quiet _ _ tasks | accepted _ _ _ _ _ tasks =>
      rw [tasks] at hq
      exact (he.tasks q task' hq hconfirming).later _
    | written p _ steps tasks =>
      rcases taskAt_written tasks hq with ⟨-, rfl⟩ | ⟨-, hold⟩
      · rcases steps.confirming hconfirming with ⟨old, hat, hold, heffect⟩ | hreturned
        · have hack := he.tasks p old hat hold
          rw [heffect] at hack
          exact hack.later _
        · exact ⟨_, List.mem_append_right _ (List.mem_singleton_self _), p.2, task'.effect,
            hreturned, rfl⟩
      · exact (he.tasks q task' hold hconfirming).later _
    | crashed _ _ tasks =>
      exact (he.tasks q task' (tasks q task' hq) hconfirming).later _
  · intro scope row' hrow' hmarked
    have hstep := hs.reservation hinv scope
    generalize hbefore : s.tables.dedup.lookup scope = before at hstep
    rw [hrow'] at hstep
    cases hstep with
    | kept => exact (he.reservations scope row' hbefore hmarked).later _
    | reserved _ unmarked =>
      rw [unmarked] at hmarked
      cases hmarked
    | committed _ _ _ _ _ row _ at' owner =>
      have hack := he.tasks _ _ at' rfl
      show Acknowledged _ row.reservation.effectId
      rw [← owner]
      exact hack.later _

theorem earnings_run (he : (fleet runner rules).Run h s) : Earnings h s := by
  refine he.invariant (P := Earnings) ?_ ?_
  · refine ⟨?_, ?_⟩
    · intro p task hat
      cases hat
    · intro scope row hrow
      cases hrow
  · intro h s input hexec hearned
    exact hearned.step (fleetInv_run hexec) (fleetSteps_step runner rules s input)

theorem fleetSteps_of_fire {t : FleetEvent W κ}
    (hfire : t = (fleet runner rules).fire t.pre t.input) :
    FleetSteps runner rules t.pre t.input t.post t.output := by
  have hstep := fleetSteps_step runner rules t.pre t.input
  have hpost : t.post = (t.pre.step runner rules t.input).1 := congrArg Transition.post hfire
  have houtput : t.output = (t.pre.step runner rules t.input).2 := congrArg Transition.output hfire
  rw [hpost, houtput]
  exact hstep

/-- **Workers handle their own reservations**, with any rules about claims and any
clock readings. -/
theorem ownReservations_run (he : (fleet runner rules).Run h s) : OwnReservations h := by
  -- every step, with the state before it and the history up to it
  have hsteps : ∀ n t, h[n]? = some t → ∀ scope,
      (ReservationStep t.pre t.input (t.pre.tables.dedup.lookup scope)
        (t.post.tables.dedup.lookup scope)) ∧ Earnings (h.take n) t.pre := by
    intro n t hn scope
    obtain ⟨hbefore, hfire, -⟩ := he.split_position hn
    exact ⟨(fleetSteps_of_fire hfire).reservation (fleetInv_run hbefore) scope,
      earnings_run hbefore⟩
  refine ⟨?_, ?_, ?_⟩
  · intro t ht scope row hpre hpost
    obtain ⟨n, hn⟩ := List.mem_iff_getElem?.mp ht
    obtain ⟨hstep, -⟩ := hsteps n t hn scope
    rw [hpre, hpost] at hstep
    cases hstep with
    | reserved _ unmarked => exact unmarked
  · intro n t hn scope row row' hpre hpost hopen hmarked
    obtain ⟨hstep, hearned⟩ := hsteps n t hn scope
    rw [hpre, hpost] at hstep
    cases hstep with
    | kept =>
      rw [hopen] at hmarked
      cases hmarked
    | committed _ _ _ _ _ _ _ at' owner =>
      rw [← owner]
      exact hearned.tasks _ _ at' rfl
  · intro t ht scope row hpre hchanged
    obtain ⟨n, hn⟩ := List.mem_iff_getElem?.mp ht
    obtain ⟨hstep, -⟩ := hsteps n t hn scope
    rw [hpre] at hstep
    generalize hpost : t.post.tables.dedup.lookup scope = after at hstep hchanged
    cases hstep with
    | kept => exact absurd rfl hchanged
    | committed i draw _ _ _ _ call at' owner =>
      refine ⟨⟨i, draw, _, call, at', owner⟩, ?_⟩
      intro row' hrow'
      rw [← Option.some.inj hrow']
    | released i draw _ _ _ _ call at' owner =>
      refine ⟨⟨i, draw, _, call, at', owner⟩, ?_⟩
      intro row' hrow'
      cases hrow'

end

/-! ## Workers over Postgres -/

/-- Any number of workers over one `PostgresEffectStore`, each with its lease. -/
def postgresWorkers (runner : WorkerId → DeliveryRunner) (lease : WorkerId → Int) :
    Machine (Fleet WorkerId Claim) (WorkerInput WorkerId) (Option Observation) :=
  fleet runner fun worker now => PostgresEffectStore.rules ⟨worker, lease worker⟩ now

def mailWorkers : WorkerId → DeliveryRunner := fun _ => ⟨["mail"], ⟨⟨1, 0, 0⟩, ∅⟩, 2, id⟩

/-- `u`'s mail takes longer than its lease. `v` is refused the effect and puts off the same
mail under another id. -/
def mailOutlivesLease : List (WorkerInput WorkerId) :=
  let u (now : Timestamp) (action : Action) : WorkerInput WorkerId := ⟨⟨"u"⟩, now, now, action⟩
  let v (now : Timestamp) (action : Action) : WorkerInput WorkerId := ⟨⟨"v"⟩, now, now, action⟩
  let mail (id : EffectId) : Action := .accept id sampleEffect.tenant sampleEffect.description
  [u 0 (mail ⟨"a"⟩), u 0 (.send 0), u 0 .recv, u 0 .permit, u 0 (.resume 0 0), u 0 (.resume 0 0),
    u 0 (.resume 0 0), v 20 (.claim plainScan), v 20 .reclaim, v 20 (mail ⟨"b"⟩), v 20 (.send 0),
    v 20 .recv, v 20 .permit, v 20 (.resume 0 0), v 20 (.resume 0 0), v 20 (.resume 0 0),
    u 21 (.finish 0 (.ok .success) 0), u 21 (.resume 0 0), v 21 (.resume 0 0), u 21 (.resume 0 0)]

end EgoRs.Effects
