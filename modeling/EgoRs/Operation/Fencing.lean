import EgoRs.Operation.Lifecycle

/-! # Fencing on the In-Memory Store

A fence is dead once it was superseded by a takeover or ended by its own
`complete` or `abandon`. Tokens are counted in the record, and deleting
the record forgets the count: the next reservation of the id starts over
at the first token. A dead fence therefore stays dead exactly as long as
no `reserve` mints the same triple again.

- `coming_back_revives_fence`: one owner reserves, abandons, reserves
  again and its first fence works
- `dead_fence_stays_dead`: in every run that never mints a fence twice, a
  dead fence is refused forever
-/

namespace EgoRs.Memory

open Framework

/-! ### Histories -/

/-- `fence` was granted in the history. -/
def WasGranted (h : History) (fence : OwnerFence) : Prop :=
  ∃ t ∈ h, t.output.Grants fence

/-- The transition supersedes or ends `fence`. -/
def Kills (t : Transition Records Input Reply) (fence : OwnerFence) : Prop :=
  t.output.TakesOver fence.operationId ∨
    Completes t.input.call t.output fence ∨ Abandons t.input.call t.output fence

/-- `fence` was granted, and later superseded by a takeover of its id or ended
by a successful `complete` or `abandon`. -/
def Dead (h : History) (fence : OwnerFence) : Prop :=
  ∃ h₁ t h₂, h = h₁ ++ t :: h₂ ∧ WasGranted h₁ fence ∧ Kills t fence

/-- No `renew`, `complete` or `abandon` under a dead fence succeeds, anywhere
in the history. -/
def FencingPermanent (h : History) : Prop :=
  ∀ h₁ t h₂ fence, h = h₁ ++ t :: h₂ → Dead h₁ fence →
    t.input.call.fence? = some fence → t.output ≠ .done

/-- A `reserve` that finds its id free, or finds an expired lease under its
own fingerprint, would not be given a fence that was granted before. -/
def MintsNew (h : History) (t : Transition Records Input Reply) : Prop :=
  ∀ req, t.input.call = .reserve req →
    (t.pre.lookup req.operationId = none →
      ¬ WasGranted h ⟨req.operationId, req.ownerId, .initial⟩) ∧
    (∀ owner token token' lease,
      t.pre.lookup req.operationId = some ⟨req.fingerprint, .inProgress owner token lease⟩ →
      lease ≤ t.input.now → token.next = some token' →
      ¬ WasGranted h ⟨req.operationId, req.ownerId, token'⟩)

instance (h : History) (fence : OwnerFence) : Decidable (WasGranted h fence) :=
  inferInstanceAs (Decidable (∃ t ∈ h, t.output.Grants fence))

/-- One owner reserves, abandons, reserves again, and renews under the fence
it abandoned. -/
def comingBack : List Input :=
  [⟨0, .reserve (sampleRequest "a" "f" 10), .stored⟩,
    ⟨1, .abandon (sampleFence "a" 1), .stored⟩,
    ⟨2, .reserve (sampleRequest "a" "f" 20), .stored⟩,
    ⟨3, .renew (sampleFence "a" 1) 30, .stored⟩]

theorem coming_back_revives_fence :
    ∃ h records, store.Exec store.init h records ∧ ClockMonotone h ∧ ¬ FencingPermanent h := by
  refine ⟨_, _, store.exec_trace store.init comingBack, by decide, ?_⟩
  intro hperm
  -- the second grant minted the abandoned fence again, so the renewal is Ok
  have hdead : Dead (store.trace store.init (comingBack.take 3)) (sampleFence "a" 1) :=
    ⟨[_], _, [_], rfl, by decide, Or.inr (Or.inr ⟨rfl, by decide⟩)⟩
  exact hperm _ _ [] _ rfl hdead rfl (by decide)

section
variable {h : History} {t : Transition Records Input Reply} {fence : OwnerFence}

theorem WasGranted.append (hg : WasGranted h fence) (k : History) : WasGranted (h ++ k) fence := by
  obtain ⟨u, hu, hgrants⟩ := hg
  exact ⟨u, List.mem_append_left k hu, hgrants⟩

theorem Dead.wasGranted (hd : Dead h fence) : WasGranted h fence := by
  obtain ⟨h₁, u, h₂, rfl, hg, -⟩ := hd
  exact hg.append _

/-- A fence dead after one more step was dead already, or that step killed it. -/
theorem dead_snoc (hd : Dead (h ++ [t]) fence) :
    Dead h fence ∨ (WasGranted h fence ∧ Kills t fence) := by
  obtain ⟨h₁, u, h₂, hh, hg, hk⟩ := hd
  rcases List.eq_nil_or_concat' h₂ with rfl | ⟨l, x, rfl⟩
  · obtain ⟨rfl, hu⟩ := List.append_inj' hh rfl
    have htu : t = u := by simpa using hu
    subst htu
    exact Or.inr ⟨hg, hk⟩
  · have hh' : h ++ [t] = (h₁ ++ u :: l) ++ [x] := by simpa using hh
    obtain ⟨rfl, -⟩ := List.append_inj' hh' rfl
    exact Or.inl ⟨h₁, u, l, rfl, hg, hk⟩

end

/-! ### Dead fences hold no record -/

/-- No record is in progress under a dead fence. -/
def DeadHoldsNothing (h : History) (records : Records) : Prop :=
  ∀ fence, Dead h fence → ∀ fp lease, records.lookup fence.operationId ≠
    some ⟨fp, .inProgress fence.ownerId fence.fencingToken lease⟩

/-- A record in progress under an old fence was so before a step that mints no old fence. -/
theorem held_before {h : History} {t : Transition Records Input Reply} {fence : OwnerFence}
    {fp : OperationFingerprint} {lease : Timestamp}
    (ht : t = store.fire t.pre t.input) (hnew : MintsNew h t) (hold : WasGranted h fence)
    (hpost : t.post.lookup fence.operationId =
      some ⟨fp, .inProgress fence.ownerId fence.fencingToken lease⟩) :
    (∃ lease', t.pre.lookup fence.operationId =
      some ⟨fp, .inProgress fence.ownerId fence.fencingToken lease'⟩) ∧ ¬ Kills t fence := by
  obtain ⟨id, heldOwner, heldToken⟩ := fence
  have hc := (step_of_fire ht).change id
  rw [hpost] at hc
  generalize hpre : t.pre.lookup id = before at hc
  cases hc with
  | kept _ hgrant hdone =>
    refine ⟨⟨lease, rfl⟩, ?_⟩
    rintro (⟨l, hout, hid⟩ | ⟨response, hcall, hout⟩ | ⟨hcall, hout⟩)
    · exact hgrant ⟨l, by rw [hout]; rfl, hid⟩
    · exact hdone _ (by rw [hcall]; rfl) rfl hout
    · exact hdone _ (by rw [hcall]; rfl) rfl hout
  | created req hcall hid =>
    -- the new record carries a fence granted before: excluded
    exfalso
    rw [← hid] at hpre
    exact (hnew req hcall).1 hpre (by rw [hid]; exact hold)
  | takenOver req owner token _ lease' hcall hid hexp hnext =>
    exfalso
    rw [← hid] at hpre
    exact (hnew req hcall).2 owner token _ lease' hpre hexp hnext (by rw [hid]; exact hold)
  | renewed _ _ _ lease' _ hcall hreply =>
    refine ⟨⟨lease', rfl⟩, ?_⟩
    rintro (⟨l, hout, -⟩ | ⟨response, hcall', -⟩ | ⟨hcall', -⟩)
    · rw [hreply] at hout
      cases hout
    · rw [hcall] at hcall'
      cases hcall'
    · rw [hcall] at hcall'
      cases hcall'

/-- One step keeps dead fences off the records. -/
theorem deadHoldsNothing_step {h : History} {records : Records} {i : Input}
    (hinv : DeadHoldsNothing h records) (hnew : MintsNew h (store.fire records i)) :
    DeadHoldsNothing (h ++ [store.fire records i]) (store.step records i).1 := by
  intro fence hdead fp lease hpost
  rcases dead_snoc hdead with hbefore | ⟨hgranted, hkills⟩
  · obtain ⟨⟨lease', hpre⟩, -⟩ := held_before rfl hnew hbefore.wasGranted hpost
    exact hinv fence hbefore fp lease' hpre
  · obtain ⟨-, hnot⟩ := held_before rfl hnew hgranted hpost
    exact hnot hkills

theorem deadHoldsNothing {h : History} {records : Records}
    (he : store.Run h records) (hnew : Along MintsNew h) : DeadHoldsNothing h records := by
  refine Machine.Exec.invariant_along (P := DeadHoldsNothing) ?_ ?_ he hnew
  · rintro fence ⟨h₁, t, h₂, hh, -⟩
    simp at hh
  · intro k records i _ hinv hstep
    exact deadHoldsNothing_step hinv hstep

/-- **Fencing is permanent in every run that never mints a fence twice.** Any
owners, any calls in any order, any clock: a fence that was superseded or
ended is refused by every later `renew`, `complete` and `abandon`. -/
theorem dead_fence_stays_dead {h : History} {records : Records}
    (he : store.Exec store.init h records) (hnew : Along MintsNew h) :
    FencingPermanent h := by
  intro h₁ t h₂ fence hh hdead hcall hdone
  subst hh
  obtain ⟨hbefore, hfire, -⟩ := he.split_at
  have hinv := deadHoldsNothing hbefore hnew.of_append
  obtain ⟨fp, lease, hpre, -⟩ := (step_of_fire hfire).held_of_done hcall hdone
  exact hinv fence hdead fp lease hpre

/-- A lease expires, another owner takes over, and the first owner's renewal
is refused. -/
def displacedOwner : List Input :=
  [⟨0, .reserve (sampleRequest "a" "f" 10), .stored⟩,
    ⟨10, .reserve (sampleRequest "b" "f" 20), .stored⟩,
    ⟨11, .renew (sampleFence "a" 1) 30, .stored⟩]

theorem dead_fence_stays_dead_displaced :
    Dead (store.trace store.init (displacedOwner.take 2)) (sampleFence "a" 1) ∧
      FencingPermanent (store.trace store.init displacedOwner) := by
  refine ⟨⟨[_], _, [], rfl, by decide, Or.inl ⟨_, rfl, rfl⟩⟩, ?_⟩
  refine dead_fence_stays_dead (store.exec_trace store.init displacedOwner) ?_
  refine ((Along.nil.snoc ?_).snoc ?_).snoc ?_
  · rintro req ⟨⟩
    refine ⟨fun _ => by decide, ?_⟩
    intro owner token token' lease hrec
    cases hrec
  · rintro req ⟨⟩
    refine ⟨fun hrec => (by cases hrec), ?_⟩
    intro owner token token' lease hrec hexp hnext
    cases hrec
    cases hnext
    decide
  · rintro req ⟨⟩

end EgoRs.Memory
