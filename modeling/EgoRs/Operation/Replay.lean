import EgoRs.Operation.Lifecycle

/-! # Replay on the In-Memory Store

A completed record answers every later `reserve` on its id, and only a
purge with a late enough cutoff ends that. The purge itself keeps away
from records in progress and stays within its batch, and the fingerprint
of a record is fixed for as long as the record exists.
-/

namespace EgoRs.Memory

open Framework

/-! ### Statements over a history -/

/-- The transition is a purge that removed the record of `id`, completed at
`completedAt`, its cutoff being strictly greater. -/
def PurgesAway (t : Transition Records Input Reply) (id : OperationId)
    (completedAt : Timestamp) : Prop :=
  ∃ cutoff batch, t.input.call = .purgeCompletedBefore cutoff batch ∧ completedAt < cutoff ∧
    t.pre.lookup id ≠ none ∧ t.post.lookup id = none

/-- After a successful `complete(fence, response)` on a record with
fingerprint `f`, every `reserve` on the id is answered with exactly that
response or with `Conflict`, up to the purge that removes the record. -/
def ReplayStable (h : History) : Prop :=
  ∀ h₁ c h₂ fence response f state,
    h = h₁ ++ c :: h₂ → c.input.call = .complete fence response → c.output = .done →
    c.pre.lookup fence.operationId = some ⟨f, state⟩ →
    ∀ k₁ t k₂ req,
      h₂ = k₁ ++ t :: k₂ → t.input.call = .reserve req → req.operationId = fence.operationId →
      (∀ p ∈ k₁, ¬ PurgesAway p fence.operationId c.input.now) →
      (req.fingerprint = f → t.output = .outcome (.succeeded response)) ∧
      (req.fingerprint ≠ f → t.output = .outcome .conflict)

/-- The ids whose records a transition removed. -/
def removedIds (t : Transition Records Input Reply) : List OperationId :=
  t.pre.keys.filter fun id => (t.post.lookup id).isNone

/-- No purge touches a record in progress or removes more than its batch. -/
def PurgeSafe (h : History) : Prop :=
  ∀ t ∈ h, ∀ cutoff batch, t.input.call = .purgeCompletedBefore cutoff batch →
    (∀ id fp owner token lease,
      t.pre.lookup id = some ⟨fp, .inProgress owner token lease⟩ →
      t.post.lookup id = some ⟨fp, .inProgress owner token lease⟩) ∧
    (removedIds t).length ≤ batch

/-- From any point where the record of `id` is in progress under `fp`, as long
as no step leaves the id without a record, its fingerprint is still `fp`. -/
def FingerprintFixed (h : History) (records : Records) : Prop :=
  ∀ h₁ t h₂ id fp owner token lease,
    h = h₁ ++ t :: h₂ → t.pre.lookup id = some ⟨fp, .inProgress owner token lease⟩ →
    (∀ u ∈ t :: h₂, u.post.lookup id ≠ none) → ∃ state, records.lookup id = some ⟨fp, state⟩

/-! ### Completed records -/

section
variable {t : Transition Records Input Reply} {id : OperationId} {fp : OperationFingerprint}
  {response : StoredServiceResponse} {at' : Timestamp}

/-- One step keeps a completed record, or purges it away. -/
theorem completed_step (ht : t = store.fire t.pre t.input)
    (hpre : t.pre.lookup id = some ⟨fp, .completed response at'⟩) :
    t.post.lookup id = some ⟨fp, .completed response at'⟩ ∨ PurgesAway t id at' := by
  have hc := (step_of_fire ht).change id
  rw [hpre] at hc
  generalize hpost : t.post.lookup id = after at hc
  cases hc with
  | kept => exact Or.inl rfl
  | purged cutoff batch _ _ _ _ hcall _ hbefore =>
    exact Or.inr ⟨cutoff, batch, hcall, hbefore, by simp [hpre], hpost⟩

/-- A completed record survives every run without such a purge. -/
theorem completed_run {s s' : Records} {h : History} (he : store.Exec s h s')
    (hs : s.lookup id = some ⟨fp, .completed response at'⟩) (hno : ∀ p ∈ h, ¬ PurgesAway p id at') :
    s'.lookup id = some ⟨fp, .completed response at'⟩ := by
  induction he with
  | nil => exact hs
  | @snoc k v i _ ih =>
    have hv := ih fun p hp => hno p (List.mem_append_left _ hp)
    have hlast : ¬ PurgesAway (store.fire v i) id at' := hno _ (by simp)
    exact (completed_step rfl hv).resolve_right hlast

/-- What `reserve` answers from a completed record. -/
theorem reserve_of_completed {records records' : Records} {now : Timestamp} {reply : Reply}
    {req : ReserveRequest} (hs : Step records now (.reserve req) records' reply)
    (hrec : records.lookup req.operationId = some ⟨fp, .completed response at'⟩) :
    reply = if req.fingerprint = fp then .outcome (.succeeded response)
      else .outcome .conflict := by
  cases hs with
  | conflict _ _ hrec' hfp =>
    rw [hrec] at hrec'
    cases hrec'
    rw [if_neg (Ne.symm hfp)]
  | succeeded _ _ _ hrec' =>
    rw [hrec] at hrec'
    cases hrec'
    rw [if_pos rfl]
  | fresh _ habs =>
    rw [hrec] at habs
    cases habs
  | exhausted _ _ _ _ hrec'
  | takenOver _ _ _ _ _ hrec'
  | owned _ _ _ hrec'
  | other _ _ _ _ hrec' =>
    rw [hrec] at hrec'
    cases hrec'
  | stale _ _ hcall => cases hcall

end

variable {h : History} {records : Records}

theorem replayStable (he : store.Run h records) : ReplayStable h := by
  intro h₁ c h₂ fence response f state hh hcall hdone hpre k₁ t k₂ req hk hreq hid hno
  subst hh hk
  obtain ⟨-, hfire, hrest⟩ := he.split_at
  obtain ⟨hmid, hfire', -⟩ := hrest.split_at
  have hdoneRec : c.post.lookup fence.operationId =
      some ⟨f, .completed response c.input.now⟩ := by
    have hs := step_of_fire hfire
    rw [hcall, hdone] at hs
    generalize c.post = after at hs ⊢
    cases hs with
    | completed _ _ _ _ hrec =>
      rw [hpre] at hrec
      cases hrec
      rw [AList.lookup_insert]
  have hkept := completed_run hmid hdoneRec hno
  have hs := step_of_fire hfire'
  rw [hreq] at hs
  rw [← hid] at hkept
  have hreply := reserve_of_completed hs hkept
  constructor
  · intro hf
    rw [hreply, if_pos hf]
  · intro hf
    rw [hreply, if_neg hf]

/-! ### Purges -/

/-- A purge removes at most as many records as it selected. -/
theorem purge_removes_at_most {ids : List OperationId} :
    (records.keys.filter fun id => ((removeAll records ids).lookup id).isNone).length
      ≤ ids.length := by
  have hnodup : (records.keys.filter fun id =>
      ((removeAll records ids).lookup id).isNone).Nodup := records.keys_nodup.filter _
  refine (List.subperm_of_subset hnodup ?_).length_le
  intro id hid
  obtain ⟨hkey, hgone⟩ := List.mem_filter.mp hid
  by_contra hnot
  rw [lookup_removeAll, if_neg hnot, Option.isNone_iff_eq_none, AList.lookup_eq_none] at hgone
  exact hgone (AList.mem_keys.mpr hkey)

theorem purgeSafe (he : store.Run h records) : PurgeSafe h := by
  intro t ht cutoff batch hcall
  obtain ⟨h₁, h₂, rfl⟩ := List.append_of_mem ht
  obtain ⟨-, hfire, -⟩ := he.split_at
  have hs := step_of_fire hfire
  constructor
  · intro id fp owner token lease hpre
    have hc := hs.change id
    rw [hpre] at hc
    generalize t.post.lookup id = after at hc
    cases hc with
    | kept => rfl
    | takenOver _ _ _ _ _ hcall'
    | renewed _ _ _ _ _ hcall'
    | completed _ _ _ _ _ hcall'
    | abandoned _ _ _ _ hcall' =>
      rw [hcall] at hcall'
      cases hcall'
  · rw [hcall] at hs
    unfold removedIds
    generalize t.post = after, t.output = reply at hs ⊢
    cases hs with
    | purged _ _ _ _ hlen => exact le_trans purge_removes_at_most hlen
    | stale _ _ hcall' => cases hcall'

/-! ### Fingerprints -/

variable {fp : OperationFingerprint} {state : RecordState}

theorem fingerprint_run {s s' : Records} (he : store.Exec s h s') {id : OperationId}
    (hs : s.lookup id = some ⟨fp, state⟩) (hstay : ∀ u ∈ h, u.post.lookup id ≠ none) :
    ∃ state', s'.lookup id = some ⟨fp, state'⟩ := by
  induction he with
  | nil => exact ⟨state, hs⟩
  | @snoc k v i _ ih =>
    obtain ⟨state', hv⟩ := ih fun u hu => hstay u (List.mem_append_left _ hu)
    have hpost := hstay (store.fire v i) (by simp)
    have hc := (step_of_fire (t := store.fire v i) rfl).change id
    rw [fire_pre, hv] at hc
    rw [fire_post] at hc hpost
    generalize (store.step v i).1.lookup id = after at hc hpost ⊢
    -- a step that leaves a record on the id leaves its fingerprint
    cases hc with
    | kept | takenOver | renewed | completed => exact ⟨_, rfl⟩
    | abandoned | purged => exact absurd rfl hpost

theorem fingerprintFixed (he : store.Run h records) : FingerprintFixed h records := by
  intro h₁ t h₂ id fp owner token lease hh hpre hstay
  subst hh
  obtain ⟨v, hfirst, hrest⟩ := he.split
  obtain ⟨hbefore, -, -⟩ := he.split_at
  have hv : v = t.pre := hfirst.state_unique hbefore
  subst hv
  exact fingerprint_run hrest hpre hstay

/-- **Replay is stable.** In every run of the store: a completion answers
every later `reserve` on its id until a purge past its completion time
removes it; purges spare records in progress and keep to their batch; and
a record's fingerprint never changes while the record exists. -/
theorem replay_stable_until_purged {h : History} {records : Records}
    (he : store.Exec store.init h records) :
    ReplayStable h ∧ PurgeSafe h ∧ FingerprintFixed h records :=
  ⟨replayStable he, purgeSafe he, fingerprintFixed he⟩

/-- A completion, a replay, a conflicting request, a purge, a fresh start. -/
def replayedThenPurged : List Input :=
  [⟨0, .reserve (sampleRequest "a" "f" 10), .stored⟩,
    ⟨1, .complete (sampleFence "a" 1) ⟨[7]⟩, .stored⟩,
    ⟨50, .reserve (sampleRequest "b" "f" 60), .stored⟩,
    ⟨50, .reserve (sampleRequest "c" "g" 60), .stored⟩,
    ⟨51, .purgeCompletedBefore 2 1, .stored⟩,
    ⟨52, .reserve (sampleRequest "c" "g" 60), .stored⟩]

theorem replay_stable_replayed_then_purged :
    ((store.trace store.init replayedThenPurged).map fun t => t.output) =
      [.outcome (.fresh ⟨sampleId, ⟨"a"⟩, .initial, 10⟩), .done,
        .outcome (.succeeded ⟨[7]⟩), .outcome .conflict, .purged 1,
        .outcome (.fresh ⟨sampleId, ⟨"c"⟩, .initial, 60⟩)] ∧
      ReplayStable (store.trace store.init replayedThenPurged) ∧
      PurgeSafe (store.trace store.init replayedThenPurged) ∧
      FingerprintFixed (store.trace store.init replayedThenPurged)
        (store.after store.init replayedThenPurged) :=
  ⟨by decide, replay_stable_until_purged (store.exec_trace store.init replayedThenPurged)⟩

end EgoRs.Memory
