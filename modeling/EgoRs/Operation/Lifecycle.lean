import EgoRs.Operation.MemoryStore

/-! # The Life of One Record

What a call can do to the record of one operation id: nothing, or one of
six moves. `Step.change` projects a `Step` of the whole map to this view,
and the results about runs (fencing, exclusion, replay) go by cases on
`Change` at the id they are about.
-/

namespace EgoRs

/-! ### What a reply says about an id -/

def Reply.Grants (reply : Reply) (fence : OwnerFence) : Prop :=
  reply.granted.map Lease.fence = some fence

instance (reply : Reply) (fence : OwnerFence) : Decidable (reply.Grants fence) :=
  inferInstanceAs (Decidable (_ = _))

/-- The reply grants some lease on `id`. -/
def Reply.GrantsOn (reply : Reply) (id : OperationId) : Prop :=
  ∃ lease, reply.granted = some lease ∧ lease.operationId = id

theorem Reply.not_grantsOn_done (id : OperationId) : ¬ Reply.done.GrantsOn id := by
  rintro ⟨lease, hlease, -⟩
  cases hlease

variable {reply : Reply}

theorem Reply.Grants.grantsOn {fence : OwnerFence} (h : reply.Grants fence) :
    reply.GrantsOn fence.operationId := by
  obtain ⟨lease, hlease, rfl⟩ := Option.map_eq_some_iff.mp h
  exact ⟨lease, hlease, rfl⟩

/-- The reply displaced the lease on `id`. -/
def Reply.TakesOver (reply : Reply) (id : OperationId) : Prop :=
  ∃ lease, reply = .outcome (.takenOver lease) ∧ lease.operationId = id

/-- A successful completion under `fence`. -/
def Completes (call : Call) (reply : Reply) (fence : OwnerFence) : Prop :=
  ∃ response, call = .complete fence response ∧ reply = .done

/-- A successful abandon under `fence`. -/
def Abandons (call : Call) (reply : Reply) (fence : OwnerFence) : Prop :=
  call = .abandon fence ∧ reply = .done

namespace Memory

/-! ### The moves of one record -/

section
variable (now : Timestamp) (call : Call) (reply : Reply) (id : OperationId)

/-- What a call does to the record of `id`, from before to after. -/
inductive Change : Option Record → Option Record → Prop where
  /-- The call is about another id, or it found a reason to do nothing. -/
  | kept (r : Option Record) (hgrant : ¬ reply.GrantsOn id)
      (hdone : ∀ fence, call.fence? = some fence → fence.operationId = id → reply ≠ .done) :
      Change r r
  | created (req : ReserveRequest) (hcall : call = .reserve req) (hid : req.operationId = id)
      (hreply : reply = .outcome (.fresh ⟨id, req.ownerId, .initial, req.leaseUntil⟩)) : Change none
        (some ⟨req.fingerprint, .inProgress req.ownerId .initial req.leaseUntil⟩)
  | takenOver (req : ReserveRequest) (owner : OwnerId) (token token' : FencingToken)
      (lease : Timestamp) (hcall : call = .reserve req) (hid : req.operationId = id)
      (hexp : lease ≤ now) (hnext : token.next = some token')
      (hreply : reply = .outcome (.takenOver ⟨id, req.ownerId, token', req.leaseUntil⟩)) :
      Change (some ⟨req.fingerprint, .inProgress owner token lease⟩)
        (some ⟨req.fingerprint, .inProgress req.ownerId token' req.leaseUntil⟩)
  | renewed (owner : OwnerId) (token : FencingToken) (fp : OperationFingerprint)
      (lease until' : Timestamp) (hcall : call = .renew ⟨id, owner, token⟩ until')
      (hreply : reply = .done) (hlive : now < lease) :
      Change (some ⟨fp, .inProgress owner token lease⟩) (some ⟨fp, .inProgress owner token until'⟩)
  | completed (owner : OwnerId) (token : FencingToken) (fp : OperationFingerprint)
      (lease : Timestamp) (response : StoredServiceResponse)
      (hcall : call = .complete ⟨id, owner, token⟩ response) (hreply : reply = .done)
      (hlive : now < lease) : Change (some ⟨fp, .inProgress owner token lease⟩)
        (some ⟨fp, .completed response now⟩)
  | abandoned (owner : OwnerId) (token : FencingToken) (fp : OperationFingerprint)
      (lease : Timestamp) (hcall : call = .abandon ⟨id, owner, token⟩) (hreply : reply = .done)
      (hlive : now < lease) : Change (some ⟨fp, .inProgress owner token lease⟩) none
  | purged (cutoff : Timestamp) (batch count : Nat) (fp : OperationFingerprint)
      (response : StoredServiceResponse) (at' : Timestamp)
      (hcall : call = .purgeCompletedBefore cutoff batch) (hreply : reply = .purged count)
      (hbefore : at' < cutoff) : Change (some ⟨fp, .completed response at'⟩) none

end

variable {before : Option Record} {fp : OperationFingerprint}

/-- A record in progress after a call was so before, or the call minted its fence. -/
theorem Change.inProgress_after {now : Timestamp} {call : Call} {id : OperationId} {owner : OwnerId}
    {token : FencingToken} {lease : Timestamp}
    (hc : Change now call reply id before (some ⟨fp, .inProgress owner token lease⟩)) :
    (∃ lease', before = some ⟨fp, .inProgress owner token lease'⟩) ∨
    ∃ req, call = .reserve req ∧ req.operationId = id ∧ req.fingerprint = fp ∧ req.ownerId = owner ∧
      ((before = none ∧ token = .initial) ∨
        ∃ owner' token' lease', before = some ⟨fp, .inProgress owner' token' lease'⟩ ∧
          lease' ≤ now ∧ token'.next = some token) := by
  cases hc with
  | kept => exact Or.inl ⟨lease, rfl⟩
  | created req hcall hid => exact Or.inr ⟨req, hcall, hid, rfl, rfl, Or.inl ⟨rfl, rfl⟩⟩
  | takenOver req owner' token' _ lease' hcall hid hexp hnext =>
    exact Or.inr ⟨req, hcall, hid, rfl, rfl, Or.inr ⟨owner', token', lease', rfl, hexp, hnext⟩⟩
  | renewed _ _ _ lease' => exact Or.inl ⟨lease', rfl⟩

variable {response : StoredServiceResponse}

/-- A record completed after a call was completed before, or the call
completed it under the fence that held it. -/
theorem Change.completed_after {now : Timestamp} {call : Call} {id : OperationId} {at' : Timestamp}
    (hc : Change now call reply id before (some ⟨fp, .completed response at'⟩)) :
    before = some ⟨fp, .completed response at'⟩ ∨
    ∃ owner token lease, call = .complete ⟨id, owner, token⟩ response ∧
      before = some ⟨fp, .inProgress owner token lease⟩ := by
  cases hc with
  | kept => exact Or.inl rfl
  | completed owner token _ lease _ hcall => exact Or.inr ⟨owner, token, lease, hcall, rfl⟩

section
variable {records records' : Records} {now : Timestamp} {call : Call} {reply : Reply}

/-- A call that leaves the map as it is and grants nothing keeps every record. -/
private theorem kept_of_refused (id : OperationId) (hgrant : reply.granted = none)
    (hdone : reply ≠ .done) :
    Change now call reply id (records.lookup id) (records.lookup id) := by
  refine .kept _ ?_ fun _ _ _ => hdone
  rintro ⟨lease, hlease, -⟩
  rw [hgrant] at hlease
  cases hlease

theorem Step.change (hs : Step records now call records' reply) (id : OperationId) :
    Change now call reply id (records.lookup id) (records'.lookup id) := by
  cases hs with
  | fresh req habs =>
    by_cases hid : req.operationId = id
    · subst hid
      rw [habs, AList.lookup_insert]
      exact .created req rfl rfl rfl
    · -- the insert is under another id and not seen here
      rw [AList.lookup_insert_ne (Ne.symm hid)]
      refine .kept _ ?_ (by simp [Call.fence?])
      rintro ⟨lease, hlease, hlid⟩
      cases hlease
      exact hid hlid
  | takenOver req owner token token' lease hrec hexp hnext =>
    by_cases hid : req.operationId = id
    · subst hid
      rw [hrec, AList.lookup_insert]
      exact .takenOver req owner token token' lease rfl rfl hexp hnext rfl
    · rw [AList.lookup_insert_ne (Ne.symm hid)]
      refine .kept _ ?_ (by simp [Call.fence?])
      rintro ⟨lease, hlease, hlid⟩
      cases hlease
      exact hid hlid
  | renewed fence until' fp lease hrec hlive =>
    by_cases hid : fence.operationId = id
    · subst hid
      rw [hrec, AList.lookup_insert]
      exact .renewed fence.ownerId fence.fencingToken fp lease until' rfl rfl hlive
    · rw [AList.lookup_insert_ne (Ne.symm hid)]
      exact .kept _ (by rintro ⟨_, ⟨⟩, _⟩) (by rintro _ ⟨⟩ hf; exact absurd hf hid)
  | completed fence response fp lease hrec hlive =>
    by_cases hid : fence.operationId = id
    · subst hid
      rw [hrec, AList.lookup_insert]
      exact .completed fence.ownerId fence.fencingToken fp lease response rfl rfl hlive
    · rw [AList.lookup_insert_ne (Ne.symm hid)]
      exact .kept _ (by rintro ⟨_, ⟨⟩, _⟩) (by rintro _ ⟨⟩ hf; exact absurd hf hid)
  | abandoned fence fp lease hrec hlive =>
    by_cases hid : fence.operationId = id
    · subst hid
      rw [hrec, AList.lookup_erase]
      exact .abandoned fence.ownerId fence.fencingToken fp lease rfl rfl hlive
    · rw [AList.lookup_erase_ne (Ne.symm hid)]
      exact .kept _ (by rintro ⟨_, ⟨⟩, _⟩) (by rintro _ ⟨⟩ hf; exact absurd hf hid)
  | purged cutoff batch ids _ _ helig =>
    rw [lookup_removeAll]
    split
    · next hmem =>
      obtain ⟨fp, response, at', hrec, hbefore⟩ := helig id hmem
      rw [hrec]
      exact .purged cutoff batch ids.length fp response at' rfl rfl hbefore
    · exact kept_of_refused id rfl (by simp)
  | _ => exact kept_of_refused id rfl (by simp)

variable {fence : OwnerFence} {req : ReserveRequest}

/-- A mutator that succeeds found its own fence in progress. -/
theorem Step.held_of_done (hs : Step records now call records' reply)
    (hcall : call.fence? = some fence) (hdone : reply = .done) :
    ∃ fp lease, records.lookup fence.operationId =
      some ⟨fp, .inProgress fence.ownerId fence.fencingToken lease⟩ ∧ now < lease := by
  subst hdone
  cases hs with
  | renewed _ _ fp lease hrec hlive
  | completed _ _ fp lease hrec hlive
  | abandoned _ fp lease hrec hlive =>
    cases hcall
    exact ⟨fp, lease, hrec, hlive⟩

theorem Step.grants_operationId (hs : Step records now (.reserve req) records' reply)
    (hg : reply.Grants fence) : fence.operationId = req.operationId := by
  cases hs with
  | fresh | takenOver =>
    cases hg
    rfl
  | conflict | exhausted | owned | other | succeeded | stale => cases hg

/-- A granted request leaves its record in progress under the fence. -/
theorem Step.record_of_grants (hs : Step records now (.reserve req) records' reply)
    (hg : reply.Grants fence) : records'.lookup fence.operationId = some ⟨req.fingerprint,
      .inProgress fence.ownerId fence.fencingToken req.leaseUntil⟩ := by
  cases hs with
  | fresh | takenOver =>
    cases hg
    exact AList.lookup_insert _
  | conflict | exhausted | owned | other | succeeded | stale => cases hg

/-- A replayed response stands in the record, under the fingerprint asked with. -/
theorem Step.record_of_succeeded
    (hs : Step records now (.reserve req) records' (.outcome (.succeeded response))) :
    ∃ at', records.lookup req.operationId = some ⟨req.fingerprint, .completed response at'⟩ := by
  cases hs with
  | succeeded _ _ at' hrec => exact ⟨at', hrec⟩

/-- Only a `reserve` is answered with a grant. -/
theorem Step.not_grants (hs : Step records now call records' reply)
    (hcall : ∀ req, call ≠ .reserve req) (fence : OwnerFence) : ¬ reply.Grants fence := by
  intro hg
  cases hs with
  | fresh req | takenOver req => exact hcall req rfl
  | conflict | exhausted | owned | other | succeeded | renewed | completed | abandoned | stale
  | purged => cases hg

end

end Memory

end EgoRs
