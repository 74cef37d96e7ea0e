import EgoRs.Service.Dispatch

/-! # Guards That Fail Closed

Which calls get past the guards of a generated method: to the handler, or
to a stored response. A call without an operation key is not reserved
under any enforcement mode; keeping such calls out is left to
`resolve_operation_key` (`service-sdk/src/idempotency/extraction.rs`) at the
transport edge.
-/

namespace EgoRs

/-! ### Enforcement modes -/

inductive IdempotencyEnforcementMode where
  | mandatoryKey
  | compatibility
  deriving DecidableEq

/-- `RuntimeBuilder::validate_idempotency` lets the configuration through. -/
def validateIdempotency (mode : IdempotencyEnforcementMode)
    (reservation : Option ReservationConfig) : Bool :=
  match mode with
  | .mandatoryKey => reservation.isSome
  | .compatibility => true

/-- A handle on a runtime that was built under `mode`. -/
structure BuiltHandle where
  mode : IdempotencyEnforcementMode
  handle : Handle
  validated : validateIdempotency mode handle.runtime.reservation = true

/-- `RawOperationKey`: what an adapter finds where the key belongs. -/
inductive RawOperationKey where
  | absent
  | present (raw : String)
  | unreadable

inductive OperationKeyRejection where
  | missing (carrier : String)
  | invalid (carrier : String) (source : OperationKeyError)
  | unreadable (carrier : String)

def resolveOperationKey (raw : RawOperationKey) (carrier : String)
    (mode : IdempotencyEnforcementMode) : Except OperationKeyRejection (Option OperationKey) :=
  match raw with
  | .present raw => ((OperationKey.parse raw).map some).mapError (.invalid carrier)
  | .unreadable => .error (.unreadable carrier)
  | .absent =>
    match mode with
    | .mandatoryKey => .error (.missing carrier)
    | .compatibility => .ok none

@[simp] theorem mapError_eq_ok {ε ε' α : Type} {x : Except ε α} {f : ε → ε'} {a : α} :
    x.mapError f = .ok a ↔ x = .ok a := by
  cases x <;> simp [Except.mapError]

/-- Only the compatibility mode resolves to no key. -/
theorem compatibility_of_resolved {raw : RawOperationKey} {carrier : String}
    {mode : IdempotencyEnforcementMode} (h : resolveOperationKey raw carrier mode = .ok none) :
    mode = .compatibility := by
  cases raw with
  | present raw =>
    unfold resolveOperationKey at h
    cases hp : OperationKey.parse raw <;> simp [hp, Except.map] at h
  | unreadable => cases h
  | absent =>
    cases mode with
    | mandatoryKey => cases h
    | compatibility => rfl

/-! ### What a call got past -/

section
variable {Out Err Fault : Type} {P : ReservationPort} {plat : Platform}
  {op : OperationDecl Out Err} {handle : Handle} {turn : StoreTurn P} {s s₁ : P.State}
  {ctx ctx' : ServiceContext} {args : Option JsonValue} {decision : Option ReservationDecision}

/-- The provider allowed the declared resource and action for the principal
attached. -/
def Authorized (op : OperationDecl Out Err) (runtime : Runtime) (ctx : ServiceContext) : Prop :=
  ∀ resource action, op.authorize = some (resource, action) →
    ∃ provider security, runtime.authorizationProvider = some provider ∧
      ctx.security = some security ∧
      provider security.principal ⟨⟨resource, none⟩, action⟩ security = .decided .allow

/-- The tenant of `ctx` was resolved, and `ctx'` carries it. -/
def TenantEnforced (op : OperationDecl Out Err) (runtime : Runtime) (ctx ctx' : ServiceContext) :
    Prop :=
  op.tenantScoped = true → ∃ canonical,
    resolve runtime.tenantMode ⟨ctx.security, ctx.tenantId, ctx.allowCrossTenant⟩ = .ok canonical ∧
      ctx'.resolvedTenant = some canonical

/-- What the store decides about the key and arguments of a call in the tenant
its context carries. -/
def Decides (plat : Platform) (runtime : Runtime) (turn : StoreTurn P) (s : P.State)
    (ctx : ServiceContext) (args : Option JsonValue) (decision : ReservationDecision) : Prop :=
  ∃ config resolved key value, runtime.reservation = some config ∧
    ctx.resolvedTenant = some resolved ∧ ctx.operationKey = some key ∧ args = some value ∧
    decideOutcome (P.step s turn.storeClock turn.choice (.reserve (config.request turn
      resolved.tenantId key (operationFingerprint plat.sha256 value)))).2 = .ok decision

theorem authorized_of_ok (h : authorizeGuard op handle ctx = .ok ()) :
    Authorized op handle.runtime ctx := by
  intro resource action hop
  unfold authorizeGuard at h
  rw [hop] at h
  cases hsec : ctx.security with
  | none => simp [hsec] at h
  | some security =>
    by_cases halive : handle.alive .authorize = true
    · cases hprov : handle.runtime.authorizationProvider with
      | none => simp [hsec, Handle.upgrade, halive, hprov] at h
      | some provider =>
        simp only [hsec, Handle.upgrade, halive, if_true, hprov, mapError_eq_ok] at h
        obtain ⟨sec, hsame, hallow⟩ := (authorizeInContext_ok_iff _ _ _ _).mp h
        cases hsame
        exact ⟨provider, security, rfl, rfl, hallow⟩
    · simp [hsec, Handle.upgrade, halive] at h

theorem tenantEnforced_of_ok (h : enforceTenantBlock op handle ctx = .ok ctx') :
    TenantEnforced op handle.runtime ctx ctx' := by
  intro hop
  unfold enforceTenantBlock Handle.upgrade at h
  rw [if_pos hop] at h
  by_cases halive : handle.alive .tenant = true
  · simp only [halive, if_true, mapError_eq_ok] at h
    obtain ⟨canonical, hres, rfl⟩ := enforceTenant_ok h
    exact ⟨canonical, hres, rfl⟩
  · simp [halive] at h

/-- The slot lets a call through with a permit, or because there is no store or
no key. -/
theorem idempotencySlot_ok
    (h : idempotencySlot plat op handle turn s ctx args = (s₁, .ok (ctx', decision))) :
    ctx'.resolvedTenant = ctx.resolvedTenant ∧ (op.idempotent = true →
      (∃ permit, Decides plat handle.runtime turn s ctx args (.proceed permit)) ∨
        handle.runtime.reservation = none ∨ ctx.operationKey = none) := by
  unfold idempotencySlot at h
  by_cases hidem : op.idempotent = true
  · by_cases halive : handle.alive .idempotency = true
    · cases args with
      | none => simp [hidem, Handle.upgrade, halive] at h
      | some value =>
        simp only [hidem, Handle.upgrade, halive, if_true, reserveIdempotentOperation] at h
        cases hconfig : handle.runtime.reservation with
        | none =>
          simp only [hconfig] at h
          cases h
          exact ⟨rfl, fun _ => .inr (.inl rfl)⟩
        | some config =>
          cases hkey : ctx.operationKey with
          | none =>
            simp only [hconfig, hkey] at h
            cases h
            exact ⟨rfl, fun _ => .inr (.inr rfl)⟩
          | some key =>
            cases hten : ctx.resolvedTenant with
            | none => simp [hconfig, hkey, hten] at h
            | some resolved =>
              simp only [hconfig, hkey, hten, ReservationConfig.reserve] at h
              cases hdec : decideOutcome (P.step s turn.storeClock turn.choice
                  (.reserve (config.request turn resolved.tenantId key
                    (operationFingerprint plat.sha256 value)))).2 with
              | error => simp [hdec] at h
              | ok granted =>
                cases granted with
                | replay => simp [hdec] at h
                | proceed permit =>
                  simp only [hdec] at h
                  cases h
                  exact ⟨rfl, fun _ => .inl ⟨permit, config, resolved, key, value, hconfig, hten,
                    hkey, rfl, hdec⟩⟩
    · simp [hidem, Handle.upgrade, halive] at h
  · simp only [hidem, Bool.false_eq_true, if_false] at h
    cases h
    exact ⟨rfl, fun hno => absurd hno hidem⟩

/-- A slot that ends the call with a result gives out what was stored. -/
theorem idempotencySlot_replay {out : Out}
    (h : idempotencySlot plat op handle turn s ctx args = (s₁, .error (.ok out))) :
    ∃ stored, Decides plat handle.runtime turn s ctx args (.replay stored) ∧
      decodeStoredResponse plat.serde op.codec stored = .ok out := by
  rcases idempotencySlot_cases plat op handle turn s ctx args with
    ⟨config, resolved, key, value, hargs, hkey, hten, hconfig, heq⟩ | ⟨_, ⟨e, he⟩ | ⟨c, hc⟩⟩
  · rw [heq] at h
    have hearly := congrArg Prod.snd h
    unfold afterReserve at hearly
    split at hearly
    · cases hearly
    · rename_i stored hdec
      refine ⟨stored, ⟨config, resolved, key, value, hconfig, hten, hkey, hargs, hdec⟩, ?_⟩
      simpa using hearly
    · cases hearly
  · rw [h] at he
    cases he
  · rw [h] at hc
    cases hc

/-- The guards a call has passed when it comes to its slot. -/
theorem prologue_passed {result : Early Out Err (ServiceContext × Option ReservationDecision)}
    (h : prologue plat op handle turn s ctx args = (s₁, result))
    (hpast : ∀ e, result ≠ .error (.error e)) :
    ∃ c, Authorized op handle.runtime ctx ∧ TenantEnforced op handle.runtime ctx c ∧
      c.operationKey = ctx.operationKey ∧
      idempotencySlot plat op handle turn s c args = (s₁, result) := by
  unfold prologue at h
  cases hauth : authorizeGuard op handle (ctx.withOperationName op.method) with
  | error e =>
    simp only [hauth, Prod.mk.injEq] at h
    exact absurd h.2.symm (hpast e)
  | ok =>
    cases hblock : enforceTenantBlock op handle (ctx.withOperationName op.method) with
    | error e =>
      simp only [hauth, hblock, Prod.mk.injEq] at h
      exact absurd h.2.symm (hpast e)
    | ok c =>
      simp only [hauth, hblock] at h
      have hten : TenantEnforced op handle.runtime (ctx.withOperationName op.method) c :=
        tenantEnforced_of_ok hblock
      exact ⟨c, authorized_of_ok hauth, hten,
        (enforceTenantBlock_operationKey hblock :), h⟩

/-- **The guards fail closed.** A handler runs only behind an authorization, in
the tenant that was resolved, and with a permit for that tenant and key, or
without a store under the compatibility mode, or without a key; a result
without the handler is a stored response behind the same guards. A key that
`resolve_operation_key` gave under the mandatory mode is there. -/
theorem guards_fail_closed (plat : Platform) (op : OperationDecl Out Err) (built : BuiltHandle)
    (chain : List (Interceptor Err Fault)) (handler : ServiceContext → Except Err Out)
    (begin finish : StoreTurn P) (meanwhile : P.State → P.State) (s : P.State)
    (ctx : ServiceContext) (args : Option JsonValue) :
    let d := dispatch plat op built.handle chain handler begin finish meanwhile s ctx args
    (∀ ctx', .handler ctx' ∈ d.events →
      Authorized op built.handle.runtime ctx ∧
      TenantEnforced op built.handle.runtime ctx ctx' ∧
      (op.idempotent = true →
        (∃ permit c, c.resolvedTenant = ctx'.resolvedTenant ∧ c.operationKey = ctx.operationKey ∧
          Decides plat built.handle.runtime begin s c args (.proceed permit)) ∨
        (built.handle.runtime.reservation = none ∧ built.mode = .compatibility) ∨
        ctx.operationKey = none)) ∧
    (∀ out, d.result = .ok out → (∀ ctx', .handler ctx' ∉ d.events) →
      Authorized op built.handle.runtime ctx ∧
      ∃ c stored, TenantEnforced op built.handle.runtime ctx c ∧
        c.operationKey = ctx.operationKey ∧
        Decides plat built.handle.runtime begin s c args (.replay stored) ∧
        decodeStoredResponse plat.serde op.codec stored = .ok out) ∧
    (∀ raw carrier, resolveOperationKey raw carrier built.mode = .ok ctx.operationKey →
      ctx.operationKey = none → built.mode = .compatibility) := by
  intro d
  refine ⟨?_, ?_, ?_⟩
  · intro ctx' hran
    rcases hpro : prologue plat op built.handle begin s ctx args with ⟨s₁, result | ⟨c', decision⟩⟩
    · simp [d, dispatch, hpro] at hran
    · -- the handler runs on the context the guards leave
      have hctx : ctx' = c' := by
        have hclosing : .handler ctx' ∉ closing chain c' (handler c') := by
          unfold closing
          split <;> simp
        simpa [d, dispatch, hpro, hclosing] using hran
      subst hctx
      obtain ⟨c, hauth, hten, hkey, hslot⟩ := prologue_passed hpro (by simp)
      obtain ⟨hsame, hpermit⟩ := idempotencySlot_ok hslot
      refine ⟨hauth, ?_, ?_⟩
      · intro hop
        obtain ⟨canonical, hres, hcarried⟩ := hten hop
        exact ⟨canonical, hres, hsame.trans hcarried⟩
      · intro hidem
        rcases hpermit hidem with ⟨permit, hdec⟩ | hnone | hnokey
        · exact .inl ⟨permit, c, hsame.symm, hkey, hdec⟩
        · refine .inr (.inl ⟨hnone, ?_⟩)
          have hvalid := built.validated
          rw [hnone] at hvalid
          cases hmode : built.mode with
          | mandatoryKey => simp [hmode, validateIdempotency] at hvalid
          | compatibility => rfl
        · exact .inr (.inr (hkey ▸ hnokey))
  · intro out hout hnone
    rcases hpro : prologue plat op built.handle begin s ctx args with ⟨s₁, result | ⟨c', decision⟩⟩
    · have hresult : result = .ok out := by simpa [d, dispatch, hpro] using hout
      subst hresult
      obtain ⟨c, hauth, hten, hkey, hslot⟩ := prologue_passed hpro (by simp)
      obtain ⟨stored, hdec, hdecode⟩ := idempotencySlot_replay hslot
      exact ⟨hauth, c, stored, hten, hkey, hdec, hdecode⟩
    · exact absurd (handler_mem_of_admitted hpro) (hnone c')
  · intro raw carrier hkey hnone
    exact compatibility_of_resolved (hnone ▸ hkey)

end

/-- A call without a key on a runtime that demands one: it is not reserved, and
its handler runs. -/
theorem keyless_call_runs :
    ∃ built : BuiltHandle, built.mode = .mandatoryKey ∧
      ∃ d : Dispatched Memory.port Json (SecurityError ⊕ ReservationRejection) String,
        d = dispatch samplePlatform (sampleOperation "place") built.handle []
          (fun _ => .ok (.string "placed")) (sampleTurn 0) (sampleTurn 1) id Memory.port.init
          { sampleContext with operationKey := none } (some ⟨.null, trivial⟩) ∧
        d.result = .ok (.string "placed") ∧ (∃ ctx, .handler ctx ∈ d.events) ∧
        d.store = Memory.port.init :=
  ⟨⟨.mandatoryKey, sampleHandle, rfl⟩, rfl, _, rfl, rfl, ⟨_, List.mem_cons_self⟩, rfl⟩

end EgoRs
