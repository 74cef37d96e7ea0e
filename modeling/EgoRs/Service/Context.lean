import EgoRs.Operation.Reservation
import EgoRs.Security.Identity

/-! # Service Contexts and Tenant Resolution

`ServiceContext` (`service-sdk/src/context/mod.rs`) with the fields that
dispatch reads, the tenant resolver (`runtime/tenant.rs`), cross-tenant
permits (`runtime/permit.rs`), and the two runtime methods that work on
them: `enforce_tenant` and `issue_cross_tenant_permit`
(`runtime/runtime_builder.rs`).
-/

namespace EgoRs

/-! ### Tenants -/

inductive CanonicalTenant where
  | scoped (tenant : TenantId)
  | systemwide
  deriving DecidableEq

/-- `tenant_id`: `none` in the systemwide mode. -/
def CanonicalTenant.tenantId : CanonicalTenant → Option TenantId
  | .scoped tenant => some tenant
  | .systemwide => none

/-- The established fact that a context may cross into `destination`. -/
structure CrossTenantGrant where
  destination : TenantId
  deriving DecidableEq

/-- A permit, with the subject it was issued to. -/
structure CrossTenantPermit where
  destination : TenantId
  issuedTo : SubjectId
  deriving DecidableEq

/-! ### The context -/

/-- `ServiceContext`, without the fields that only carry tracing, timing and
logging along. -/
structure ServiceContext where
  /-- The tenant hint. -/
  tenantId : Option String := none
  allowCrossTenant : Option CrossTenantGrant := none
  security : Option SecurityContext := none
  resolvedTenant : Option CanonicalTenant := none
  operationName : Option String := none
  operationKey : Option OperationKey := none
  operationFingerprint : Option OperationFingerprint := none

namespace ServiceContext

/-- `ServiceContext::new`. -/
def new : ServiceContext := {}

def withTenantId (ctx : ServiceContext) (tenantId : String) : ServiceContext :=
  { ctx with tenantId := some tenantId }

/-- `with_cross_tenant_access`: only the destination of the permit is kept. -/
def withCrossTenantAccess (ctx : ServiceContext) (permit : CrossTenantPermit) :
    ServiceContext :=
  { ctx with allowCrossTenant := some ⟨permit.destination⟩ }

def withSecurity (ctx : ServiceContext) (security : SecurityContext) : ServiceContext :=
  { ctx with security := some security }

def withOperationName (ctx : ServiceContext) (name : String) : ServiceContext :=
  { ctx with operationName := some name }

def withOperationKey (ctx : ServiceContext) (key : OperationKey) : ServiceContext :=
  { ctx with operationKey := some key }

end ServiceContext

/-! ### Resolution -/

inductive TenantEnforcementMode where
  | authenticatedOnly
  | allowSystemInternal
  deriving DecidableEq

/-- The facts `resolve` decides on. -/
structure EstablishedTenantFacts where
  security : Option SecurityContext
  hint : Option String
  crossTenantGrant : Option CrossTenantGrant

/-- `TenantResolver::resolve`. -/
def resolve (mode : TenantEnforcementMode) (facts : EstablishedTenantFacts) :
    Except SecurityError CanonicalTenant :=
  let hint := facts.hint.map trim
  match facts.security with
  | some security =>
    match security.principal.tenantId with
    | none => .error .missingContext
    | some principalTenant =>
      match hint with
      | some hint =>
        -- a hint at another tenant needs a grant for exactly that one
        if hint ≠ "" ∧ hint ≠ principalTenant.value then
          match facts.crossTenantGrant with
          | some grant =>
            if grant.destination.value = hint then .ok (.scoped grant.destination)
            else .error (.tenantMismatch principalTenant.value hint)
          | none => .error (.tenantMismatch principalTenant.value hint)
        else .ok (.scoped principalTenant)
      | none => .ok (.scoped principalTenant)
  | none =>
    -- without a principal only the system-internal mode goes by the hint
    match mode, hint with
    | .allowSystemInternal, some hint =>
      match TenantId.new hint with
      | some tenant => .ok (.scoped tenant)
      | none => .error .missingContext
    | _, _ => .error .missingContext

/-- `enforce_tenant`: the context is changed on success only. -/
def enforceTenant (mode : TenantEnforcementMode) (ctx : ServiceContext) :
    Except SecurityError ServiceContext :=
  match resolve mode ⟨ctx.security, ctx.tenantId, ctx.allowCrossTenant⟩ with
  | .ok canonical => .ok { ctx with resolvedTenant := some canonical }
  | .error e => .error e

/-- The request a permit for `destination` is authorized with. -/
def crossTenantRequest (destination : TenantId) : AccessRequest :=
  ⟨⟨"tenant", some destination.value⟩, "cross-tenant-access"⟩

def issueCrossTenantPermit (provider : Option AuthorizationProvider) (ctx : ServiceContext)
    (destination : TenantId) : Except SecurityError CrossTenantPermit :=
  match provider with
  | none => .error .capabilityNotEnabled
  | some provider =>
    let request := crossTenantRequest destination
    match authorizeInContext ctx.security request.resource request.action provider with
    | .ok () =>
      match ctx.security with
      | none => .error .capabilityNotEnabled
      | some security => .ok ⟨destination, security.principal.subjectId⟩
    | .error (.authorizationDenied reason) => .error (.crossTenantDenied reason)
    | .error other => .error other

/-! ### What resolution and issuance come to -/

/-- An authenticated context resolves to its own tenant or to the granted one its hint names. -/
theorem resolve_authenticated {mode : TenantEnforcementMode} {security : SecurityContext}
    {hint : Option String} {grant : Option CrossTenantGrant} {canonical : CanonicalTenant}
    (h : resolve mode ⟨some security, hint, grant⟩ = .ok canonical) :
    ∃ own, security.principal.tenantId = some own ∧ (canonical = .scoped own ∨
        ∃ g, grant = some g ∧ canonical = .scoped g.destination ∧
          hint.map trim = some g.destination.value ∧ g.destination ≠ own) := by
  unfold resolve at h
  simp only at h
  cases hown : security.principal.tenantId with
  | none => simp [hown] at h
  | some own =>
    simp only [hown] at h
    refine ⟨own, rfl, ?_⟩
    cases hhint : hint.map trim with
    | none =>
      simp only [hhint, Except.ok.injEq] at h
      exact Or.inl h.symm
    | some =>
      simp only [hhint] at h
      split at h
      · next hdisagrees =>
        cases grant with
        | none => simp at h
        | some g =>
          simp only at h
          split at h
          · next hdest =>
            right
            refine ⟨g, rfl, ?_, by rw [hdest], ?_⟩
            · simpa using h.symm
            · intro hsame
              exact hdisagrees.2 (by rw [← hdest, hsame])
          · cases h
      · simp only [Except.ok.injEq] at h
        exact Or.inl h.symm

theorem enforceTenant_ok {mode : TenantEnforcementMode} {ctx ctx' : ServiceContext}
    (h : enforceTenant mode ctx = .ok ctx') :
    ∃ canonical, resolve mode ⟨ctx.security, ctx.tenantId, ctx.allowCrossTenant⟩ =
        .ok canonical ∧ ctx' = { ctx with resolvedTenant := some canonical } := by
  unfold enforceTenant at h
  cases hres : resolve mode ⟨ctx.security, ctx.tenantId, ctx.allowCrossTenant⟩ with
  | error => simp [hres] at h
  | ok canonical =>
    simp only [hres, Except.ok.injEq] at h
    exact ⟨canonical, rfl, h.symm⟩

/-- A permit is issued only when the provider allowed the crossing for the
principal attached to the context. -/
theorem issueCrossTenantPermit_ok {provider : Option AuthorizationProvider}
    {ctx : ServiceContext} {destination : TenantId} {permit : CrossTenantPermit}
    (h : issueCrossTenantPermit provider ctx destination = .ok permit) :
    ∃ ask sec, provider = some ask ∧ ctx.security = some sec ∧
      ask sec.principal (crossTenantRequest destination) sec = .decided .allow ∧
      permit = ⟨destination, sec.principal.subjectId⟩ := by
  unfold issueCrossTenantPermit at h
  cases provider with
  | none => cases h
  | some ask =>
    simp only at h
    cases hauth : authorizeInContext ctx.security (crossTenantRequest destination).resource
        (crossTenantRequest destination).action ask with
    | error e =>
      rw [hauth] at h
      cases e <;> cases h
    | ok =>
      obtain ⟨sec, hsec, hallow⟩ := (authorizeInContext_ok_iff _ _ _ _).mp hauth
      rw [hauth, hsec] at h
      simp only [Except.ok.injEq] at h
      exact ⟨ask, sec, rfl, hsec, hallow, h.symm⟩

end EgoRs
