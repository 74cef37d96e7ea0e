import EgoRs.Service.CanonicalJson

/-! # Principals, Security Contexts and Authorization

The provider-neutral part of `security-sdk` together with the claim types
of `domain/src/auth`: who the caller is, what was read from their
credential, and the one function through which an authorization provider
is asked.
-/

namespace EgoRs

/-! ### Principals -/

inductive PrincipalKind where
  | user
  | service
  | process
  | agent
  deriving DecidableEq

/-- A subject id: any string that is not blank. -/
@[ext]
structure SubjectId where
  value : String
  nonblank : isBlank value = false

instance : DecidableEq SubjectId := fun _ _ => decidable_of_iff _ SubjectId.ext_iff.symm

/-- `SubjectId::new`. -/
def SubjectId.new (value : String) : Option SubjectId :=
  if h : isBlank value = false then some ⟨value, h⟩ else none

def sampleSubject : SubjectId := ⟨"alice", by decide⟩

/-- The authenticated actor. Roles and attributes are ordered collections. -/
structure Principal where
  kind : PrincipalKind
  subjectId : SubjectId
  tenantId : Option TenantId := none
  roles : List String := []
  attributes : List (String × String) := []
  deriving DecidableEq

/-! ### Claims -/

structure StandardClaims where
  exp : Option Timestamp := none
  nbf : Option Timestamp := none
  iat : Option Timestamp := none
  jti : Option String := none
  iss : Option String := none
  aud : Option (List String) := none
  deriving DecidableEq

structure Claims where
  standard : StandardClaims := {}
  custom : List (String × Json) := []

/-- The principal and the claims it was built from. -/
structure SecurityContext where
  principal : Principal
  claims : Claims := {}

/-! ### Errors -/

inductive SecurityError where
  | authenticationFailed (message : String)
  | invalidCredential (message : String)
  | invalidSubjectId (message : String)
  | authorizationDenied (reason : String)
  | missingContext
  | capabilityNotEnabled
  | providerError (message : String)
  | invalidAccessRequest (message : String)
  | tenantMismatch (expected actual : String)
  | crossTenantDenied (reason : String)
  deriving DecidableEq

/-! ### Authorization -/

structure Resource where
  kind : String
  id : Option String := none
  deriving DecidableEq

structure AccessRequest where
  resource : Resource
  action : String
  deriving DecidableEq

inductive AuthorizationDecision where
  | allow
  | deny (reason : String)
  deriving DecidableEq

/-- What one call of a provider comes to. -/
inductive ProviderAnswer where
  | decided (decision : AuthorizationDecision)
  | failed (e : SecurityError)
  | panicked
  deriving DecidableEq

/-- `AuthorizationProvider::authorize`, as it behaves during one call. -/
abbrev AuthorizationProvider : Type :=
  Principal → AccessRequest → SecurityContext → ProviderAnswer

def authorizeInContext (security : Option SecurityContext) (resource : Resource)
    (action : String) (provider : AuthorizationProvider) : Except SecurityError Unit :=
  match security with
  | none => .error .capabilityNotEnabled
  | some sec =>
    match provider sec.principal ⟨resource, action⟩ sec with
    | .panicked => .error (.providerError "authorization provider panicked")
    | .failed e => .error e
    | .decided .allow => .ok ()
    | .decided (.deny reason) => .error (.authorizationDenied reason)

/-- Authorization succeeds exactly when a principal is attached and the
provider allowed the request for it. -/
theorem authorizeInContext_ok_iff (security : Option SecurityContext) (resource : Resource)
    (action : String) (provider : AuthorizationProvider) :
    authorizeInContext security resource action provider = .ok () ↔ ∃ sec, security = some sec ∧
        provider sec.principal ⟨resource, action⟩ sec = .decided .allow := by
  unfold authorizeInContext
  cases security with
  | none => simp
  | some sec =>
    simp only [Option.some.injEq, exists_eq_left']
    cases provider sec.principal ⟨resource, action⟩ sec with
    | panicked | failed => simp
    | decided d => cases d <;> simp

end EgoRs
