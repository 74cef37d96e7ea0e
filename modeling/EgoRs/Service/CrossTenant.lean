import EgoRs.Framework.Machine
import EgoRs.Service.Context

/-! # Who a Cross-Tenant Permit Works For

Contexts and permits as values that callers build, clone and combine in
any order: a permit issued while one principal was attached can be put on
a context that carries, or will carry, another one. The permit remembers
the subject it was issued to; nothing compares it with the principal on
the context.

- `borrowed_permit_crosses`: an unauthorized principal reaches the tenant
  of somebody else's permit
- `cross_tenant_authorized`: when permits are only used by the principal
  they were issued for, every crossing was allowed for the principal that
  makes it
-/

namespace EgoRs

open Framework

/-! ### The values in circulation -/

/-- A context, and for which principal the permit on it was issued. The
second component is not in the source: it is what the source forgets. -/
structure HeldContext where
  ctx : ServiceContext
  grantedFor : Option Principal := none

/-- A permit, and the principal attached when it was issued. -/
structure IssuedPermit where
  permit : CrossTenantPermit
  issuedFor : Option Principal

/-- Everything callers hold on to. -/
structure Circulation where
  contexts : List HeldContext := []
  permits : List IssuedPermit := []

/-- The calls. Contexts and permits are named by their place; a builder call
adds the context it returns, so that the one it was called on may have
been cloned before. -/
inductive ContextCall where
  | new
  | withTenantId (i : Nat) (hint : String)
  | withSecurity (i : Nat) (security : SecurityContext)
  | withCrossTenantAccess (i j : Nat)
  | issueCrossTenantPermit (i : Nat) (destination : TenantId)
      (provider : Option AuthorizationProvider)
  | enforceTenant (i : Nat) (mode : TenantEnforcementMode)

inductive ContextReply where
  | built
  | issued (result : Except SecurityError CrossTenantPermit)
  | enforced (result : Except SecurityError ServiceContext)

/-- Adds what `f` makes of context `i`. -/
def Circulation.build (s : Circulation) (i : Nat) (f : HeldContext → HeldContext) : Circulation :=
  match s.contexts[i]? with
  | some held => { s with contexts := s.contexts ++ [f held] }
  | none => s

/-- One call. A call on a value nobody holds does nothing. -/
def Circulation.step (s : Circulation) : ContextCall → Circulation × ContextReply
  | .new => ({ s with contexts := s.contexts ++ [⟨.new, none⟩] }, .built)
  | .withTenantId i hint =>
    (s.build i fun held => { held with ctx := held.ctx.withTenantId hint }, .built)
  | .withSecurity i security =>
    (s.build i fun held => { held with ctx := held.ctx.withSecurity security }, .built)
  | .withCrossTenantAccess i j =>
    match s.permits[j]? with
    | some issued =>
      (s.build i fun held =>
        ⟨held.ctx.withCrossTenantAccess issued.permit, issued.issuedFor⟩, .built)
    | none => (s, .built)
  | .issueCrossTenantPermit i destination provider =>
    match s.contexts[i]? with
    | some held =>
      match EgoRs.issueCrossTenantPermit provider held.ctx destination with
      | .ok permit =>
        let issued : IssuedPermit := ⟨permit, held.ctx.security.map (·.principal)⟩
        ({ s with permits := s.permits ++ [issued] }, .issued (.ok permit))
      | .error e => (s, .issued (.error e))
    | none => (s, .built)
  | .enforceTenant i mode =>
    match s.contexts[i]? with
    | some held =>
      match EgoRs.enforceTenant mode held.ctx with
      | .ok ctx =>
        ({ s with contexts := s.contexts.set i { held with ctx := ctx } }, .enforced (.ok ctx))
      | .error e => (s, .enforced (.error e))
    | none => (s, .built)

/-- All runs of context-building, permit-issuing and tenant-enforcing calls. -/
def circulation : Machine Circulation ContextCall ContextReply where
  init := {}
  step := Circulation.step

abbrev ContextHistory : Type := List (Transition Circulation ContextCall ContextReply)

/-! ### Statements over a history -/

/-- The provider was asked for `principal` to cross into `destination`, and
allowed it. -/
def CrossingAllowed (h : ContextHistory) (principal : Principal) (destination : TenantId) :
    Prop :=
  ∃ t ∈ h, ∃ i ask held security,
    t.input = .issueCrossTenantPermit i destination (some ask) ∧
    t.pre.contexts[i]? = some held ∧ held.ctx.security = some security ∧
    security.principal = principal ∧
    ask principal (crossTenantRequest destination) security = .decided .allow

/-- Every successful `enforce_tenant` of an authenticated context resolves to
the principal's own tenant, or to a tenant that the provider had allowed
this principal to cross into. -/
def CrossTenantAuthorized (h : ContextHistory) : Prop :=
  ∀ h₁ t h₂ i mode held security ctx,
    h = h₁ ++ t :: h₂ → t.input = .enforceTenant i mode →
    t.pre.contexts[i]? = some held → held.ctx.security = some security →
    t.output = .enforced (.ok ctx) →
    ∃ own canonical, security.principal.tenantId = some own ∧
      ctx.resolvedTenant = some canonical ∧
      (canonical ≠ .scoped own →
        ∃ destination, canonical = .scoped destination ∧
          CrossingAllowed h₁ security.principal destination)

/-- When `enforce_tenant` runs on a context whose hint names the destination
of the permit on it, the permit was issued for the principal attached. -/
def UsedByItsPrincipal (_ : ContextHistory)
    (t : Transition Circulation ContextCall ContextReply) : Prop :=
  ∀ i mode held security grant, t.input = .enforceTenant i mode →
    t.pre.contexts[i]? = some held → held.ctx.security = some security →
    held.ctx.allowCrossTenant = some grant →
    held.ctx.tenantId.map trim = some grant.destination.value →
    held.grantedFor = some security.principal

/-! ### Alice's permit on Bob's context -/

def sampleUser (subject tenant : String) (hs : isBlank subject = false)
    (ht : isBlank tenant = false) : SecurityContext :=
  { principal := ⟨.user, ⟨subject, hs⟩, some ⟨tenant, ht⟩, [], []⟩ }

def alice : SecurityContext := sampleUser "alice" "tenant-a" sampleSubject.nonblank (by decide)

def bob : SecurityContext := sampleUser "bob" "tenant-c" (by decide) (by decide)

def tenantB : TenantId := ⟨"tenant-b", by decide⟩

def onlyAlice : AuthorizationProvider := fun principal _ _ =>
  if principal = alice.principal then .decided .allow else .decided (.deny "not alice")

/-- Alice gets a permit for `tenant-b`; a context of Bob's names that tenant
and carries the permit. -/
def borrowedPermit : List ContextCall :=
  [.new, .withSecurity 0 alice, .issueCrossTenantPermit 1 tenantB (some onlyAlice),
    .withSecurity 0 bob, .withTenantId 2 "tenant-b", .withCrossTenantAccess 3 0,
    .enforceTenant 4 .authenticatedOnly]

theorem borrowed_permit_crosses :
    ∃ h s, circulation.Exec circulation.init h s ∧ ¬ CrossTenantAuthorized h := by
  refine ⟨_, _, circulation.exec_trace circulation.init borrowedPermit, ?_⟩
  intro hauth
  obtain ⟨own, canonical, hown, hcanonical, hallowed⟩ :=
    hauth (circulation.trace circulation.init (borrowedPermit.take 6)) _ [] 4
      .authenticatedOnly _ bob _ rfl rfl rfl rfl rfl
  cases hown
  cases hcanonical
  obtain ⟨destination, -, t, hmem, i, ask, held, security, hcall, hheld, hsec, hbob, -⟩ :=
    hallowed (by decide)
  -- the only permit was asked for while Alice was attached
  simp only [borrowedPermit, List.take, Machine.trace, List.mem_cons, List.not_mem_nil,
    or_false] at hmem
  rcases hmem with rfl | rfl | rfl | rfl | rfl | rfl
  · cases hcall
  · cases hcall
  · cases hcall
    cases hheld
    cases hsec
    exact absurd hbob (by decide)
  · cases hcall
  · cases hcall
  · cases hcall

/-! ### Grants are backed by a decision of the provider -/

/-- Every permit and every grant in circulation goes back to an allowed
crossing, for the principal it was issued for. -/
structure Backed (h : ContextHistory) (s : Circulation) : Prop where
  permits : ∀ issued ∈ s.permits, ∃ principal, issued.issuedFor = some principal ∧
    CrossingAllowed h principal issued.permit.destination
  contexts : ∀ held ∈ s.contexts, ∀ grant, held.ctx.allowCrossTenant = some grant →
    ∃ principal, held.grantedFor = some principal ∧
      CrossingAllowed h principal grant.destination

section
variable {h : ContextHistory} {s : Circulation}

theorem CrossingAllowed.append {principal : Principal} {destination : TenantId}
    (ha : CrossingAllowed h principal destination) (k : ContextHistory) :
    CrossingAllowed (h ++ k) principal destination := by
  obtain ⟨t, ht, rest⟩ := ha
  exact ⟨t, List.mem_append_left k ht, rest⟩

theorem Backed.append (hb : Backed h s) (k : ContextHistory) : Backed (h ++ k) s where
  permits issued hmem := by
    obtain ⟨principal, hfor, ha⟩ := hb.permits issued hmem
    exact ⟨principal, hfor, ha.append k⟩
  contexts held hmem grant hgrant := by
    obtain ⟨principal, hfor, ha⟩ := hb.contexts held hmem grant hgrant
    exact ⟨principal, hfor, ha.append k⟩

/-- Building keeps backing when the new context's grant is backed. -/
theorem Backed.build (hb : Backed h s) (i : Nat) (f : HeldContext → HeldContext)
    (hf : ∀ held ∈ s.contexts, ∀ grant, (f held).ctx.allowCrossTenant = some grant →
      ∃ principal, (f held).grantedFor = some principal ∧
        CrossingAllowed h principal grant.destination) : Backed h (s.build i f) := by
  unfold Circulation.build
  cases hheld : s.contexts[i]? with
  | none => exact hb
  | some held =>
    refine ⟨hb.permits, ?_⟩
    intro held' hmem grant hgrant
    obtain hold | rfl := mem_snoc hmem
    · exact hb.contexts held' hold grant hgrant
    · exact hf held (List.mem_of_getElem? hheld) grant hgrant

end

theorem backed_step {h : ContextHistory} {s : Circulation} (hb : Backed h s) (call : ContextCall) :
    Backed (h ++ [circulation.fire s call]) (circulation.step s call).1 := by
  have hb' := hb.append [circulation.fire s call]
  generalize hk : h ++ [circulation.fire s call] = k at hb' ⊢
  change Backed k (s.step call).1
  cases call with
  | new =>
    refine ⟨hb'.permits, ?_⟩
    intro held hmem grant hgrant
    obtain hold | rfl := mem_snoc hmem
    · exact hb'.contexts held hold grant hgrant
    · cases hgrant
  | withTenantId i | withSecurity i =>
    exact hb'.build i _ fun held hmem grant hgrant => hb'.contexts held hmem grant hgrant
  | withCrossTenantAccess i j =>
    simp only [Circulation.step]
    cases hissued : s.permits[j]? with
    | none => exact hb'
    | some issued =>
      refine hb'.build i _ ?_
      intro held hmem grant hgrant
      cases hgrant
      exact hb'.permits issued (List.mem_of_getElem? hissued)
  | issueCrossTenantPermit i destination provider =>
    simp only [Circulation.step]
    cases hheld : s.contexts[i]? with
    | none => exact hb'
    | some held =>
      simp only
      cases hissue : issueCrossTenantPermit provider held.ctx destination with
      | error => exact hb'
      | ok permit =>
        obtain ⟨ask, security, rfl, hsec, hallow, rfl⟩ := issueCrossTenantPermit_ok hissue
        refine ⟨?_, hb'.contexts⟩
        intro issued hmem
        obtain hold | rfl := mem_snoc hmem
        · exact hb'.permits issued hold
        · -- the new permit: this very call is the allowed crossing
          refine ⟨security.principal, by simp [hsec], ?_⟩
          rw [← hk]
          exact ⟨circulation.fire s _, List.mem_append_right h (List.mem_singleton_self _),
            i, ask, held, security, rfl, hheld, hsec, rfl, hallow⟩
  | enforceTenant i mode =>
    simp only [Circulation.step]
    cases hheld : s.contexts[i]? with
    | none => exact hb'
    | some held =>
      simp only
      cases henforce : enforceTenant mode held.ctx with
      | error => exact hb'
      | ok =>
        obtain ⟨canonical, -, rfl⟩ := enforceTenant_ok henforce
        refine ⟨hb'.permits, ?_⟩
        intro held' hmem grant hgrant
        rcases List.mem_or_eq_of_mem_set hmem with hold | hnew
        · exact hb'.contexts held' hold grant hgrant
        · subst hnew
          exact hb'.contexts held (List.mem_of_getElem? hheld) grant hgrant

theorem backed {h : ContextHistory} {s : Circulation} (he : circulation.Run h s) : Backed h s := by
  refine Machine.Exec.invariant (P := Backed) ?_ ?_ he
  · constructor
    · intro issued hmem
      cases hmem
    · intro held hmem
      cases hmem
  · intro k s call _ hb
    exact backed_step hb call

/-- What a successful `enforce_tenant` call found and returned. -/
theorem enforced_ok {t : Transition Circulation ContextCall ContextReply} {i : Nat}
    {mode : TenantEnforcementMode} {held : HeldContext} {ctx : ServiceContext}
    (ht : t = circulation.fire t.pre t.input) (hcall : t.input = .enforceTenant i mode)
    (hheld : t.pre.contexts[i]? = some held) (hout : t.output = .enforced (.ok ctx)) :
    enforceTenant mode held.ctx = .ok ctx := by
  rw [ht, hcall] at hout
  simp only [fire_output, circulation, Circulation.step, hheld] at hout
  cases henforce : enforceTenant mode held.ctx with
  | error => simp [henforce] at hout
  | ok =>
    simp only [henforce, ContextReply.enforced.injEq, Except.ok.injEq] at hout
    rw [hout]

/-- **Cross-tenant access is authorized for the principal that uses it**, in
every run that uses a permit only for the principal it was issued for. -/
theorem cross_tenant_authorized {h : ContextHistory} {s : Circulation}
    (he : circulation.Exec circulation.init h s) (huse : Along UsedByItsPrincipal h) :
    CrossTenantAuthorized h := by
  intro h₁ t h₂ i mode held security ctx hh hcall hheld hsec hout
  have huses := huse h₁ t h₂ hh i mode held security
  subst hh
  obtain ⟨hbefore, hfire, -⟩ := he.split_at
  have hb := backed hbefore
  obtain ⟨canonical, hres, rfl⟩ := enforceTenant_ok (enforced_ok hfire hcall hheld hout)
  rw [hsec] at hres
  obtain ⟨own, hown, hcases⟩ := resolve_authenticated hres
  refine ⟨own, canonical, hown, rfl, ?_⟩
  intro hdiff
  rcases hcases with hsame | ⟨grant, hgrant, hdest, hhint, -⟩
  · exact absurd hsame hdiff
  · have hfor := huses grant hcall hheld hsec hgrant hhint
    obtain ⟨principal, hfor', hallowed⟩ :=
      hb.contexts held (List.mem_of_getElem? hheld) grant hgrant
    rw [hfor] at hfor'
    cases hfor'
    exact ⟨grant.destination, hdest, hallowed⟩

def ownPermit : List ContextCall :=
  [.new, .withSecurity 0 alice, .issueCrossTenantPermit 1 tenantB (some onlyAlice),
    .withCrossTenantAccess 1 0, .withTenantId 2 " tenant-b ", .enforceTenant 3 .authenticatedOnly]

theorem cross_tenant_authorized_own_permit :
    ((circulation.after circulation.init ownPermit).contexts[3]?.bind
        fun held => held.ctx.resolvedTenant) = some (.scoped tenantB) ∧
      CrossTenantAuthorized (circulation.trace circulation.init ownPermit) := by
  refine ⟨by decide, ?_⟩
  refine cross_tenant_authorized (circulation.exec_trace circulation.init ownPermit) ?_
  refine (((((Along.nil.snoc ?_).snoc ?_).snoc ?_).snoc ?_).snoc ?_).snoc ?_
  · intro i mode held security grant hcall
    cases hcall
  · intro i mode held security grant hcall
    cases hcall
  · intro i mode held security grant hcall
    cases hcall
  · intro i mode held security grant hcall
    cases hcall
  · intro i mode held security grant hcall
    cases hcall
  · intro i mode held security grant hcall hheld hsec hgrant hhint
    cases hcall
    cases hheld
    cases hsec
    rfl

end EgoRs
