import EgoRs.Framework.Machine
import EgoRs.Security.Oidc
import EgoRs.Security.PrincipalMapper

/-! # Runs of the OIDC Provider

Any number of threads authenticate against one provider. A call that
takes the JWT path, or is answered from the introspection cache, is one
step. A call that has to ask the introspection endpoint is two: the
lookup, and what is done with the answer when it comes. The calls of
other threads fall in between.

The clock is read once in a call and may read anything.

A token that is accepted as a JWT is bound to the configured issuer,
audience and leeway. On the introspection path nothing checks any of
them, and the cache keeps answering for its time to live whatever the
expiry says.
-/

namespace EgoRs.OidcRun

open Framework

/-! ## The machine -/

/-- A call that waits for the endpoint: its token and its clock reading. -/
structure Waiting where
  token : String
  now : Timestamp

structure State where
  cache : IntrospectionCache
  /-- One entry for every call that asked the endpoint, in order; `none` once
      it has returned. -/
  calls : List (Option Waiting)

inductive Input where
  /-- `authenticate(credential)`, with the clock reading and what the key
      resolver would answer during the call. -/
  | authenticate (credential : Credential) (now : Timestamp) (resolver : KeyResolver)
  /-- The endpoint's answer to a waiting call. -/
  | introspected (call : Nat) (answer : IntrospectionAnswer)

inductive Output where
  /-- The call read `now` and ended so. -/
  | returned (now : Timestamp) (result : Except Stop Accepted)
  | asked (call : Nat)
  | noCall

/-- What a deployment brings: the `jsonwebtoken` crate, the mapper and the
SHA-256 of a token. -/
structure Env where
  lib : Jsonwebtoken
  mapper : PrincipalMapper
  cacheKey : String → CacheKey

/-- `authenticate_opaque`, up to the endpoint. -/
def startOpaque (provider : OidcAuthenticationProvider) (env : Env) (s : State) (token : String)
    (now : Timestamp) : State × Output :=
  match provider.introspection with
  | none => (s, .returned now
      (invalidToken "opaque token but no introspection endpoint configured"))
  | some introspection =>
    match lookupCached introspection s.cache env.cacheKey token now with
    | some accepted => (s, .returned now (.ok accepted))
    | none => ({ s with calls := s.calls ++ [some ⟨token, now⟩] }, .asked s.calls.length)

/-- The waiting call `call` gets its answer. -/
def finishOpaque (provider : OidcAuthenticationProvider) (env : Env) (s : State) (call : Nat)
    (answer : IntrospectionAnswer) : State × Output :=
  match provider.introspection, s.calls[call]?.join with
  | some introspection, some waiting =>
    let (cache, result) := finishIntrospection introspection s.cache env.cacheKey env.mapper
      waiting.token waiting.now answer
    (⟨cache, s.calls.set call none⟩, .returned waiting.now result)
  | _, _ => (s, .noCall)

def oidc (provider : OidcAuthenticationProvider) (env : Env) : Machine State Input Output where
  init := ⟨.empty, []⟩
  step s
    | .authenticate credential now resolver =>
      match credential.token with
      | .error e => (s, .returned now (.error (.refused e)))
      | .ok token =>
        if provider.takesJwtPath token then
          (s, .returned now (tryJwtPath env.lib token resolver provider.jwtConfig now env.mapper
            provider.allowedAlgorithms))
        else startOpaque provider env s token now
    | .introspected call answer => finishOpaque provider env s call answer

abbrev Event : Type := Transition State Input Output

abbrev History : Type := List Event

/-! ## Construction keeps what the JWT path needs -/

section
variable {config : OidcProviderConfig} {discovered : Except AuthenticationError Url}
  {provider : OidcAuthenticationProvider}

theorem introspection_cacheTtl {intro : IntrospectionAuthenticationProvider}
    (h : IntrospectionAuthenticationProvider.new config = .ok intro) :
    intro.cacheTtl = config.introspectionCacheTtlSeconds ∧
      ∀ ttl, intro.cacheTtl = some ttl → ttl ≤ maxIntrospectionCacheTtlSecs := by
  unfold IntrospectionAuthenticationProvider.new at h
  split at h
  · cases h
  · obtain ⟨_, _, h⟩ := ok_of_bind h
    split at h
    · cases h
    · cases h
    · split at h
      · rename_i hnone
        cases h
        simp [hnone]
      · rename_i ttl hsome
        split at h
        · cases h
        · rename_i hbound
          cases h
          refine ⟨rfl, ?_⟩
          intro ttl' httl
          have hsame : ttl = ttl' := by
            rw [← Option.some.injEq, ← hsome]
            exact httl
          omega

/-- The provider has the configured JWT settings and the cache's time to live. -/
theorem new_ok (h : OidcAuthenticationProvider.new config discovered = .ok provider) :
    provider.jwtConfig = ⟨config.expectedIss, config.expectedAud, config.leewaySeconds⟩ ∧
      ∀ intro, provider.introspection = some intro →
        intro.cacheTtl = config.introspectionCacheTtlSeconds ∧
          ∀ ttl, intro.cacheTtl = some ttl → ttl ≤ maxIntrospectionCacheTtlSecs := by
  unfold OidcAuthenticationProvider.new at h
  obtain ⟨_, _, h⟩ := ok_of_bind h
  obtain ⟨_, _, h⟩ := ok_of_bind h
  obtain ⟨introspection, hbuild, h⟩ := ok_of_bind h
  cases h
  refine ⟨rfl, ?_⟩
  intro intro hintro
  subst hintro
  unfold buildIntrospection at hbuild
  split at hbuild
  · obtain ⟨built, hbuilt, hbuild⟩ := ok_of_bind hbuild
    cases hbuild
    exact introspection_cacheTtl hbuilt
  · cases hbuild

end

/-! ## What is accepted, and what is cached -/

section
variable {provider : OidcAuthenticationProvider} {env : Env}

/-- Where an accepted context comes from. -/
inductive Source (provider : OidcAuthenticationProvider) (env : Env) (s : State) (i : Input)
    (now : Timestamp) (a : Accepted) : Prop where
  /-- The token was verified as a JWT. -/
  | jwt (token : String) (resolver : KeyResolver)
      (verified : tryJwtPath env.lib token resolver provider.jwtConfig now env.mapper
        provider.allowedAlgorithms = .ok a)
  /-- A fresh cache entry holds it. -/
  | cached (intro : IntrospectionAuthenticationProvider) (ttl : Nat) (key : CacheKey)
      (entry : CacheEntry) (built : provider.introspection = some intro)
      (enabled : intro.cacheTtl = some ttl) (found : s.cache.entries.lookup key = some entry)
      (isFresh : age (wholeSeconds now) entry.insertedAt < ttl) (context : entry.accepted = a)
  /-- The endpoint has just vouched for its claims. -/
  | introspected (call : Nat) (answer : IntrospectionAnswer) (waiting : Waiting)
      (input : i = .introspected call answer) (asked : s.calls[call]?.join = some waiting)
      (claims : activeClaims answer = .ok a.builtFrom) (reading : waiting.now = now)

variable {s s' : State} {i : Input} {now : Timestamp} {a : Accepted}

theorem source_of_startOpaque {token : String} {now' : Timestamp}
    (h : startOpaque provider env s token now = (s', .returned now' (.ok a))) :
    Source provider env s i now' a := by
  unfold startOpaque at h
  split at h
  · cases h
  · rename_i intro hintro
    split at h
    · rename_i accepted hcached
      cases h
      unfold lookupCached at hcached
      split at hcached
      · rename_i ttl httl
        obtain ⟨entry, hentry, hage, haccepted⟩ := fresh_some hcached
        exact .cached intro ttl _ entry hintro httl hentry hage haccepted
      · cases hcached
    · cases h

theorem source_of_finishOpaque {call : Nat} {answer : IntrospectionAnswer}
    (h : finishOpaque provider env s call answer = (s', .returned now (.ok a))) :
    Source provider env s (.introspected call answer) now a := by
  unfold finishOpaque at h
  split at h
  · rename_i intro waiting hintro hwaiting
    simp only [Prod.mk.injEq, Output.returned.injEq] at h
    obtain ⟨-, rfl, hresult⟩ := h
    unfold finishIntrospection at hresult
    split at hresult
    · cases hresult
    · rename_i claims hclaims
      split at hresult
      · cases hresult
      · rename_i accepted haccept
        have hbuilt := PrincipalMapper.builtFrom_of_accept haccept
        split at hresult
        · cases hresult
          exact .introspected call answer waiting rfl hwaiting (by rw [hbuilt, hclaims]) rfl
        · rename_i ttl httl
          have ha : (s.cache.store ttl (env.cacheKey waiting.token) (wholeSeconds waiting.now)
              accepted).2 = a := Except.ok.inj hresult
          -- the double check may find what another call has cached meanwhile
          unfold IntrospectionCache.store at ha
          split at ha
          · rename_i hfresh
            subst ha
            obtain ⟨entry, hentry, hage, haccepted⟩ := fresh_some hfresh
            exact .cached intro ttl _ entry hintro httl hentry hage haccepted
          · subst ha
            exact .introspected call answer waiting rfl hwaiting (by rw [hbuilt, hclaims]) rfl
  · cases h

/-- **Every accepted context has one of the three sources.** -/
theorem source_of_step (h : (oidc provider env).step s i = (s', .returned now (.ok a))) :
    Source provider env s i now a := by
  cases i with
  | authenticate _ _ resolver =>
    simp only [oidc] at h
    split at h
    · cases h
    · rename_i token htoken
      split at h
      · simp only [Prod.mk.injEq, Output.returned.injEq] at h
        obtain ⟨-, rfl, hjwt⟩ := h
        exact .jwt token resolver hjwt
      · exact source_of_startOpaque h
  | introspected => exact source_of_finishOpaque h

/-- An entry in the cache after a step was there before, or holds the claims
the endpoint has just vouched for. -/
theorem lookup_after_step {key : CacheKey} {entry : CacheEntry}
    (h : ((oidc provider env).step s i).1.cache.entries.lookup key = some entry) :
    s.cache.entries.lookup key = some entry ∨ ∃ call answer waiting, i = .introspected call answer ∧
        s.calls[call]?.join = some waiting ∧ activeClaims answer = .ok entry.accepted.builtFrom ∧
        entry.insertedAt = wholeSeconds waiting.now := by
  cases i with
  | authenticate =>
    -- a call that starts only reads the cache
    left
    simp only [oidc] at h
    split at h
    · exact h
    · split at h
      · exact h
      · unfold startOpaque at h
        split at h
        · exact h
        · split at h
          · exact h
          · exact h
  | introspected call answer =>
    simp only [oidc] at h
    unfold finishOpaque at h
    split at h
    · rename_i intro waiting hintro hwaiting
      dsimp only at h
      unfold finishIntrospection at h
      split at h
      · exact .inl h
      · rename_i claims hclaims
        split at h
        · exact .inl h
        · rename_i accepted haccept
          split at h
          · exact .inl h
          · -- accepted, and the cache is on: the one way into the critical section
            rcases lookup_of_store h with hold | hnew
            · exact .inl hold
            · right
              subst hnew
              have hbuilt := PrincipalMapper.builtFrom_of_accept haccept
              exact ⟨call, answer, waiting, rfl, hwaiting, by rw [hbuilt, hclaims], rfl⟩
    · exact .inl h

end

/-! ## The configuration binds -/

section
variable {config : OidcProviderConfig}

/-- The claims carry the configured issuer and audience, and if they carry an
expiry it lies, with the leeway, beyond the reading and beyond the time
the cache would keep answering. -/
structure Vouched (config : OidcProviderConfig) (now : Timestamp) (cs : ClaimSet) : Prop where
  bound : BoundTo config.expectedIss config.expectedAud config.leewaySeconds now cs
  outlives : ∀ ttl exp, config.introspectionCacheTtlSeconds = some ttl → cs.expiry = some exp →
    wholeSeconds now + ttl ≤ exp + (config.leewaySeconds.getD 0 : Nat)

/-- The endpoint vouches only for tokens of the configured issuer and audience
that do not expire while they may be cached. -/
def EndpointBinds (config : OidcProviderConfig) (_ : History) (t : Event) : Prop :=
  ∀ call answer waiting claims, t.input = .introspected call answer →
    t.pre.calls[call]?.join = some waiting → activeClaims answer = .ok claims →
    Vouched config waiting.now claims

/-- Claims that outlive the cache are bound at every reading at which the
entry made of them is fresh. -/
theorem Vouched.bound_while_fresh {now now' : Timestamp} {cs : ClaimSet} {ttl : Nat}
    (hv : Vouched config now cs) (httl : config.introspectionCacheTtlSeconds = some ttl)
    (hmax : ttl ≤ maxIntrospectionCacheTtlSecs)
    (hage : age (wholeSeconds now') (wholeSeconds now) < ttl) :
    BoundTo config.expectedIss config.expectedAud config.leewaySeconds now' cs where
  issuer := hv.bound.issuer
  audience := hv.bound.audience
  expiry := by
    intro exp hexp
    have hkept := hv.outlives ttl exp httl hexp
    have hbefore : wholeSeconds now' < wholeSeconds now + ttl := by
      unfold maxIntrospectionCacheTtlSecs at hmax
      unfold age at hage
      dsimp only at hage
      split at hage <;> omega
    have hnext : wholeSeconds now' + 1 ≤ exp + (config.leewaySeconds.getD 0 : Nat) := by omega
    calc now' < (wholeSeconds now' + 1) * nanosPerSecond :=
          Int.lt_ediv_add_one_mul_self now' (by decide)
      _ ≤ (exp + (config.leewaySeconds.getD 0 : Nat)) * nanosPerSecond :=
          Int.mul_le_mul_of_nonneg_right hnext (by decide)

/-- Whatever a cache entry can still answer for is bound. -/
def CacheBound (config : OidcProviderConfig) (s : State) : Prop :=
  ∀ key entry ttl now, s.cache.entries.lookup key = some entry →
    config.introspectionCacheTtlSeconds = some ttl → ttl ≤ maxIntrospectionCacheTtlSecs →
    age (wholeSeconds now) entry.insertedAt < ttl →
    BoundTo config.expectedIss config.expectedAud config.leewaySeconds now
      entry.accepted.builtFrom

variable {provider : OidcAuthenticationProvider} {env : Env} {h : History} {s : State}

theorem cacheBound_step {i : Input} (hi : CacheBound config s)
    (hc : EndpointBinds config h ((oidc provider env).fire s i)) :
    CacheBound config ((oidc provider env).step s i).1 := by
  intro key entry ttl now hlookup httl hmax hage
  rcases lookup_after_step hlookup with hold | ⟨call, answer, waiting, hin, hasked, hclaims, hat⟩
  · exact hi key entry ttl now hold httl hmax hage
  · have hv := hc call answer waiting _ hin hasked hclaims
    rw [hat] at hage
    exact hv.bound_while_fresh httl hmax hage

theorem cacheBound_run (he : (oidc provider env).Run h s)
    (ha : Along (EndpointBinds config) h) : CacheBound config s := by
  refine he.invariant_along (P := fun _ s => CacheBound config s) ?_ ?_ ha
  · intro key entry ttl now hlookup
    simp [oidc, IntrospectionCache.empty] at hlookup
  · intro h s i _ hi hc
    exact cacheBound_step hi hc

/-- **Issuer, audience and expiry bind every accepted token**, in every run of
a provider built from a valid configuration in which the endpoint vouches
only for tokens that meet them as long as they may be cached. -/
theorem configuration_binds {discovered : Except AuthenticationError Url}
    (hnew : OidcAuthenticationProvider.new config discovered = .ok provider)
    (he : (oidc provider env).Exec (oidc provider env).init h s)
    (ha : Along (EndpointBinds config) h) :
    ∀ t ∈ h, ∀ now a, t.output = .returned now (.ok a) →
      BoundTo config.expectedIss config.expectedAud config.leewaySeconds now a.builtFrom := by
  intro t ht now a hout
  obtain ⟨hjwt, hintrospection⟩ := new_ok hnew
  obtain ⟨h₁, h₂, rfl⟩ := List.append_of_mem ht
  obtain ⟨he₁, hfire, _⟩ := he.split_at
  have ha₁ : Along (EndpointBinds config) h₁ := ha.of_append
  have hstep : (oidc provider env).step t.pre t.input =
      (((oidc provider env).step t.pre t.input).1, .returned now (.ok a)) := by
    rw [hfire, fire_output] at hout
    exact Prod.ext rfl hout
  cases source_of_step hstep with
  | jwt _ _ verified =>
    rw [hjwt] at verified
    unfold tryJwtPath at verified
    split at verified
    · cases verified
    · split at verified
      · split at verified
        · exact boundTo_of_authenticateInner verified
        · cases verified
      · split at verified
        · exact boundTo_of_authenticateInner verified
        · cases verified
      · cases verified
  | cached intro ttl key entry built enabled found isFresh context =>
    obtain ⟨httl, hmax⟩ := hintrospection intro built
    rw [← context]
    exact cacheBound_run he₁ ha₁ key entry ttl now found (by rw [← httl, enabled])
      (hmax ttl enabled) isFresh
  | introspected call answer waiting input asked claims reading =>
    have hv := ha h₁ t h₂ rfl call answer waiting _ input asked claims
    rw [← reading]
    exact hv.bound

end

/-! ### A provider with a cache -/

/-- A valid configuration: one issuer, one audience, introspection cached for
five minutes. -/
def sampleConfig : OidcProviderConfig where
  jwksUri := some ⟨"https", some "idp.example"⟩
  expectedIss := some "https://idp.example"
  expectedAud := some ["api"]
  introspectionEndpoint := some ⟨"https", some "idp.example"⟩
  introspectionClientId := some "api"
  introspectionClientSecret := some "secret"
  introspectionCacheTtlSeconds := some 300

def sampleProvider : OidcAuthenticationProvider where
  jwksUri := ⟨"https", some "idp.example"⟩
  jwtConfig := ⟨some "https://idp.example", some ["api"], none⟩
  introspection := some ⟨⟨"https", some "idp.example"⟩, ⟨"api", "secret"⟩, some 300⟩
  tokenFormat := .auto
  allowedAlgorithms := [.rs256, .es256]

/-- The environment of runs in which the only token is the opaque `abc`: it is
no JWT, and this is its SHA-256. -/
def sampleEnv : Env where
  lib :=
    { decodeHeader := fun _ => .error "InvalidToken"
      fromRsaPem := fun _ => .error "InvalidKeyFormat"
      fromEcPem := fun _ => .error "InvalidKeyFormat"
      decode := fun _ _ _ => .error ⟨.other, "InvalidToken"⟩
      asF64 := fun _ => ⟨0, 0⟩ }
  mapper := defaultPrincipalMapper fun _ => "0.0"
  cacheKey := fun _ =>
    [0xba, 0x78, 0x16, 0xbf, 0x8f, 0x01, 0xcf, 0xea, 0x41, 0x41, 0x40, 0xde, 0x5d, 0xae, 0x22,
     0x23, 0xb0, 0x03, 0x61, 0xa3, 0x96, 0x17, 0x7a, 0x9c, 0xb4, 0x10, 0xff, 0x61, 0xf2, 0x00,
     0x15, 0xad]

/-- Claims of user `u`. -/
def sampleClaims (iss aud : String) (exp : Int) : ClaimSet :=
  ⟨(((∅ : AList fun _ : String => ClaimValue).insert "sub" (.string "u")).insert "iss"
    (.string iss)).insert "aud" (.string aud) |>.insert "exp" (.integer exp)⟩

/-- `abc` presented at the given second. -/
def presentAt (second : Int) : Input :=
  .authenticate (.bearer "abc") (second * nanosPerSecond) fun kid _ =>
    some (.error (.keyNotFound kid))

def vouchFor (call : Nat) (claims : ClaimSet) : Input :=
  .introspected call (some (.ok ⟨true, some claims⟩))

def Output.accepts : Output → Bool
  | .returned _ (.ok _) => true
  | _ => false

/-- A token of the right issuer and audience, asked about at 1000 and answered
from the cache at 1100. -/
def cachedInputs : List Input :=
  [presentAt 1000, vouchFor 0 (sampleClaims "https://idp.example" "api" 2000), presentAt 1100]

theorem configuration_binds_cached :
    ((oidc sampleProvider sampleEnv).trace (oidc sampleProvider sampleEnv).init cachedInputs).map
        (fun t => t.output.accepts) = [false, true, true] ∧
      ∀ t ∈ (oidc sampleProvider sampleEnv).trace (oidc sampleProvider sampleEnv).init
          cachedInputs,
        ∀ now a, t.output = .returned now (.ok a) →
          BoundTo sampleConfig.expectedIss sampleConfig.expectedAud sampleConfig.leewaySeconds
            now a.builtFrom := by
  have hnew : OidcAuthenticationProvider.new sampleConfig (.error .expiredToken)
      = .ok sampleProvider := rfl
  refine ⟨rfl, configuration_binds hnew (Machine.exec_trace _ _ _) ?_⟩
  refine ((Along.nil.snoc ?_).snoc ?_).snoc ?_
  · intro call answer waiting claims hin
    cases hin
  · intro call answer waiting claims hin hasked hclaims
    cases hin
    cases hasked
    cases hclaims
    refine ⟨⟨?_, ?_, ?_⟩, ?_⟩
    · intro iss hiss
      cases hiss
      rfl
    · intro auds hauds
      cases hauds
      exact ⟨"api", by decide, by decide⟩
    · intro exp hexp
      cases hexp
      decide
    · intro ttl exp httl hexp
      cases httl
      cases hexp
      decide
  · intro call answer waiting claims hin
    cases hin

/-- A token of another issuer, for another audience, that expired long ago. -/
def foreignInputs : List Input :=
  [presentAt 1000, vouchFor 0 (sampleClaims "https://other.example" "elsewhere" 10)]

/-- A token of the right issuer and audience that expires at 1010, presented
again at 1100. -/
def outlivedInputs : List Input :=
  [presentAt 1000, vouchFor 0 (sampleClaims "https://idp.example" "api" 1010), presentAt 1100]

/-- The foreign token is accepted with the claims of the wrong issuer, and the
cache goes on accepting a token after it has expired. -/
theorem introspection_unbound :
    OidcAuthenticationProvider.new sampleConfig (.error .expiredToken) = .ok sampleProvider ∧
    (∃ t ∈ (oidc sampleProvider sampleEnv).trace (oidc sampleProvider sampleEnv).init
        foreignInputs, ∃ now a, t.output = .returned now (.ok a) ∧
      sampleConfig.expectedIss = some "https://idp.example" ∧
      a.builtFrom.issuer = some "https://other.example") ∧
    ∃ t ∈ (oidc sampleProvider sampleEnv).trace (oidc sampleProvider sampleEnv).init
        outlivedInputs, ∃ now a, t.output = .returned now (.ok a) ∧
      a.builtFrom.expiry = some 1010 ∧ now = 1100 * nanosPerSecond ∧
      ¬ BoundTo sampleConfig.expectedIss sampleConfig.expectedAud sampleConfig.leewaySeconds
        now a.builtFrom := by
  refine ⟨rfl, ⟨_, List.mem_cons_of_mem _ List.mem_cons_self, _, _, rfl, rfl, rfl⟩,
    ⟨_, List.mem_cons_of_mem _ (List.mem_cons_of_mem _ List.mem_cons_self), _, _, rfl, rfl, rfl,
      ?_⟩⟩
  intro hb
  have hlt := hb.expiry 1010 rfl
  revert hlt
  decide

end EgoRs.OidcRun
