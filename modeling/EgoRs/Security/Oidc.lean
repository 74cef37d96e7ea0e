import EgoRs.Security.JwtValidation

/-! # The OIDC Authentication Provider

`OidcProviderConfig::validate`, the construction of
`OidcAuthenticationProvider` and the two ways it authenticates a bearer
token: as a JWT, or by asking an introspection endpoint, with a cache in
front of it (`oidc_config.rs`, `oidc_provider.rs`, `introspection.rs`).

Building the introspection provider copies the endpoint, the client
credentials and the cache time to live out of the configuration. The
expected issuer, the expected audience and the leeway stay behind.
-/

namespace EgoRs

open Framework

/-! ### Configuration -/

/-- What is read of a `url::Url`. -/
structure Url where
  scheme : String
  hostStr : Option String
  deriving DecidableEq

inductive TokenFormat where
  | jwt
  | opaqueToken
  | auto
  deriving DecidableEq

/-- `OidcProviderConfig`, without the refresh interval of the key resolver. -/
structure OidcProviderConfig where
  issuerUrl : Option Url := none
  jwksUri : Option Url := none
  expectedIss : Option String := none
  expectedAud : Option (List String) := none
  leewaySeconds : Option Nat := none
  tokenFormat : Option TokenFormat := none
  introspectionEndpoint : Option Url := none
  introspectionClientId : Option String := none
  introspectionClientSecret : Option String := none
  introspectionCacheTtlSeconds : Option Nat := none
  allowedAlgorithms : Option (List JwtAlgorithm) := none

def validateUrlRequiresHttps (url : Url) (field : String) : Except AuthenticationError Unit :=
  if url.scheme = "https" then .ok ()
  else if url.scheme = "http" then
    let host := url.hostStr.getD ""
    if host = "localhost" ∨ host = "127.0.0.1" ∨ host = "[::1]" then .ok ()
    else .error (.providerUnavailable
      (field ++ " must use https (http allowed only for localhost/127.0.0.1/[::1])"))
  else .error (.providerUnavailable
    (field ++ " has unsupported scheme '" ++ url.scheme ++ "' — must be https"))

/-- The same for a URL that may be absent. -/
def validateOptionalUrl (url : Option Url) (field : String) : Except AuthenticationError Unit :=
  match url with
  | some url => validateUrlRequiresHttps url field
  | none => .ok ()

def maxIntrospectionCacheTtlSecs : Nat := 300

/-- A configuration refused for the reason given. -/
def unavailableIf (condition : Prop) [Decidable condition] (reason : String) :
    Except AuthenticationError Unit :=
  if condition then .error (.providerUnavailable reason) else .ok ()

/-- `OidcProviderConfig::validate`. -/
def OidcProviderConfig.validate (config : OidcProviderConfig) :
    Except AuthenticationError Unit := do
  unavailableIf (config.issuerUrl = none ∧ config.jwksUri = none)
    "either issuer_url or jwks_uri must be configured"
  validateOptionalUrl config.jwksUri "jwks_uri"
  validateOptionalUrl config.issuerUrl "issuer_url"
  validateOptionalUrl config.introspectionEndpoint "introspection_endpoint"
  unavailableIf (config.introspectionEndpoint.isSome ∧
      (config.introspectionClientId = none ∨ config.introspectionClientSecret = none))
    "introspection_endpoint requires introspection_client_id and introspection_client_secret"
  unavailableIf (config.introspectionEndpoint = none ∧
      (config.introspectionClientId.isSome ∨ config.introspectionClientSecret.isSome))
    "introspection_client_id/secret set without introspection_endpoint"
  unavailableIf (config.introspectionCacheTtlSeconds = some 0)
    "introspection_cache_ttl_seconds must be >= 1 (use None to disable cache)"
  unavailableIf (maxIntrospectionCacheTtlSecs < config.introspectionCacheTtlSeconds.getD 0)
    "introspection_cache_ttl_seconds must be <= 300 (longer TTLs defeat token revocation)"
  unavailableIf (config.allowedAlgorithms = some []) "allowed_algorithms must not be empty"
  unavailableIf (config.jwksUri.isSome ∧ config.expectedIss = none)
    ("expected_iss is required when jwks_uri is configured — " ++
      "without it, tokens from any issuer are accepted")

/-! ### Construction -/

structure ClientCredentials where
  clientId : String
  clientSecret : String

/-- The fixed part of `IntrospectionAuthenticationProvider`. -/
structure IntrospectionAuthenticationProvider where
  endpoint : Url
  credentials : ClientCredentials
  /-- `none` when the cache is off. -/
  cacheTtl : Option Nat

/-- `IntrospectionAuthenticationProvider::new`. -/
def IntrospectionAuthenticationProvider.new (config : OidcProviderConfig) :
    Except AuthenticationError IntrospectionAuthenticationProvider :=
  match config.introspectionEndpoint with
  | none => .error (.providerUnavailable "introspection_endpoint is required")
  | some endpoint => do
    validateUrlRequiresHttps endpoint "introspection_endpoint"
    match config.introspectionClientId, config.introspectionClientSecret with
    | none, _ => .error (.providerUnavailable "introspection_client_id is required")
    | some _, none => .error (.providerUnavailable "introspection_client_secret is required")
    | some clientId, some clientSecret =>
      let provider : IntrospectionAuthenticationProvider :=
        ⟨endpoint, ⟨clientId, clientSecret⟩, config.introspectionCacheTtlSeconds⟩
      match config.introspectionCacheTtlSeconds with
      | none => .ok provider
      | some ttl =>
        if ttl = 0 ∨ maxIntrospectionCacheTtlSecs < ttl then
          .error (.providerUnavailable "introspection_cache_ttl_seconds must be 1..=300")
        else .ok provider

/-- `build_introspection`: `..Default::default()` for every other field. -/
def buildIntrospection (config : OidcProviderConfig) :
    Except AuthenticationError (Option IntrospectionAuthenticationProvider) :=
  if config.introspectionEndpoint.isSome ∧ config.introspectionClientId.isSome ∧
      config.introspectionClientSecret.isSome then do
    let provider ← IntrospectionAuthenticationProvider.new
      { introspectionEndpoint := config.introspectionEndpoint
        introspectionClientId := config.introspectionClientId
        introspectionClientSecret := config.introspectionClientSecret
        introspectionCacheTtlSeconds := config.introspectionCacheTtlSeconds }
    return some provider
  else .ok none

/-- `OidcAuthenticationProvider`, without its key resolver, clock and mapper. -/
structure OidcAuthenticationProvider where
  jwksUri : Url
  jwtConfig : JwtProviderConfig
  introspection : Option IntrospectionAuthenticationProvider
  tokenFormat : TokenFormat
  allowedAlgorithms : List JwtAlgorithm

/-- The key set's address: the configured one, or else what discovery at the
issuer URL comes to. -/
def resolveJwksUri (config : OidcProviderConfig) (discovered : Except AuthenticationError Url) :
    Except AuthenticationError Url :=
  match config.jwksUri with
  | some uri => .ok uri
  | none => discovered

/-- `OidcAuthenticationProvider::new`. -/
def OidcAuthenticationProvider.new (config : OidcProviderConfig)
    (discovered : Except AuthenticationError Url) :
    Except AuthenticationError OidcAuthenticationProvider := do
  config.validate
  let jwksUri ← resolveJwksUri config discovered
  let introspection ← buildIntrospection config
  return {
    jwksUri := jwksUri
    -- the JWT path gets the expectations; `buildIntrospection` dropped them
    jwtConfig := ⟨config.expectedIss, config.expectedAud, config.leewaySeconds⟩
    introspection := introspection
    tokenFormat := config.tokenFormat.getD .auto
    allowedAlgorithms := config.allowedAlgorithms.getD [.rs256, .es256] }

/-! ### Routing -/

inductive Credential where
  | basic (username secret : String)
  | bearer (token : String)
  | custom (scheme : String) (payload : List UInt8)

/-- `MAX_TOKEN_BYTES`. -/
def maxTokenBytes : Nat := 8192

/-- The token of a credential, as both `authenticate` methods get it. -/
def Credential.token : Credential → Except AuthenticationError String
  | .bearer token =>
    if maxTokenBytes < token.utf8ByteSize then .error (.invalidToken "token exceeds 8 KiB limit")
    else .ok token
  | _ => .error (.invalidToken "unsupported credential type")

/-- A byte of base64url, padding included. -/
def isBase64Url (c : Char) : Bool :=
  c.isAlphanum || c == '-' || c == '_' || c == '='

/-- `looks_like_jwt`: three segments, each non-empty base64url. -/
def looksLikeJwt (token : String) : Bool :=
  let parts := token.toList.splitOn '.'
  parts.length == 3 && parts.all fun part => !part.isEmpty && part.all isBase64Url

def OidcAuthenticationProvider.takesJwtPath (provider : OidcAuthenticationProvider)
    (token : String) : Bool :=
  match provider.tokenFormat with
  | .jwt => true
  | .opaqueToken => false
  | .auto => looksLikeJwt token

/-! ### The JWT path -/

def rsaKeyFor (lib : Jsonwebtoken) : VerificationKey → Except AuthenticationError DecodingKey
  | .rsaPem pem => (lib.fromRsaPem pem).mapError fun e => .invalidToken ("bad RSA key: " ++ e)
  | _ => .error (.invalidToken "expected RSA PEM key")

def ecKeyFor (lib : Jsonwebtoken) : VerificationKey → Except AuthenticationError DecodingKey
  | .ecPem pem => (lib.fromEcPem pem).mapError fun e => .invalidToken ("bad EC key: " ++ e)
  | _ => .error (.invalidToken "expected EC PEM key")

def tryJwtPath (lib : Jsonwebtoken) (token : String) (resolver : KeyResolver)
    (config : JwtProviderConfig) (now : Timestamp) (mapper : PrincipalMapper)
    (allowed : List JwtAlgorithm) : Except Stop Accepted :=
  match lib.decodeHeader token with
  | .error text => invalidToken text
  | .ok header =>
    match header.alg with
    | .rs256 =>
      if .rs256 ∈ allowed then
        authenticateInner lib token config resolver now .rs256 .rs256 mapper (rsaKeyFor lib)
      else .error (.refused (.algorithmNotSupported "RS256 is not in the allowed algorithms list"))
    | .es256 =>
      if .es256 ∈ allowed then
        authenticateInner lib token config resolver now .es256 .es256 mapper (ecKeyFor lib)
      else .error (.refused (.algorithmNotSupported "ES256 is not in the allowed algorithms list"))
    | alg => .error (.refused (.algorithmNotSupported
        ("OIDC provider does not support " ++ alg.debug)))

/-! ### The introspection cache -/

/-- `cache_key(token)`, 32 bytes. -/
abbrev CacheKey : Type := List UInt8

/-- `(inserted_at_timestamp, context)`. -/
structure CacheEntry where
  insertedAt : Int
  accepted : Accepted

/-- The map and the eviction queue; every change of them is made under both
locks. -/
structure IntrospectionCache where
  entries : AList (fun _ : CacheKey => CacheEntry)
  queue : List (CacheKey × Int)

def IntrospectionCache.empty : IntrospectionCache := ⟨∅, []⟩

/-- `MAX_INTROSPECTION_CACHE_ENTRIES`. -/
def maxIntrospectionCacheEntries : Nat := 10000

/-- `u64::try_from(now_ts.saturating_sub(inserted_at)).unwrap_or(u64::MAX)`. -/
def age (nowTs insertedAt : Int) : Nat :=
  let difference := max (-(2 ^ 63)) (min (2 ^ 63 - 1) (nowTs - insertedAt))
  if 0 ≤ difference then difference.toNat else 2 ^ 64 - 1

/-- The context cached under `key`, while it is fresh. -/
def IntrospectionCache.fresh (cache : IntrospectionCache) (ttl : Nat) (key : CacheKey)
    (nowTs : Int) : Option Accepted :=
  match cache.entries.lookup key with
  | some entry => if age nowTs entry.insertedAt < ttl then some entry.accepted else none
  | none => none

/-- The eviction loop: pops the queue until a record is the one of a live
entry, which goes with it. -/
def evict (entries : AList (fun _ : CacheKey => CacheEntry)) :
    List (CacheKey × Int) → IntrospectionCache
  | [] => ⟨entries, []⟩
  | (key, queuedAt) :: queue =>
    match entries.lookup key with
    | some entry =>
      -- a record whose entry was replaced since does not count
      if entry.insertedAt = queuedAt then ⟨entries.erase key, queue⟩ else evict entries queue
    | none => evict entries queue

def IntrospectionCache.makeRoom (cache : IntrospectionCache) : IntrospectionCache :=
  if maxIntrospectionCacheEntries ≤ cache.entries.entries.length then
    evict cache.entries cache.queue
  else cache

/-- The insertion, when there is room after all. -/
def IntrospectionCache.insert (cache : IntrospectionCache) (key : CacheKey) (entry : CacheEntry) :
    IntrospectionCache :=
  if cache.entries.entries.length < maxIntrospectionCacheEntries then
    ⟨cache.entries.insert key entry, cache.queue ++ [(key, entry.insertedAt)]⟩
  else cache

/-- The section under the write lock; what another thread cached meanwhile wins. -/
def IntrospectionCache.store (cache : IntrospectionCache) (ttl : Nat) (key : CacheKey)
    (nowTs : Int) (accepted : Accepted) : IntrospectionCache × Accepted :=
  match cache.fresh ttl key nowTs with
  | some existing => (cache, existing)
  | none => (cache.makeRoom.insert key ⟨nowTs, accepted⟩, accepted)

variable {cache : IntrospectionCache} {key : CacheKey} {entry : CacheEntry}

theorem fresh_some {ttl : Nat} {nowTs : Int} {accepted : Accepted}
    (h : cache.fresh ttl key nowTs = some accepted) :
    ∃ entry, cache.entries.lookup key = some entry ∧ age nowTs entry.insertedAt < ttl ∧
      entry.accepted = accepted := by
  unfold IntrospectionCache.fresh at h
  split at h
  · rename_i entry hentry
    simp only [Option.ite_none_right_eq_some, Option.some.injEq] at h
    exact ⟨entry, hentry, h.1, h.2⟩
  · cases h

theorem lookup_of_evict {entries : AList (fun _ : CacheKey => CacheEntry)}
    {queue : List (CacheKey × Int)} (h : (evict entries queue).entries.lookup key = some entry) :
    entries.lookup key = some entry := by
  induction queue with
  | nil => exact h
  | cons record _ ih =>
    obtain ⟨evicted, queuedAt⟩ := record
    unfold evict at h
    split at h
    · split at h
      · exact (lookup_erase_some h).2
      · exact ih h
    · exact ih h

theorem lookup_of_makeRoom (h : cache.makeRoom.entries.lookup key = some entry) :
    cache.entries.lookup key = some entry := by
  unfold IntrospectionCache.makeRoom at h
  split at h
  · exact lookup_of_evict h
  · exact h

/-- **What the critical section leaves in the cache**: what was there, and at
most the new entry. -/
theorem lookup_of_store {ttl : Nat} {key' : CacheKey} {nowTs : Int} {accepted : Accepted}
    (h : (cache.store ttl key nowTs accepted).1.entries.lookup key' = some entry) :
    cache.entries.lookup key' = some entry ∨ entry = ⟨nowTs, accepted⟩ := by
  unfold IntrospectionCache.store at h
  split at h
  · exact .inl h
  · dsimp only [IntrospectionCache.insert] at h
    split at h
    · obtain ⟨-, rfl⟩ | ⟨-, hold⟩ := lookup_insert_cases h
      · exact .inr rfl
      · exact .inl (lookup_of_makeRoom hold)
    · exact .inl (lookup_of_makeRoom h)

/-! ### The introspection path -/

structure IntrospectionResult where
  active : Bool
  claims : Option ClaimSet

/-- What one `introspect` call comes to; `none` when the pool dropped it. -/
abbrev IntrospectionAnswer : Type := Option (Except AuthenticationError IntrospectionResult)

def activeClaims (answer : IntrospectionAnswer) : Except AuthenticationError ClaimSet :=
  match answer with
  | none => .error (.providerUnavailable
      "introspection did not complete (pool exhausted or task dropped)")
  | some (.error e) => .error e
  | some (.ok result) =>
    if result.active then
      match result.claims with
      | some claims => .ok claims
      | none => .error (.providerUnavailable "active:true but claims absent — protocol error")
    else .error (.invalidToken "token is not active")

/-- `authenticate` up to the endpoint: the cached context, if there is one. -/
def lookupCached (provider : IntrospectionAuthenticationProvider) (cache : IntrospectionCache)
    (cacheKey : String → CacheKey) (token : String) (now : Timestamp) : Option Accepted :=
  match provider.cacheTtl with
  | some ttl => cache.fresh ttl (cacheKey token) (wholeSeconds now)
  | none => none

/-- `authenticate` from the endpoint's answer on. -/
def finishIntrospection (provider : IntrospectionAuthenticationProvider)
    (cache : IntrospectionCache) (cacheKey : String → CacheKey) (mapper : PrincipalMapper)
    (token : String) (now : Timestamp) (answer : IntrospectionAnswer) :
    IntrospectionCache × Except Stop Accepted :=
  match activeClaims answer with
  | .error e => (cache, .error (.refused e))
  | .ok claims =>
    match mapper.accept claims with
    | .error stop => (cache, .error stop)
    | .ok accepted =>
      match provider.cacheTtl with
      | none => (cache, .ok accepted)
      | some ttl =>
        let (cache', result) := cache.store ttl (cacheKey token) (wholeSeconds now) accepted
        (cache', .ok result)

end EgoRs
