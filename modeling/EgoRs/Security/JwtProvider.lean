import EgoRs.Security.Oidc

/-! # Single-Algorithm JWT Providers

The three providers of `security-jwt/src/authenticator.rs`, and which
tokens they accept. A token signed with the resolved key is accepted
exactly when its size, its algorithm, the type of the key and its claims
are right, and the call never panics.

This holds exactly where the expiry plus the leeway is still a date, or the
claims are not reached. The code adds the two without asking, and `chrono`
panics when the sum is none.
-/

namespace EgoRs.JwtProvider

/-! ### The configuration -/

/-- `ConfigError::Invalid`. -/
structure ConfigError where
  field : String
  reason : String
  deriving DecidableEq

/-- `MAX_LEEWAY_SECONDS`. -/
def maxLeewaySeconds : Nat := 300

/-- `JwtProviderConfig::validate`. -/
def validate (config : JwtProviderConfig) : Except ConfigError Unit :=
  if config.leewaySeconds.any (maxLeewaySeconds < ·) then
    .error ⟨"leeway_seconds", "must not exceed 300 seconds"⟩
  else if config.expectedIss.any String.isEmpty then
    .error ⟨"expected_iss", "must not be empty"⟩
  else
    match config.expectedAud with
    | none => .error ⟨"expected_aud", "is required — without it, a signature-valid token for " ++
        "any audience is accepted (audience-confusion / token-reuse risk)"⟩
    | some aud =>
      if aud.isEmpty then .error ⟨"expected_aud", "must not be empty when set"⟩
      else if aud.any String.isEmpty then
        .error ⟨"expected_aud", "must not contain empty string entries"⟩
      else .ok ()

/-- The leeway of a configuration, in seconds. -/
def leeway (config : JwtProviderConfig) : Int := (config.leewaySeconds.getD 0 : Nat)

/-- What `define_provider!` defines. `try_new` refuses a configuration that is
not valid. -/
structure Provider where
  config : JwtProviderConfig
  valid : validate config = .ok ()
  resolver : KeyResolver
  mapper : PrincipalMapper

theorem Provider.leeway_le (provider : Provider) :
    0 ≤ leeway provider.config ∧ leeway provider.config ≤ 300 := by
  have hvalid := provider.valid
  unfold validate at hvalid
  split at hvalid
  · cases hvalid
  · rename_i hleeway
    unfold leeway
    cases hl : provider.config.leewaySeconds with
    | none => decide
    | some seconds =>
      have hle : ¬ maxLeewaySeconds < seconds := by
        intro hlt
        exact hleeway (by rw [hl]; exact decide_eq_true hlt)
      simp only [maxLeewaySeconds] at hle
      simp only [Option.getD_some]
      omega

/-! ### The providers -/

def bearerToken : Credential → Except AuthenticationError String
  | .bearer token =>
    if maxTokenBytes < token.utf8ByteSize then
      .error (.invalidToken "token exceeds maximum allowed size")
    else .ok token
  | _ => .error (.invalidToken "expected Bearer credential")

/-- What the three `authenticate` methods share. -/
def authenticateWith (lib : Jsonwebtoken) (provider : Provider) (now : Timestamp)
    (expectedAlg : Algorithm) (jwtAlg : JwtAlgorithm)
    (buildDecodingKey : VerificationKey → Except AuthenticationError DecodingKey)
    (credential : Credential) : Except Stop Accepted :=
  match bearerToken credential with
  | .error e => .error (.refused e)
  | .ok token =>
    authenticateInner lib token provider.config provider.resolver now expectedAlg jwtAlg
      provider.mapper buildDecodingKey

def hmacDecodingKey : VerificationKey → Except AuthenticationError DecodingKey
  | .hmac bytes =>
    if bytes.length < 32 then
      .error (.providerUnavailable "HMAC secret must be at least 32 bytes (NIST SP 800-107)")
    else .ok (.secret bytes)
  | _ => .error (.invalidToken "expected HMAC key")

def rsaDecodingKey (lib : Jsonwebtoken) : VerificationKey → Except AuthenticationError DecodingKey
  | .rsaPem pem =>
    (lib.fromRsaPem pem).mapError fun e => .invalidToken ("bad RSA public key: " ++ e)
  | _ => .error (.invalidToken "expected RSA PEM key")

def ecDecodingKey (lib : Jsonwebtoken) : VerificationKey → Except AuthenticationError DecodingKey
  | .ecPem pem => (lib.fromEcPem pem).mapError fun e => .invalidToken ("bad EC public key: " ++ e)
  | _ => .error (.invalidToken "expected EC PEM key")

/-- `authenticate` of the provider for each algorithm. -/
def authenticate (lib : Jsonwebtoken) (provider : Provider) (now : Timestamp) :
    JwtAlgorithm → Credential → Except Stop Accepted
  | .hs256 => authenticateWith lib provider now .hs256 .hs256 hmacDecodingKey
  | .rs256 => authenticateWith lib provider now .rs256 .rs256 (rsaDecodingKey lib)
  | .es256 => authenticateWith lib provider now .es256 .es256 (ecDecodingKey lib)

/-! ### What a token must be -/

def pinned : JwtAlgorithm → Algorithm
  | .hs256 => .hs256
  | .rs256 => .rs256
  | .es256 => .es256

/-- The type of key an algorithm needs. -/
def OfType : JwtAlgorithm → VerificationKey → Prop
  | .hs256, .hmac secret => 32 ≤ secret.length
  | .rs256, .rsaPem _ => True
  | .es256, .ecPem _ => True
  | _, _ => False

/-- The key as the crate reads it. -/
def decodingKey (lib : Jsonwebtoken) : VerificationKey → Except String DecodingKey
  | .hmac secret => .ok (.secret secret)
  | .rsaPem pem => lib.fromRsaPem pem
  | .ecPem pem => lib.fromEcPem pem

/-- The token carries `claims`, signed with the key the resolver has for it.
Nothing is asked of a key or a header that do not fit the algorithm. -/
structure Signed (lib : Jsonwebtoken) (resolver : KeyResolver) (alg : JwtAlgorithm)
    (token : String) (header : Header) (key : VerificationKey) (claims : ClaimsMap) : Prop where
  decoded : lib.decodeHeader token = .ok header
  resolved : resolver header.kid alg = some (.ok key)
  payload : header.alg = pinned alg → OfType alg key → ∃ decoding,
    decodingKey lib key = .ok decoding ∧ lib.decode token decoding (pinned alg) = .ok claims

structure ClaimsHold (config : JwtProviderConfig) (now : Timestamp) (claims : ClaimsMap) :
    Prop where
  exp : ∃ v s, claims.lookup "exp" = some v ∧ v.IsDate s ∧
    now < (s + leeway config) * nanosPerSecond
  nbf : ∀ v, claims.lookup "nbf" = some v →
    ∃ s, v.IsDate s ∧ s * nanosPerSecond ≤ now + leeway config * nanosPerSecond
  iss : ∀ iss, config.expectedIss = some iss → claims.lookup "iss" = some (.string iss)
  aud : ∀ auds, config.expectedAud = some auds → ∃ aud ∈ auds, NamesAudience claims aud

/-- The expiry, if it is a date, still is one with the leeway added. -/
def ExpiryFits (config : JwtProviderConfig) (claims : ClaimsMap) : Prop :=
  ∀ v s, claims.lookup "exp" = some v → v.IsDate s → s + leeway config ≤ maxSeconds

section
variable {claims : ClaimsMap} {now seconds : Int}

theorem addDuration_of_fits {t d : Int} (hmin : minSeconds * nanosPerSecond ≤ t + d)
    (hmax : t + d < (maxSeconds + 1) * nanosPerSecond) : addDuration t d = .ok (t + d) :=
  if_pos ⟨hmin, hmax⟩

theorem tests_checkExp {v : Json} (hpos : 0 ≤ seconds)
    (hfits : ∀ s, v.IsDate s → s + seconds ≤ maxSeconds) :
    Tests (checkExp v (seconds * nanosPerSecond) now)
      (∃ s, v.IsDate s ∧ now < (s + seconds) * nanosPerSecond) := by
  unfold checkExp
  cases hparse : parseTimestamp v with
  | none =>
    refine .refuse ?_ _
    rintro ⟨s, hdate, -⟩
    rw [parseTimestamp_eq_some.mpr ⟨s, hdate, rfl⟩] at hparse
    cases hparse
  | some t =>
    obtain ⟨s, hdate, rfl⟩ := parseTimestamp_eq_some.mp hparse
    have hle := hfits s hdate
    have hmin := hdate.2.1
    have hadd : addDuration (s * nanosPerSecond) (seconds * nanosPerSecond)
        = .ok ((s + seconds) * nanosPerSecond) := by
      rw [Int.add_mul]
      apply addDuration_of_fits <;> simp only [nanosPerSecond] <;> omega
    show Tests (addDuration _ _ >>= _) _
    rw [hadd]
    show Tests (if now ≥ (s + seconds) * nanosPerSecond then _ else _) _
    split_ifs with hnow
    · refine .refuse ?_ _
      rintro ⟨s', hdate', hlt⟩
      obtain rfl : s = s' := Option.mem_unique hdate.1 hdate'.1
      exact absurd hlt (Int.not_lt.mpr hnow)
    · exact .pass ⟨s, hdate, Int.not_le.mp hnow⟩ ()

/-- The clock is before the year 10000, far from the last date. -/
theorem tests_checkNbf (hpos : 0 ≤ seconds) (hsmall : seconds ≤ 300)
    (hmin : minSeconds * nanosPerSecond ≤ now) (hnow : now < 253402300800 * nanosPerSecond) :
    Tests (checkNbf claims (seconds * nanosPerSecond) now) (∀ v, claims.lookup "nbf" = some v →
      ∃ s, v.IsDate s ∧ s * nanosPerSecond ≤ now + seconds * nanosPerSecond) := by
  unfold checkNbf
  cases hnbf : claims.lookup "nbf" with
  | none => exact .pass nofun ()
  | some v =>
    dsimp only
    cases hparse : parseTimestamp v with
    | none =>
      refine .refuse ?_ _
      intro h
      obtain ⟨s, hdate, -⟩ := h v rfl
      rw [parseTimestamp_eq_some.mpr ⟨s, hdate, rfl⟩] at hparse
      cases hparse
    | some t =>
      obtain ⟨s, hdate, rfl⟩ := parseTimestamp_eq_some.mp hparse
      have hadd : addDuration now (seconds * nanosPerSecond)
          = .ok (now + seconds * nanosPerSecond) := by
        simp only [nanosPerSecond, minSeconds] at hmin hnow ⊢
        apply addDuration_of_fits <;> simp only [nanosPerSecond, minSeconds, maxSeconds] <;> omega
      show Tests (addDuration _ _ >>= _) _
      rw [hadd]
      show Tests (if now + seconds * nanosPerSecond < s * nanosPerSecond then _ else _) _
      split_ifs with hlate
      · refine .refuse ?_ _
        intro h
        obtain ⟨s', hdate', hle⟩ := h v rfl
        obtain rfl : s = s' := Option.mem_unique hdate.1 hdate'.1
        exact absurd hlate (Int.not_lt.mpr hle)
      · refine .pass ?_ ()
        intro v' hv'
        cases hv'
        exact ⟨s, hdate, Int.not_lt.mp hlate⟩

/-- A valid configuration's leeway is taken as it is. -/
theorem Provider.durationSeconds_leeway (provider : Provider) :
    durationSeconds (effectiveLeeway provider.config.params.leewaySeconds)
      = .ok (leeway provider.config * nanosPerSecond) := by
  obtain ⟨hpos, hsmall⟩ := provider.leeway_le
  have heffective : effectiveLeeway provider.config.leewaySeconds = leeway provider.config := by
    unfold leeway at hsmall
    unfold effectiveLeeway leeway
    dsimp only
    rw [if_pos (by omega)]
  show durationSeconds (effectiveLeeway provider.config.leewaySeconds) = _
  rw [heffective]
  exact if_pos ⟨by omega, by omega⟩

/-- The checks of the payload decide its claims. -/
theorem tests_checkClaims (provider : Provider) (hmin : minSeconds * nanosPerSecond ≤ now)
    (hnow : now < 253402300800 * nanosPerSecond) (hfits : ExpiryFits provider.config claims) :
    Tests (checkClaims claims provider.config.params now)
      (ClaimsHold provider.config now claims) := by
  obtain ⟨hpos, hsmall⟩ := provider.leeway_le
  unfold checkClaims
  cases hexp : claims.lookup "exp" with
  | none =>
    refine .refuse ?_ _
    rintro ⟨⟨v, s, hv, -⟩, -⟩
    rw [hexp] at hv
    cases hv
  | some expVal =>
    show Tests (durationSeconds _ >>= _) _
    rw [provider.durationSeconds_leeway]
    refine ((tests_checkExp hpos fun s => hfits expVal s hexp).bind fun _ _ =>
      (tests_checkNbf hpos hsmall hmin hnow).bind fun _ _ =>
        (tests_checkIss provider.config.expectedIss).bind fun _ _ =>
          tests_checkAud provider.config.expectedAud).congr ?_
    constructor
    · rintro ⟨⟨s, hdate, hlt⟩, hnbf, hiss, haud⟩
      exact ⟨⟨expVal, s, hexp, hdate, hlt⟩, hnbf, hiss, haud⟩
    · rintro ⟨⟨v, s, hv, hdate, hlt⟩, hnbf, hiss, haud⟩
      obtain rfl := Option.mem_unique hexp hv
      exact ⟨⟨s, hdate, hlt⟩, hnbf, hiss, haud⟩

/-- An expiry that does not fit panics before any claim is compared. -/
theorem checkClaims_panics (provider : Provider) (hout : ¬ ExpiryFits provider.config claims) :
    checkClaims claims provider.config.params now = .error .panicked := by
  simp only [ExpiryFits, not_forall] at hout
  obtain ⟨v, s, hexp, hdate, hlate⟩ := hout
  have hadd : addDuration (s * nanosPerSecond) (leeway provider.config * nanosPerSecond)
      = .error .panicked := by
    refine if_neg fun hrange => hlate ?_
    have hlt : s * 1000000000 + leeway provider.config * 1000000000
        < (maxSeconds + 1) * 1000000000 := hrange.2
    omega
  have hparse := parseTimestamp_eq_some.mpr ⟨s, hdate, rfl⟩
  have hcheck : checkExp v (leeway provider.config * nanosPerSecond) now = .error .panicked := by
    unfold checkExp
    rw [hparse]
    show (addDuration _ _ >>= _) = _
    rw [hadd]
    rfl
  unfold checkClaims
  rw [hexp]
  show (durationSeconds _ >>= _) = _
  rw [provider.durationSeconds_leeway]
  show (checkExp _ _ _ >>= _) = _
  rw [hcheck]
  rfl

end

/-! ### Authentication -/

section
variable {lib : Jsonwebtoken} {provider : Provider} {alg : JwtAlgorithm} {token : String}
  {header : Header} {key : VerificationKey} {claims : ClaimsMap}

/-- The key builder of the provider for `alg`. -/
def buildKey (lib : Jsonwebtoken) : JwtAlgorithm → VerificationKey →
    Except AuthenticationError DecodingKey
  | .hs256 => hmacDecodingKey
  | .rs256 => rsaDecodingKey lib
  | .es256 => ecDecodingKey lib

theorem buildKey_ok {decoding : DecodingKey} (htype : OfType alg key)
    (hkey : decodingKey lib key = .ok decoding) : buildKey lib alg key = .ok decoding := by
  cases alg <;> cases key <;> first | cases htype | skip
  case hs256.hmac secret =>
    cases hkey
    exact if_neg (Nat.not_lt.mpr htype)
  case rs256.rsaPem pem =>
    change lib.fromRsaPem pem = _ at hkey
    show (lib.fromRsaPem pem).mapError _ = _
    rw [hkey]
    rfl
  case es256.ecPem pem =>
    change lib.fromEcPem pem = _ at hkey
    show (lib.fromEcPem pem).mapError _ = _
    rw [hkey]
    rfl

variable (lib) in
theorem buildKey_refused (htype : ¬ OfType alg key) : ∃ e, buildKey lib alg key = .error e := by
  cases alg <;> cases key <;> first | exact ⟨_, rfl⟩ | exact absurd trivial htype | skip
  case hs256.hmac secret => exact ⟨_, if_pos (Nat.not_le.mp htype)⟩

theorem tests_accept (mapper : PrincipalMapper) (cs : ClaimSet) :
    Tests (mapper.accept cs) (∃ r, mapper cs = .ok r) := by
  unfold PrincipalMapper.accept
  cases hmap : mapper cs with
  | ok r => exact .pass ⟨r, rfl⟩ _
  | error e => exact .refuse (fun ⟨_, hr⟩ => by cases hr) e

theorem authenticate_eq (now : Timestamp) (hsize : token.utf8ByteSize ≤ 8192) :
    authenticate lib provider now alg (.bearer token) =
      authenticateInner lib token provider.config provider.resolver now (pinned alg) alg
        provider.mapper (buildKey lib alg) := by
  have hnot : ¬ maxTokenBytes < token.utf8ByteSize := Nat.not_lt.mpr hsize
  cases alg <;> simp only [authenticate, authenticateWith, bearerToken, hnot, if_false] <;> rfl

/-- With the right algorithm and type of key, what is left is to validate the
payload. -/
theorem authenticateInner_eq (now : Timestamp)
    (hsigned : Signed lib provider.resolver alg token header key claims)
    (halg : header.alg = pinned alg) (htype : OfType alg key) :
    authenticateInner lib token provider.config provider.resolver now (pinned alg) alg
        provider.mapper (buildKey lib alg) = (do
      checkClaims claims provider.config.params now
      provider.mapper.accept (claimsMapToClaimSet lib.asF64 claims)) := by
  obtain ⟨decoding, hdecoding, hdecode⟩ := hsigned.payload halg htype
  simp only [authenticateInner, hsigned.decoded, halg, ne_eq, not_true_eq_false, if_false,
    resolveKeySync, hsigned.resolved, buildKey_ok htype hdecoding, validateWithMapper, hdecode]

/-- A token of the right size, from its header on. -/
theorem tests_authenticateInner {now : Int} (hmin : minSeconds * nanosPerSecond ≤ now)
    (hnow : now < 253402300800 * nanosPerSecond)
    (hsigned : Signed lib provider.resolver alg token header key claims)
    (hfits : header.alg = pinned alg → OfType alg key → ExpiryFits provider.config claims) :
    Tests (authenticateInner lib token provider.config provider.resolver now (pinned alg) alg
        provider.mapper (buildKey lib alg))
      (header.alg = pinned alg ∧ OfType alg key ∧ ClaimsHold provider.config now claims ∧
        ∃ r, provider.mapper (claimsMapToClaimSet lib.asF64 claims) = .ok r) := by
  by_cases halg : header.alg = pinned alg
  · by_cases htype : OfType alg key
    · rw [authenticateInner_eq now hsigned halg htype]
      refine ((tests_checkClaims provider hmin hnow (hfits halg htype)).bind fun _ _ =>
        tests_accept _ _).congr ?_
      exact ⟨fun h => ⟨halg, htype, h⟩, fun h => h.2.2⟩
    · obtain ⟨e, he⟩ := buildKey_refused lib htype
      simp only [authenticateInner, hsigned.decoded, halg, ne_eq, not_true_eq_false, if_false,
        resolveKeySync, hsigned.resolved, he]
      exact .refuse (fun h => htype h.2.1) _
  · simp only [authenticateInner, hsigned.decoded]
    rw [if_pos halg]
    exact .refuse (fun h => halg h.1) _

end

/-- **JWT validation is exact and total**, for a token signed with the resolved
key, exactly if its expiry plus the leeway is a date, or its size, its
algorithm or the type of the key is wrong and the expiry is not looked at. -/
theorem authenticate_exact (lib : Jsonwebtoken) (provider : Provider) (alg : JwtAlgorithm)
    {now : Timestamp} (hmin : minSeconds * nanosPerSecond ≤ now)
    (hnow : now < 253402300800 * nanosPerSecond) {token : String} {header : Header}
    {key : VerificationKey} {claims : ClaimsMap}
    (hsigned : Signed lib provider.resolver alg token header key claims) :
    (authenticate lib provider now alg (.bearer token) ≠ .error .panicked ∧
      ((∃ a, authenticate lib provider now alg (.bearer token) = .ok a) ↔
        token.utf8ByteSize ≤ 8192 ∧ header.alg = pinned alg ∧ OfType alg key ∧
          ClaimsHold provider.config now claims ∧
          ∃ r, provider.mapper (claimsMapToClaimSet lib.asF64 claims) = .ok r)) ↔
    (token.utf8ByteSize ≤ 8192 → header.alg = pinned alg → OfType alg key →
      ExpiryFits provider.config claims) := by
  constructor
  · rintro ⟨hnever, -⟩ hsize halg htype
    by_contra hout
    refine hnever ?_
    rw [authenticate_eq now hsize, authenticateInner_eq now hsigned halg htype,
      checkClaims_panics provider hout]
    rfl
  · intro hfits
    have hdecides : Tests (authenticate lib provider now alg (.bearer token))
        (token.utf8ByteSize ≤ 8192 ∧ header.alg = pinned alg ∧ OfType alg key ∧
          ClaimsHold provider.config now claims ∧
          ∃ r, provider.mapper (claimsMapToClaimSet lib.asF64 claims) = .ok r) := by
      by_cases hsize : token.utf8ByteSize ≤ 8192
      · rw [authenticate_eq now hsize]
        exact (tests_authenticateInner hmin hnow hsigned (hfits hsize)).congr
          ⟨fun h => ⟨hsize, h⟩, And.right⟩
      · have hlong : bearerToken (.bearer token) =
            .error (.invalidToken "token exceeds maximum allowed size") :=
          if_pos (Nat.not_le.mp hsize)
        cases alg <;> simp only [authenticate, authenticateWith, hlong] <;>
          exact .refuse (fun h => hsize h.1) _
    exact ⟨hdecides.not_panicked, hdecides.ok_iff⟩

/-! ### Tokens -/

/-- A crate for which every token is an RS256 one with these claims. -/
def sampleLib (claims : ClaimsMap) : Jsonwebtoken where
  decodeHeader := fun _ => .ok ⟨.rs256, none⟩
  fromRsaPem := fun pem => .ok (.rsa pem)
  fromEcPem := fun pem => .ok (.ec pem)
  decode := fun _ _ _ => .ok claims
  asF64 := fun _ => F64.ofNat 0

def sampleProvider : Provider where
  config := ⟨none, some ["api"], some 30⟩
  valid := rfl
  resolver := fun _ _ => some (.ok (.rsaPem "key"))
  mapper := fun _ => .ok (⟨.user, ⟨"alice", rfl⟩, none, [], []⟩, {})

def samplePayload (exp : String) : ClaimsMap :=
  ((∅ : ClaimsMap).insert "exp" (.number exp)).insert "aud" (.string "api")

theorem sample_signed (claims : ClaimsMap) :
    Signed (sampleLib claims) sampleProvider.resolver .rs256 "a.b.c" ⟨.rs256, none⟩
      (.rsaPem "key") claims :=
  ⟨rfl, rfl, fun _ _ => ⟨.rsa "key", rfl, rfl⟩⟩

/-- A token that expires at 1100, at 1000. -/
theorem authenticate_exact_sample :
    Signed (sampleLib (samplePayload "1100")) sampleProvider.resolver .rs256 "a.b.c"
        ⟨.rs256, none⟩ (.rsaPem "key") (samplePayload "1100") ∧
      authenticate (sampleLib (samplePayload "1100")) sampleProvider (1000 * nanosPerSecond)
        .rs256 (.bearer "a.b.c") ≠ .error .panicked ∧
      ∃ a, authenticate (sampleLib (samplePayload "1100")) sampleProvider
        (1000 * nanosPerSecond) .rs256 (.bearer "a.b.c") = .ok a := by
  have hsigned := sample_signed (samplePayload "1100")
  refine ⟨hsigned, ((authenticate_exact _ sampleProvider .rs256 (by decide) (by decide)
    hsigned).mpr ?_).1, _, rfl⟩
  intro _ _ _ v s hv hdate
  cases hv
  obtain rfl : (1100 : Int) = s := Option.some.inj hdate.1
  decide

/-- A token that expires at the last second there is panics as soon as there is
a leeway. -/
theorem last_second_panics :
    Signed (sampleLib (samplePayload "8210266876799")) sampleProvider.resolver .rs256 "a.b.c"
        ⟨.rs256, none⟩ (.rsaPem "key") (samplePayload "8210266876799") ∧
      (Json.number "8210266876799").IsDate maxSeconds ∧
      authenticate (sampleLib (samplePayload "8210266876799")) sampleProvider
        (1000 * nanosPerSecond) .rs256 (.bearer "a.b.c") = .error .panicked :=
  ⟨sample_signed _, ⟨rfl, by decide, by decide⟩, rfl⟩

end EgoRs.JwtProvider
