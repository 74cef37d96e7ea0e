import EgoRs.Security.ClaimSet
import EgoRs.Security.Identity

/-! # JWT Validation

`security-jwt/src/validation.rs` and the shared part of
`authenticator.rs`: from a bearer token to a security context.

Outside the repository are the `jsonwebtoken` crate, which checks the
signature and hands over the payload (`Jsonwebtoken`), and the key
resolver, whose answer may differ from call to call (`KeyResolver`).
`chrono` panics when a date leaves its range, and so does the code that
adds a leeway to one; a call ends refused, panicked, or with a context.

`Accepted` keeps the claim set a context was built from. The source
forgets it; no function here reads it.
-/

namespace EgoRs

open Framework

/-! ### Outcomes -/

inductive AuthenticationError where
  | invalidToken (message : String)
  | expiredToken
  | algorithmNotSupported (message : String)
  | missingClaim (name : String)
  | invalidSignature
  | providerUnavailable (message : String)
  deriving DecidableEq

/-- How a call ends that returns no context. -/
inductive Stop where
  | refused (e : AuthenticationError)
  | panicked
  deriving DecidableEq

/-- A call refused with `InvalidToken`. -/
def invalidToken {α : Type} (message : String) : Except Stop α :=
  .error (.refused (.invalidToken message))

/-- A context, with the claims it was built from. -/
structure Accepted where
  context : SecurityContext
  builtFrom : ClaimSet

/-- `PrincipalMapper::map`. -/
abbrev PrincipalMapper : Type := ClaimSet → Except AuthenticationError (Principal × Claims)

def PrincipalMapper.accept (mapper : PrincipalMapper) (cs : ClaimSet) : Except Stop Accepted :=
  match mapper cs with
  | .ok (principal, claims) => .ok ⟨⟨principal, claims⟩, cs⟩
  | .error e => .error (.refused e)

theorem PrincipalMapper.builtFrom_of_accept {mapper : PrincipalMapper} {cs : ClaimSet}
    {a : Accepted} (h : mapper.accept cs = .ok a) : a.builtFrom = cs := by
  unfold accept at h
  split at h
  · cases h
    rfl
  · cases h

/-! ### Dates -/

def nanosPerSecond : Int := 1000000000

/-- The first and the last second of `DateTime<Utc>`. -/
def minSeconds : Int := -8334601228800

def maxSeconds : Int := 8210266876799

/-- `DateTime::from_timestamp(s, 0)`. -/
def fromTimestamp (s : Int) : Option Timestamp :=
  if minSeconds ≤ s ∧ s ≤ maxSeconds then some (s * nanosPerSecond) else none

/-- `chrono::Duration::seconds`, in nanoseconds. -/
def durationSeconds (s : Int) : Except Stop Int :=
  if -((2 ^ 63 - 1) / 1000) ≤ s ∧ s ≤ (2 ^ 63 - 1) / 1000 then .ok (s * nanosPerSecond)
  else .error .panicked

/-- `date + duration`. -/
def addDuration (t : Timestamp) (d : Int) : Except Stop Timestamp :=
  if minSeconds * nanosPerSecond ≤ t + d ∧ t + d < (maxSeconds + 1) * nanosPerSecond then
    .ok (t + d)
  else .error .panicked

/-- `DateTime::timestamp`: whole seconds, rounded down. -/
def wholeSeconds (t : Timestamp) : Int := t / nanosPerSecond

/-! ### Claims of the payload -/

structure ValidationParams where
  expectedIss : Option String
  expectedAud : Option (List String)
  /-- A `u64`. -/
  leewaySeconds : Option Nat

def parseTimestamp (v : Json) : Option Timestamp :=
  (v.asI64.or (v.asU64.bind fun u => if u < 2 ^ 63 then some (u : Int) else none)).bind
    fromTimestamp

/-- `i64::try_from(leeway_seconds.unwrap_or(0)).unwrap_or(0)`: a leeway that
does not fit is no leeway. -/
def effectiveLeeway (leewaySeconds : Option Nat) : Int :=
  let leeway := leewaySeconds.getD 0
  if leeway < 2 ^ 63 then leeway else 0

/-- The `exp` check. -/
def checkExp (expVal : Json) (leeway : Int) (now : Timestamp) : Except Stop Unit :=
  match parseTimestamp expVal with
  | some exp => do
    let limit ← addDuration exp leeway
    if now ≥ limit then .error (.refused .expiredToken) else .ok ()
  | none => invalidToken "exp claim is not a valid integer"

/-- The `nbf` check. -/
def checkNbf (claims : ClaimsMap) (leeway : Int) (now : Timestamp) : Except Stop Unit :=
  match claims.lookup "nbf" with
  | none => .ok ()
  | some nbfVal =>
    match parseTimestamp nbfVal with
    | some nbf => do
      let late ← addDuration now leeway
      if late < nbf then invalidToken "token not yet valid" else .ok ()
    | none => invalidToken "nbf claim is not a valid integer"

/-- The `iss` check. -/
def checkIss (claims : ClaimsMap) (expectedIss : Option String) : Except Stop Unit :=
  match expectedIss with
  | none => .ok ()
  | some expected =>
    match claims.lookup "iss" with
    | some (.string iss) => if iss = expected then .ok () else invalidToken "issuer mismatch"
    | _ => invalidToken "issuer mismatch"

/-- The audiences of a payload: one string, or the strings of an array. -/
def tokenAuds (claims : ClaimsMap) : Except Stop (List String) :=
  match claims.lookup "aud" with
  | some (.string s) => .ok [s]
  | some (.array items) => .ok (items.filterMap Json.asStr)
  | none => .ok []
  | some _ => invalidToken "aud claim is not a string or array"

/-- The `aud` check. -/
def checkAud (claims : ClaimsMap) (expectedAud : Option (List String)) : Except Stop Unit :=
  match expectedAud with
  | none => .ok ()
  | some expected => do
    let auds ← tokenAuds claims
    if expected.any fun ea => auds.contains ea then .ok () else invalidToken "aud mismatch"

/-- The checks on the payload, in the source's order. `exp` must be there
before the leeway is looked at. -/
def checkClaims (claims : ClaimsMap) (params : ValidationParams) (now : Timestamp) :
    Except Stop Unit :=
  match claims.lookup "exp" with
  | none => invalidToken "missing required claim: exp"
  | some expVal => do
    let leeway ← durationSeconds (effectiveLeeway params.leewaySeconds)
    checkExp expVal leeway now
    checkNbf claims leeway now
    checkIss claims params.expectedIss
    checkAud claims params.expectedAud

/-! ### The token -/

/-- `jsonwebtoken::Algorithm`. -/
inductive Algorithm where
  | hs256 | hs384 | hs512 | es256 | es384 | rs256 | rs384 | rs512 | ps256 | ps384 | ps512
  | edDSA
  deriving DecidableEq

/-- Its `Debug` text. -/
def Algorithm.debug : Algorithm → String
  | .hs256 => "HS256"
  | .hs384 => "HS384"
  | .hs512 => "HS512"
  | .es256 => "ES256"
  | .es384 => "ES384"
  | .rs256 => "RS256"
  | .rs384 => "RS384"
  | .rs512 => "RS512"
  | .ps256 => "PS256"
  | .ps384 => "PS384"
  | .ps512 => "PS512"
  | .edDSA => "EdDSA"

/-- The two fields of a token header the code reads. -/
structure Header where
  alg : Algorithm
  kid : Option String
  deriving DecidableEq

/-- What the error of `jsonwebtoken::decode` is matched on. -/
inductive DecodeErrorKind where
  | invalidSignature
  | invalidAlgorithm
  | other
  deriving DecidableEq

structure DecodeError where
  kind : DecodeErrorKind
  text : String
  deriving DecidableEq

inductive DecodingKey where
  | secret (bytes : List UInt8)
  | rsa (pem : String)
  | ec (pem : String)
  deriving DecidableEq

/-- The `jsonwebtoken` crate, with its own claim checks switched off: `decode`
checks the signature and hands over the payload. -/
structure Jsonwebtoken where
  decodeHeader : String → Except String Header
  fromRsaPem : String → Except String DecodingKey
  fromEcPem : String → Except String DecodingKey
  decode : String → DecodingKey → Algorithm → Except DecodeError ClaimsMap
  /-- `serde_json`'s reading of a number that is not an integer. -/
  asF64 : String → F64

/-- How a decode error is reported. -/
def decodeFailure (e : DecodeError) : AuthenticationError :=
  match e.kind with
  | .invalidSignature => .invalidSignature
  | .invalidAlgorithm => .algorithmNotSupported e.text
  | .other => .invalidToken e.text

/-- `JwtValidationEngine::validate_with_mapper`. -/
def validateWithMapper (lib : Jsonwebtoken) (token : String) (key : DecodingKey)
    (alg : Algorithm) (params : ValidationParams) (now : Timestamp) (mapper : PrincipalMapper) :
    Except Stop Accepted :=
  match lib.decode token key alg with
  | .error e => .error (.refused (decodeFailure e))
  | .ok claims => do
    checkClaims claims params now
    mapper.accept (claimsMapToClaimSet lib.asF64 claims)

/-! ### Keys -/

inductive JwtAlgorithm where
  | hs256
  | rs256
  | es256
  deriving DecidableEq

/-- Its `Debug` text. -/
def JwtAlgorithm.debug : JwtAlgorithm → String
  | .hs256 => "Hs256"
  | .rs256 => "Rs256"
  | .es256 => "Es256"

inductive VerificationKey where
  | hmac (secret : List UInt8)
  | rsaPem (pem : String)
  | ecPem (pem : String)
  deriving DecidableEq

inductive KeyResolverError where
  | keyNotFound (kid : Option String)
  | algorithmMismatch (expected requested : JwtAlgorithm)
  | invalidKeyMaterial (message : String)
  deriving DecidableEq

/-- `KeyResolver::resolve`, as it behaves during one call; `none` when the
pool dropped the task. -/
abbrev KeyResolver : Type :=
  Option String → JwtAlgorithm → Option (Except KeyResolverError VerificationKey)

def mapResolverError : KeyResolverError → AuthenticationError
  | .keyNotFound _ => .invalidSignature
  | .algorithmMismatch expected requested =>
    .algorithmNotSupported
      ("algorithm mismatch: expected " ++ expected.debug ++ ", requested " ++ requested.debug)
  | .invalidKeyMaterial message => .invalidToken ("key material: " ++ message)

def resolveKeySync (resolver : KeyResolver) (kid : Option String) (algorithm : JwtAlgorithm) :
    Except AuthenticationError VerificationKey :=
  match resolver kid algorithm with
  | none => .error (.providerUnavailable
      "key resolver did not complete (pool exhausted or task dropped)")
  | some (.error e) => .error (mapResolverError e)
  | some (.ok key) => .ok key

structure JwtProviderConfig where
  expectedIss : Option String
  expectedAud : Option (List String)
  leewaySeconds : Option Nat

/-- The parameters `authenticate_inner` hands to the engine. -/
def JwtProviderConfig.params (config : JwtProviderConfig) : ValidationParams where
  expectedIss := config.expectedIss
  expectedAud := config.expectedAud
  leewaySeconds := config.leewaySeconds

def authenticateInner (lib : Jsonwebtoken) (token : String) (config : JwtProviderConfig)
    (resolver : KeyResolver) (now : Timestamp) (expectedAlg : Algorithm) (jwtAlg : JwtAlgorithm)
    (mapper : PrincipalMapper)
    (buildDecodingKey : VerificationKey → Except AuthenticationError DecodingKey) :
    Except Stop Accepted :=
  match lib.decodeHeader token with
  | .error text => invalidToken text
  | .ok header =>
    if header.alg ≠ expectedAlg then
      .error (.refused (.algorithmNotSupported
        ("expected " ++ expectedAlg.debug ++ " but token uses " ++ header.alg.debug)))
    else
      match resolveKeySync resolver header.kid jwtAlg with
      | .error e => .error (.refused e)
      | .ok verificationKey =>
        match buildDecodingKey verificationKey with
        | .error e => .error (.refused e)
        | .ok key => validateWithMapper lib token key expectedAlg config.params now mapper

/-! ### Checks as tests -/

/-- The check passes where `P` holds and refuses where it does not; it never
panics. -/
def Tests {α : Type} (check : Except Stop α) (P : Prop) : Prop :=
  (P ∧ ∃ a, check = .ok a) ∨ (¬ P ∧ ∃ e, check = .error (.refused e))

section
variable {α β : Type} {check : Except Stop α} {rest : α → Except Stop β} {P Q : Prop}

theorem Tests.pass (hp : P) (a : α) : Tests (.ok a) P := .inl ⟨hp, a, rfl⟩

theorem Tests.refuse (hp : ¬ P) (e : AuthenticationError) :
    Tests (.error (.refused e) : Except Stop α) P := .inr ⟨hp, e, rfl⟩

/-- A check followed by another tests both. -/
theorem Tests.bind (hc : Tests check P) (hr : ∀ a, check = .ok a → Tests (rest a) Q) :
    Tests (check >>= rest) (P ∧ Q) := by
  rcases hc with ⟨hp, a, rfl⟩ | ⟨hp, e, rfl⟩
  · rcases hr a rfl with ⟨hq, hok⟩ | ⟨hq, hrefused⟩
    · exact .inl ⟨⟨hp, hq⟩, hok⟩
    · exact .inr ⟨fun h => hq h.2, hrefused⟩
  · exact .refuse (fun h => hp h.1) e

theorem Tests.congr (hc : Tests check P) (h : P ↔ Q) : Tests check Q := by
  rwa [← propext h]

theorem Tests.not_panicked (hc : Tests check P) : check ≠ .error .panicked := by
  rcases hc with ⟨-, a, rfl⟩ | ⟨-, e, rfl⟩ <;> nofun

theorem Tests.ok_iff (hc : Tests check P) : (∃ a, check = .ok a) ↔ P := by
  rcases hc with ⟨hp, a, rfl⟩ | ⟨hp, e, rfl⟩
  · exact ⟨fun _ => hp, fun _ => ⟨a, rfl⟩⟩
  · constructor
    · rintro ⟨a, ha⟩
      cases ha
    · intro h
      exact absurd h hp

end

/-! ### What an accepted token's claims satisfy -/

/-- The claims are the expected issuer's, are meant for an expected audience,
and, if they carry an expiry, are not past it and the leeway at `now`. -/
structure BoundTo (expectedIss : Option String) (expectedAud : Option (List String))
    (leewaySeconds : Option Nat) (now : Timestamp) (cs : ClaimSet) : Prop where
  issuer : ∀ iss, expectedIss = some iss → cs.issuer = some iss
  audience : ∀ auds, expectedAud = some auds → ∃ aud ∈ auds, aud ∈ cs.audiences
  expiry : ∀ exp, cs.expiry = some exp →
    now < (exp + (leewaySeconds.getD 0 : Nat)) * nanosPerSecond

/-- The digits of a number that fits `u64` are those of its integer. -/
theorem asI64_of_asU64 {v : Json} {u : Nat} (h : v.asU64 = some u) (hu : u < 2 ^ 63) :
    v.asI64 = some (u : Int) := by
  cases v with
  | number text =>
    unfold Json.asU64 at h
    cases hd : decimal text with
    | none => simp [hd] at h
    | some n =>
      simp only [hd, Option.ite_none_right_eq_some, Option.some.injEq] at h
      obtain ⟨_, rfl⟩ := h
      -- a text of digits does not start with a sign
      have hint : Json.integer? (.number text) = some (n : Int) := by
        simp only [Json.integer?]
        split
        · rename_i digits hsign
          simp [decimal, hsign, Char.isDigit] at hd
        · simp [hd]
      have hrange : -(2 ^ 63) ≤ (n : Int) ∧ (n : Int) < 2 ^ 63 := by omega
      simp only [Json.asI64, hint, hrange, and_self, if_true]
  | _ => simp [Json.asU64] at h

/-- The integer timestamp `s`, which is a date. -/
def Json.IsDate (v : Json) (s : Int) : Prop :=
  v.integer? = some s ∧ minSeconds ≤ s ∧ s ≤ maxSeconds

theorem Json.asI64_eq_some {v : Json} {s : Int} :
    v.asI64 = some s ↔ v.integer? = some s ∧ -(2 ^ 63) ≤ s ∧ s < 2 ^ 63 := by
  unfold Json.asI64
  cases v.integer? with
  | none => simp
  | some i =>
    simp only [Option.ite_none_right_eq_some, Option.some.injEq]
    constructor
    · rintro ⟨hrange, rfl⟩
      exact ⟨rfl, hrange⟩
    · rintro ⟨rfl, hrange⟩
      exact ⟨hrange, rfl⟩

theorem Json.IsDate.asI64 {v : Json} {s : Int} (h : v.IsDate s) : v.asI64 = some s := by
  obtain ⟨hs, hmin, hmax⟩ := h
  simp only [minSeconds, maxSeconds] at hmin hmax
  exact Json.asI64_eq_some.mpr ⟨hs, by omega, by omega⟩

/-- A timestamp that parses is a whole number of seconds within the dates. -/
theorem parseTimestamp_eq_some {v : Json} {t : Timestamp} :
    parseTimestamp v = some t ↔ ∃ s, v.IsDate s ∧ t = s * nanosPerSecond := by
  unfold parseTimestamp
  rw [Option.bind_eq_some_iff]
  simp only [fromTimestamp, Option.ite_none_right_eq_some, Option.some.injEq]
  constructor
  · rintro ⟨s, hs, hdate, rfl⟩
    have hi : v.asI64 = some s := by
      rcases Option.or_eq_some_iff.mp hs with hi | ⟨_, hu⟩
      · exact hi
      · obtain ⟨u, hu64, hfit⟩ := Option.bind_eq_some_iff.mp hu
        simp only [Option.ite_none_right_eq_some, Option.some.injEq] at hfit
        obtain ⟨hlt, rfl⟩ := hfit
        exact asI64_of_asU64 hu64 hlt
    exact ⟨s, ⟨(Json.asI64_eq_some.mp hi).1, hdate⟩, rfl⟩
  · rintro ⟨s, hdate, rfl⟩
    exact ⟨s, by rw [hdate.asI64]; rfl, hdate.2, rfl⟩

theorem effectiveLeeway_le (leewaySeconds : Option Nat) :
    effectiveLeeway leewaySeconds ≤ (leewaySeconds.getD 0 : Nat) := by
  unfold effectiveLeeway
  dsimp only
  split <;> omega

/-- A check that is followed by others succeeds only when they all do. -/
theorem ok_of_bind {ε α β : Type} {check : Except ε α} {rest : α → Except ε β} {b : β}
    (h : (check >>= rest) = .ok b) : ∃ a, check = .ok a ∧ rest a = .ok b := by
  cases check with
  | error => cases h
  | ok a => exact ⟨a, rfl, h⟩

variable {now : Timestamp} {claims : ClaimsMap}

theorem checkExp_ok {expVal : Json} {leeway : Int} (h : checkExp expVal leeway now = .ok ()) :
    ∃ exp, expVal.asI64 = some exp ∧ now < exp * nanosPerSecond + leeway := by
  unfold checkExp at h
  split at h
  · rename_i t ht
    obtain ⟨exp, hexp, rfl⟩ := parseTimestamp_eq_some.mp ht
    obtain ⟨limit, hlimit, hlt⟩ := ok_of_bind h
    have hsum : limit = exp * nanosPerSecond + leeway := by
      unfold addDuration at hlimit
      split at hlimit
      · exact (Except.ok.inj hlimit).symm
      · cases hlimit
    split at hlt
    · cases hlt
    · rename_i hnot
      refine ⟨exp, hexp.asI64, ?_⟩
      rw [← hsum]
      exact Int.not_le.mp hnot
  · cases h

theorem tests_checkIss (expectedIss : Option String) : Tests (checkIss claims expectedIss)
      (∀ iss, expectedIss = some iss → claims.lookup "iss" = some (.string iss)) := by
  unfold checkIss
  cases expectedIss with
  | none => exact .pass nofun ()
  | some expected =>
    dsimp only
    split
    · rename_i iss hiss
      split_ifs with heq
      · refine .pass ?_ ()
        rintro _ ⟨⟩
        rw [hiss, heq]
      · refine .refuse ?_ _
        intro h
        rw [h expected rfl] at hiss
        cases hiss
        exact heq rfl
    · rename_i hother
      refine .refuse ?_ _
      intro h
      exact hother expected (h expected rfl)

/-- `aud` is the audience of the payload, or one of them. -/
def NamesAudience (claims : ClaimsMap) (aud : String) : Prop :=
  claims.lookup "aud" = some (.string aud) ∨
    ∃ items, claims.lookup "aud" = some (.array items) ∧ .string aud ∈ items

theorem mem_filterMap_asStr {items : List Json} {s : String} :
    s ∈ items.filterMap Json.asStr ↔ .string s ∈ items := by
  rw [List.mem_filterMap]
  constructor
  · rintro ⟨v, hv, hs⟩
    cases v with
    | string =>
      cases hs
      exact hv
    | _ => cases hs
  · intro hv
    exact ⟨_, hv, rfl⟩

theorem mem_tokenAuds {auds : List String} (h : tokenAuds claims = .ok auds) (aud : String) :
    aud ∈ auds ↔ NamesAudience claims aud := by
  unfold tokenAuds at h
  unfold NamesAudience
  split at h
  · rename_i s hs
    cases h
    simp [hs, eq_comm]
  · rename_i items hs
    cases h
    rw [mem_filterMap_asStr]
    simp [hs]
  · rename_i hs
    cases h
    simp [hs]
  · cases h

theorem tokenAuds_error {stop : Stop} (h : tokenAuds claims = .error stop) (aud : String) :
    (∃ e, stop = .refused e) ∧ ¬ NamesAudience claims aud := by
  unfold tokenAuds at h
  unfold NamesAudience
  split at h
  · cases h
  · cases h
  · cases h
  · rename_i v hstring harray hv
    refine ⟨⟨_, (Except.error.inj h).symm⟩, ?_⟩
    rintro (hs | ⟨items, hs, -⟩)
    · exact hstring aud (Option.mem_unique hv hs)
    · exact harray items (Option.mem_unique hv hs)

theorem tests_checkAud (expectedAud : Option (List String)) : Tests (checkAud claims expectedAud)
      (∀ auds, expectedAud = some auds → ∃ aud ∈ auds, NamesAudience claims aud) := by
  cases expectedAud with
  | none => exact .pass nofun ()
  | some expected =>
    unfold checkAud
    dsimp only
    cases hauds : tokenAuds claims with
    | error stop =>
      obtain ⟨e, rfl⟩ := (tokenAuds_error hauds "").1
      refine .refuse ?_ e
      intro h
      obtain ⟨aud, -, hnames⟩ := h expected rfl
      exact (tokenAuds_error hauds aud).2 hnames
    | ok auds =>
      have hany : (expected.any fun ea => auds.contains ea) = true ↔
          ∃ aud ∈ expected, aud ∈ auds := by simp
      show Tests (if (expected.any fun ea => auds.contains ea) = true then _ else _) _
      split_ifs with hfound
      · obtain ⟨aud, haud, hin⟩ := hany.mp hfound
        refine .pass ?_ ()
        rintro _ ⟨⟩
        exact ⟨aud, haud, (mem_tokenAuds hauds aud).mp hin⟩
      · refine .refuse ?_ _
        intro h
        obtain ⟨aud, haud, hnames⟩ := h expected rfl
        exact hfound (hany.mpr ⟨aud, haud, (mem_tokenAuds hauds aud).mpr hnames⟩)

theorem NamesAudience.mem_audiences {aud : String} (h : NamesAudience claims aud)
    (asF64 : String → F64) : aud ∈ (claimsMapToClaimSet asF64 claims).audiences := by
  unfold ClaimSet.audiences claimsMapToClaimSet
  rw [lookup_mapValues]
  rcases h with hs | ⟨items, hs, hmem⟩
  · simp [hs, valueToClaimValue]
  · simp only [hs, Option.map_some, valueToClaimValue, filterMap_asStr_values]
    exact mem_filterMap_asStr.mpr hmem

/-- A payload that passes the checks is bound to the parameters. -/
theorem boundTo_of_checkClaims (asF64 : String → F64) {params : ValidationParams}
    (h : checkClaims claims params now = .ok ()) :
    BoundTo params.expectedIss params.expectedAud params.leewaySeconds now
      (claimsMapToClaimSet asF64 claims) := by
  unfold checkClaims at h
  split at h
  · cases h
  · rename_i expVal hexpVal
    obtain ⟨leeway, hleeway, h⟩ := ok_of_bind h
    obtain ⟨_, hexp, h⟩ := ok_of_bind h
    obtain ⟨_, _, h⟩ := ok_of_bind h
    obtain ⟨_, hiss, haud⟩ := ok_of_bind h
    refine ⟨?_, ?_, ?_⟩
    · intro iss hsome
      have hstring := (tests_checkIss _).ok_iff.mp ⟨_, hiss⟩ iss hsome
      simp [ClaimSet.issuer, ClaimSet.getStr, claimsMapToClaimSet, hstring, valueToClaimValue,
        ClaimValue.asStr]
    · intro auds hsome
      obtain ⟨aud, hmem, hnames⟩ := (tests_checkAud _).ok_iff.mp ⟨_, haud⟩ auds hsome
      exact ⟨aud, hmem, hnames.mem_audiences asF64⟩
    · intro exp hexpiry
      obtain ⟨exp', hexp', hlt⟩ := checkExp_ok hexp
      rw [expiry_claimsMap asF64 hexpVal hexp', Option.some.injEq] at hexpiry
      subst hexpiry
      -- a leeway that does not fit counts as none, which only tightens the check
      have hdur : leeway = effectiveLeeway params.leewaySeconds * nanosPerSecond := by
        unfold durationSeconds at hleeway
        split at hleeway
        · exact (Except.ok.inj hleeway).symm
        · cases hleeway
      have hle := effectiveLeeway_le params.leewaySeconds
      calc now < exp' * nanosPerSecond + leeway := hlt
        _ = (exp' + effectiveLeeway params.leewaySeconds) * nanosPerSecond := by
          rw [hdur, Int.add_mul]
        _ ≤ (exp' + (params.leewaySeconds.getD 0 : Nat)) * nanosPerSecond :=
          Int.mul_le_mul_of_nonneg_right (Int.add_le_add_left hle _) (by decide)

/-- **An accepted JWT is bound to the configuration.** -/
theorem boundTo_of_authenticateInner {lib : Jsonwebtoken} {token : String}
    {config : JwtProviderConfig} {resolver : KeyResolver} {expectedAlg : Algorithm}
    {jwtAlg : JwtAlgorithm} {mapper : PrincipalMapper}
    {build : VerificationKey → Except AuthenticationError DecodingKey} {a : Accepted}
    (h : authenticateInner lib token config resolver now expectedAlg jwtAlg mapper build = .ok a) :
    BoundTo config.expectedIss config.expectedAud config.leewaySeconds now a.builtFrom := by
  unfold authenticateInner at h
  split at h
  · cases h
  · split at h
    · cases h
    · split at h
      · cases h
      · split at h
        · cases h
        · unfold validateWithMapper at h
          split at h
          · cases h
          · obtain ⟨_, hclaims, haccept⟩ := ok_of_bind h
            rw [PrincipalMapper.builtFrom_of_accept haccept]
            exact boundTo_of_checkClaims lib.asF64 hclaims

end EgoRs
