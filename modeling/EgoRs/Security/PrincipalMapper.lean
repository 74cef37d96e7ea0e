import EgoRs.Security.JwtValidation

/-! # The Default Principal Mapper

`DefaultPrincipalMapper` of `security-jwt/src/principal_mapper.rs`: which
claims make the principal, which become standard claims, and which stay
custom.
-/

namespace EgoRs

open Framework

/-! ### Claims read by name -/

namespace ClaimSet
variable (cs : ClaimSet)

/-- The array `roles` reads: the first of three places that has one. -/
def rolesArray : Option (List ClaimValue) :=
  ((cs.getArray "roles").or (cs.getNestedArray "realm_access" "roles")).or (cs.getArray "groups")

def roles : List String := ((cs.rolesArray).map (·.filterMap ClaimValue.asStr)).getD []

def scope : Option String := (cs.getStr "scp").or (cs.getStr "scope")

def organization : Option String := (cs.getStr "organization").or (cs.getStr "org_id")

/-- The claim the roles were taken from, when there are any. -/
def rolesSourceKey : Option String :=
  if cs.roles = [] then none
  else if (cs.getArray "roles").isSome then some "roles"
  else if (cs.getNestedArray "realm_access" "roles").isSome then some "realm_access"
  else some "groups"

/-- The tenant string and the claim it was taken from. -/
def tenantClaim : Option (String × String) :=
  match cs.getStr "tenant_id" with
  | some t => some (t, "tenant_id")
  | none =>
    match cs.getStr "tid" with
    | some t => some (t, "tid")
    | none => (cs.getStr "tenant").map fun t => (t, "tenant")

end ClaimSet

/-! ### Back to JSON -/

section
variable (render : F64 → String)

mutual
/-- `claim_value_to_json`; `render` is how `serde_json` writes a float. -/
def claimValueToJson : ClaimValue → Json
  | .null => .null
  | .bool b => .bool b
  | .integer i => .number (toString i)
  | .float f => .number (render f)
  | .string s => .string s
  | .array items => .array (claimValuesToJson items)
  | .map entries => .object (claimMembersToJson entries)
def claimValuesToJson : List ClaimValue → List Json
  | [] => []
  | v :: items => claimValueToJson v :: claimValuesToJson items
def claimMembersToJson : List (String × ClaimValue) → List (String × Json)
  | [] => []
  | (key, v) :: entries => (key, claimValueToJson v) :: claimMembersToJson entries
end

/-! ### Standard and custom claims -/

/-- `STANDARD_JWT_CLAIM_KEYS`. -/
def standardJwtClaimKeys : List String := ["exp", "nbf", "iat", "jti", "iss", "aud"]

def buildStandardFromClaimSet (cs : ClaimSet) : StandardClaims where
  exp := (cs.getI64 "exp").bind fromTimestamp
  nbf := (cs.getI64 "nbf").bind fromTimestamp
  iat := (cs.getI64 "iat").bind fromTimestamp
  jti := cs.getStr "jti"
  iss := cs.getStr "iss"
  aud := ((cs.getArray "aud").map (·.filterMap ClaimValue.asStr)).or
    ((cs.getStr "aud").map fun s => [s])

/-- All claims but those that became something else. -/
def remainingClaims (cs : ClaimSet) : ClaimsMap :=
  let all := mapValues (claimValueToJson render) cs.raw
  let consumed := "sub" :: standardJwtClaimKeys ++ cs.rolesSourceKey.toList ++
    (cs.tenantClaim.map Prod.snd).toList
  consumed.foldl (fun claims key => claims.erase key) all

/-- `insert` under the promoted name, then `remove` of the other one. -/
def promote (claims : ClaimsMap) (value : Option String) (name other : String) : ClaimsMap :=
  match value with
  | some v => (claims.insert name (.string v)).erase other
  | none => claims

def customClaims (cs : ClaimSet) : List (String × Json) :=
  let remaining := remainingClaims render cs
  let withScope := promote remaining cs.scope "scope" "scp"
  let organized := promote withScope cs.organization "organization" "org_id"
  (organized.entries.map fun e => (e.1, e.2)).insertionSort fun a b => a.1 ≤ b.1

/-! ### The mapper -/

/-- `Principal::with_role`. -/
def Principal.withRole (p : Principal) (role : String) : Principal :=
  if role ∈ p.roles then p else { p with roles := p.roles.orderedInsert (· ≤ ·) role }

/-- `DefaultPrincipalMapper::map`. -/
def defaultPrincipalMapper : PrincipalMapper := fun cs =>
  match cs.raw.lookup "sub" with
  | none => .error (.missingClaim "sub")
  | some value =>
    match value.asStr with
    | none => .error (.invalidToken "sub claim is not a string")
    | some sub =>
      match SubjectId.new sub with
      | none => .error (.invalidToken "invalid subject id")
      | some subjectId =>
        let user : Principal := { kind := .user, subjectId := subjectId }
        let principal := cs.roles.foldl Principal.withRole user
        let claims : Claims :=
          { standard := buildStandardFromClaimSet cs, custom := customClaims render cs }
        match cs.tenantClaim with
        | none => .ok (principal, claims)
        | some (tid, _) =>
          match TenantId.new tid with
          | none => .error (.invalidToken "invalid tenant claim")
          | some tenant => .ok ({ principal with tenantId := some tenant }, claims)

end

end EgoRs
