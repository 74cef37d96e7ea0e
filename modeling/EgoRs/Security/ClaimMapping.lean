import EgoRs.Security.PrincipalMapper
import Mathlib.Logic.Equiv.Nat

/-! # What Becomes of Every Claim

`DefaultPrincipalMapper` turns claims into the subject, roles, a tenant and
standard claims and keeps the others. Where the roles come from, which claims
are read and which are dropped is found in separate passes. They agree when
an empty array hides no role, a claim that is dropped was read in full,
and a promoted claim overwrites no other value.
-/

namespace EgoRs

open Framework

/-! ## The property and its condition -/

def roleKeys : List String := ["roles", "realm_access", "groups"]
def tenantKeys : List String := ["tenant_id", "tid", "tenant"]

namespace ClaimSet
variable (cs : ClaimSet)

/-- The arrays that may name the roles, by priority. -/
def roleArrays : List (String × List ClaimValue) :=
  [("roles", cs.getArray "roles"), ("realm_access", cs.getNestedArray "realm_access" "roles"),
    ("groups", cs.getArray "groups")].filterMap fun p => p.2.map fun items => (p.1, items)

/-- The first of them that is not empty. -/
def roleSource : Option (String × List ClaimValue) := cs.roleArrays.find? fun p => !p.2.isEmpty

/-- The first string among the tenant claims, with its name. -/
def tenantSource : Option (String × String) :=
  tenantKeys.findSome? fun key => (cs.getStr key).map fun s => (s, key)

/-- Two names of one claim: both are there only with one value, or without a
string. -/
def Agree (a b : String) : Prop :=
  ∀ v w, cs.raw.lookup a = some v → cs.raw.lookup b = some w →
    v = w ∨ (v.asStr = none ∧ w.asStr = none)

end ClaimSet

/-- A claim with these roles and nothing else. -/
def rolesClaim (key : String) (items : List ClaimValue) : ClaimValue :=
  if key = "realm_access" then .map [("roles", .array items)] else .array items

/-- A number of seconds that is a date. -/
def ClaimValue.IsTime (t : Timestamp) : ClaimValue → Prop
  | .integer n => fromTimestamp n = some t
  | .float f => fromTimestamp f.toI64 = some t
  | _ => False

/-- What a standard claim has to be. -/
inductive ClaimValue.Standard : ClaimValue → String → Prop where
  | time {v : ClaimValue} {key : String} {t : Timestamp} (name : key ∈ ["exp", "nbf", "iat"])
      (time : v.IsTime t) : Standard v key
  | text {key s : String} (name : key ∈ ["jti", "iss"]) : Standard (.string s) key
  | audience {s : String} : Standard (.string s) "aud"
  | audiences {names : List String} : Standard (.array (names.map .string)) "aud"

/-- The standard claim `key` says what `v` says. -/
inductive StandardHas (s : StandardClaims) : String → ClaimValue → Prop where
  | exp {v : ClaimValue} {t : Timestamp} (time : v.IsTime t) (has : s.exp = some t) :
      StandardHas s "exp" v
  | nbf {v : ClaimValue} {t : Timestamp} (time : v.IsTime t) (has : s.nbf = some t) :
      StandardHas s "nbf" v
  | iat {v : ClaimValue} {t : Timestamp} (time : v.IsTime t) (has : s.iat = some t) :
      StandardHas s "iat" v
  | jti {id : String} (has : s.jti = some id) : StandardHas s "jti" (.string id)
  | iss {name : String} (has : s.iss = some name) : StandardHas s "iss" (.string name)
  | aud {name : String} (has : s.aud = some [name]) : StandardHas s "aud" (.string name)
  | auds {names : List String} (has : s.aud = some names) :
      StandardHas s "aud" (.array (names.map .string))

section
variable (asF64 : String → F64)

mutual
/-- The JSON value says what the claim says, however that came about; a number
is read as `as_f64` reads it if the claim is a float. -/
def ClaimValue.SameAs : ClaimValue → Json → Prop
  | .null, v => v = .null
  | .bool b, v => v = .bool b
  | .integer i, v => v = .number (toString i)
  | .float f, v => ∃ text, v = .number text ∧ asF64 text = f
  | .string s, v => v = .string s
  | .array items, v => ∃ vs, v = .array vs ∧ SameItems items vs
  | .map entries, v => ∃ members, v = .object members ∧ SameMembers entries members
def SameItems : List ClaimValue → List Json → Prop
  | [], vs => vs = []
  | item :: items, vs => ∃ v rest, vs = v :: rest ∧ item.SameAs v ∧ SameItems items rest
def SameMembers : List (String × ClaimValue) → List (String × Json) → Prop
  | [], members => members = []
  | (key, value) :: entries, members =>
    ∃ v rest, members = (key, v) :: rest ∧ value.SameAs v ∧ SameMembers entries rest
end

variable (cs : ClaimSet) (principal : Principal) (claims : Claims)

/-- The names that are promoted, and the other names of those claims. -/
inductive Promotes : String → String → Prop where
  | scope : Promotes "scope" "scp"
  | organization : Promotes "organization" "org_id"

/-- What became of the claim `key` with value `v`. -/
inductive Kept : String → ClaimValue → Prop where
  | subject : Kept "sub" (.string principal.subjectId.value)
  | roles {key : String} {items : List ClaimValue} (source : cs.roleSource = some (key, items))
      (all : ∀ v ∈ items, ∃ r ∈ principal.roles, v = .string r) : Kept key (rolesClaim key items)
  | tenant {key : String} {tenant : TenantId} (has : principal.tenantId = some tenant)
      (source : cs.tenantSource = some (tenant.value, key)) : Kept key (.string tenant.value)
  | standard {key : String} {v : ClaimValue} (has : StandardHas claims.standard key v) : Kept key v
  | custom {key : String} {v : ClaimValue} {j : Json} (has : (key, j) ∈ claims.custom)
      (same : v.SameAs asF64 j) : Kept key v
  | promoted {name other : String} {v : ClaimValue} {j : Json}
      (pair : Promotes name other) (has : (name, j) ∈ claims.custom)
      (same : v.SameAs asF64 j) : Kept other v

/-- **Claim mapping loses nothing and follows its priority.** -/
structure MapsClaims : Prop where
  roles : ∀ r, r ∈ principal.roles ↔ ∃ p ∈ cs.roleSource, .string r ∈ p.2
  tenant : principal.tenantId.map TenantId.value = cs.tenantSource.map Prod.fst
  kept : ∀ key v, cs.raw.lookup key = some v → Kept asF64 cs principal claims key v

end

/-- The passes of the mapper agree on these claims. -/
structure Mappable (cs : ClaimSet) : Prop where
  /-- An empty array hides no role. -/
  first : ∀ p ∈ cs.roleArrays.head?, p.2 = [] → ∀ q ∈ cs.roleSource, ∀ r, .string r ∉ q.2
  /-- The claim that names roles has nothing else. -/
  source : ∀ key items, cs.roleSource = some (key, items) → (∃ r, .string r ∈ items) →
    cs.raw.lookup key = some (rolesClaim key items) ∧ ∀ v ∈ items, ∃ r, v = .string r
  standard : ∀ key ∈ standardJwtClaimKeys, ∀ v, cs.raw.lookup key = some v → v.Standard key
  scope : cs.Agree "scp" "scope"
  organization : cs.Agree "organization" "org_id"

/-! ## Roles and tenant -/

section
variable {cs : ClaimSet}

theorem ClaimValue.asStr_eq_some {v : ClaimValue} {s : String} :
    v.asStr = some s ↔ v = .string s := by
  cases v <;> simp [ClaimValue.asStr]

/-- The roles are added, and nothing else changes. -/
theorem foldl_withRole (roles : List String) (p : Principal) :
    ∃ all, roles.foldl Principal.withRole p = { p with roles := all } ∧
      ∀ r, r ∈ all ↔ r ∈ p.roles ∨ r ∈ roles := by
  induction roles generalizing p with
  | nil => exact ⟨p.roles, rfl, by simp⟩
  | cons role roles ih =>
    have hone : ∃ one, p.withRole role = { p with roles := one } ∧
        ∀ r, r ∈ one ↔ r ∈ p.roles ∨ r = role := by
      unfold Principal.withRole
      split_ifs with h
      · exact ⟨p.roles, rfl, fun r => ⟨.inl, fun h' => h'.elim id fun heq => heq ▸ h⟩⟩
      · exact ⟨_, rfl, fun r => (List.mem_orderedInsert _).trans or_comm⟩
    obtain ⟨one, hone, hmem⟩ := hone
    obtain ⟨all, hall, hmem'⟩ := ih { p with roles := one }
    refine ⟨all, ?_, ?_⟩
    · rw [List.foldl_cons, hone, hall]
    · intro r
      rw [hmem', hmem, List.mem_cons, or_assoc]

/-- The code reads the first array, empty or not. -/
theorem roles_eq (cs : ClaimSet) :
    cs.roles = ((cs.roleArrays.head?.map Prod.snd).getD []).filterMap ClaimValue.asStr := by
  unfold ClaimSet.roles ClaimSet.rolesArray ClaimSet.roleArrays
  cases cs.getArray "roles" <;> cases cs.getNestedArray "realm_access" "roles" <;>
    cases cs.getArray "groups" <;> rfl

theorem rolesSourceKey_eq (cs : ClaimSet) : cs.rolesSourceKey =
    if cs.roles = [] then none else cs.roleArrays.head?.map Prod.fst := by
  unfold ClaimSet.rolesSourceKey
  by_cases h : cs.roles = []
  · rw [if_pos h, if_pos h]
  · rw [if_neg h, if_neg h]
    rw [roles_eq] at h
    revert h
    unfold ClaimSet.roleArrays
    cases cs.getArray "roles" <;> cases cs.getNestedArray "realm_access" "roles" <;>
      cases cs.getArray "groups" <;> first | exact fun _ => rfl | exact fun h => absurd rfl h

/-- Where the first array decides, the roles are those of the source. -/
theorem Mappable.mem_roles (hm : Mappable cs) (r : String) :
    r ∈ cs.roles ↔ ∃ p ∈ cs.roleSource, .string r ∈ p.2 := by
  have hfirst := hm.first
  rw [roles_eq, ClaimSet.roleSource] at *
  cases harrays : cs.roleArrays with
  | nil => simp
  | cons p rest =>
    rw [harrays] at hfirst
    cases hitems : p.2 with
    | nil =>
      simp only [List.head?_cons, Option.map_some, hitems, Option.getD_some, List.filterMap_nil,
        List.not_mem_nil, false_iff]
      rintro ⟨q, hq, hr⟩
      exact hfirst p rfl hitems q hq r hr
    | cons v items =>
      simp [hitems, ClaimValue.asStr_eq_some]

/-- With a role, the source is the first array and the claim that is dropped. -/
theorem roleSource_of_mem {r : String} (hr : r ∈ cs.roles) :
    cs.roleSource = cs.roleArrays.head? ∧ cs.rolesSourceKey = cs.roleSource.map Prod.fst := by
  rw [rolesSourceKey_eq, if_neg (List.ne_nil_of_mem hr), ClaimSet.roleSource]
  rw [roles_eq] at hr
  cases harrays : cs.roleArrays with
  | nil => simp [harrays] at hr
  | cons q rest =>
    have hq : q.2.isEmpty = false := by
      cases hitems : q.2 with
      | nil => simp [harrays, hitems] at hr
      | cons => rfl
    rw [List.find?_cons_of_pos (by simp [hq])]
    exact ⟨rfl, rfl⟩

/-- The claim that is dropped for its roles is the source. -/
theorem Mappable.source_of_key (hm : Mappable cs) {key : String}
    (hkey : cs.rolesSourceKey = some key) :
    ∃ items, cs.roleSource = some (key, items) ∧ ∃ r, .string r ∈ items := by
  have hroles : cs.roles ≠ [] := by
    intro hnil
    rw [rolesSourceKey_eq, if_pos hnil] at hkey
    cases hkey
  obtain ⟨r, hr⟩ := List.exists_mem_of_ne_nil _ hroles
  obtain ⟨⟨_, items⟩, hp, hmem⟩ := (hm.mem_roles r).mp hr
  rw [(roleSource_of_mem hr).2, hp] at hkey
  cases hkey
  exact ⟨items, hp, r, hmem⟩

theorem tenantClaim_eq (cs : ClaimSet) : cs.tenantClaim = cs.tenantSource := by
  unfold ClaimSet.tenantClaim ClaimSet.tenantSource
  cases h₁ : cs.getStr "tenant_id" <;> cases h₂ : cs.getStr "tid" <;>
    cases h₃ : cs.getStr "tenant" <;> simp [tenantKeys, h₁, h₂, h₃]

theorem ClaimSet.getStr_eq_some {key s : String} :
    cs.getStr key = some s ↔ cs.raw.lookup key = some (.string s) := by
  simp [ClaimSet.getStr, Option.bind_eq_some_iff, ClaimValue.asStr_eq_some]

theorem lookup_of_tenantSource {key s : String} (h : cs.tenantSource = some (s, key)) :
    cs.raw.lookup key = some (.string s) := by
  obtain ⟨key', -, hkey⟩ := List.exists_of_findSome?_eq_some h
  obtain ⟨s', hs, heq⟩ := Option.map_eq_some_iff.mp hkey
  cases heq
  exact ClaimSet.getStr_eq_some.mp hs

end

/-! ## Values in JSON -/

section
variable {asF64 : String → F64} {render : F64 → String}

mutual
/-- `claim_value_to_json` changes no value. -/
theorem claimValueToJson_sameAs (hread : ∀ f, asF64 (render f) = f) :
    ∀ v : ClaimValue, v.SameAs asF64 (claimValueToJson render v)
  | .null | .bool _ | .integer _ | .string _ => by simp [ClaimValue.SameAs, claimValueToJson]
  | .float f => ⟨render f, rfl, hread f⟩
  | .array items => ⟨_, rfl, claimValuesToJson_same hread items⟩
  | .map entries => ⟨_, rfl, claimMembersToJson_same hread entries⟩
theorem claimValuesToJson_same (hread : ∀ f, asF64 (render f) = f) :
    ∀ items, SameItems asF64 items (claimValuesToJson render items)
  | [] => rfl
  | v :: items => ⟨_, _, rfl, claimValueToJson_sameAs hread v, claimValuesToJson_same hread items⟩
theorem claimMembersToJson_same (hread : ∀ f, asF64 (render f) = f) :
    ∀ entries, SameMembers asF64 entries (claimMembersToJson render entries)
  | [] => rfl
  | (_, v) :: entries =>
    ⟨_, _, rfl, claimValueToJson_sameAs hread v, claimMembersToJson_same hread entries⟩
end

theorem ClaimValue.SameAs.eq_string {v : ClaimValue} {s : String}
    (h : v.SameAs asF64 (.string s)) : v = .string s := by
  cases v <;> simp_all [ClaimValue.SameAs]

end

/-! ## Custom claims -/

section
variable {asF64 : String → F64} {render : F64 → String} {cs : ClaimSet} {key : String}
  {v : ClaimValue} {j : Json}

theorem mem_customClaims : (key, j) ∈ customClaims render cs ↔
    (promote (promote (remainingClaims render cs) cs.scope "scope" "scp") cs.organization
      "organization" "org_id").lookup key = some j := by
  rw [customClaims, (List.perm_insertionSort _ _).mem_iff, List.mem_map]
  constructor
  · rintro ⟨⟨_, _⟩, hmem, heq⟩
    cases heq
    exact AList.mem_lookup_iff.mpr hmem
  · intro h
    exact ⟨⟨key, j⟩, AList.mem_lookup_iff.mp h, rfl⟩

section promotions
variable {m : ClaimsMap} {value : Option String} {name other s : String}

theorem lookup_promote_name (hne : name ≠ other) :
    (promote m (some s) name other).lookup name = some (.string s) := by
  rw [promote, AList.lookup_erase_ne hne, AList.lookup_insert]

theorem lookup_promote_other : (promote m (some s) name other).lookup other = none :=
  AList.lookup_erase ..

theorem lookup_promote_ne (hname : key ≠ name) (hother : key ≠ other) :
    (promote m value name other).lookup key = m.lookup key := by
  cases value with
  | none => rfl
  | some => rw [promote, AList.lookup_erase_ne hother, AList.lookup_insert_ne hname]

/-- Nothing is lost by a promotion that overwrites no other value. -/
theorem promote_keeps (hne : name ≠ other) (hj : m.lookup key = some j)
    (hvalue : ∀ s, value = some s → key = name ∨ key = other → j = .string s) :
    (promote m value name other).lookup key = some j ∨
      (key = other ∧ (promote m value name other).lookup name = some j) := by
  cases value with
  | none => exact .inl hj
  | some s =>
    by_cases hother : key = other
    · rw [hvalue s rfl (.inr hother)]
      exact .inr ⟨hother, lookup_promote_name hne⟩
    · left
      by_cases hkey : key = name
      · rw [hvalue s rfl (.inl hkey), hkey, lookup_promote_name hne]
      · rw [lookup_promote_ne hkey hother, hj]

end promotions

/-- What is promoted is the value under either name. -/
theorem ClaimSet.Agree.promoted {a b s : String} (hagree : cs.Agree a b)
    (hs : (cs.getStr a).or (cs.getStr b) = some s) (hv : cs.raw.lookup key = some v)
    (hkey : key = a ∨ key = b) : v = .string s := by
  have hfrom : cs.raw.lookup a = some (.string s) ∨ cs.raw.lookup b = some (.string s) := by
    obtain h | ⟨-, h⟩ := Option.or_eq_some_iff.mp hs
    · exact .inl (ClaimSet.getStr_eq_some.mp h)
    · exact .inr (ClaimSet.getStr_eq_some.mp h)
  obtain hfrom | hfrom := hfrom <;> obtain rfl | rfl := hkey
  · exact Option.mem_unique hv hfrom
  · obtain h | ⟨h, -⟩ := hagree _ _ hfrom hv
    · exact h.symm
    · cases h
  · obtain h | ⟨-, h⟩ := hagree _ _ hv hfrom
    · exact h
    · cases h
  · exact Option.mem_unique hv hfrom

variable {principal : Principal} {typed : StandardClaims}

/-- A claim that is not dropped is a custom claim, perhaps under its promoted
name. -/
theorem Mappable.custom (hread : ∀ f, asF64 (render f) = f) (hm : Mappable cs)
    (hv : cs.raw.lookup key = some v)
    (hkept : (remainingClaims render cs).lookup key = some (claimValueToJson render v)) :
    Kept asF64 cs principal ⟨typed, customClaims render cs⟩ key v := by
  have hsame : v.SameAs asF64 _ := claimValueToJson_sameAs hread v
  have hjson : ∀ s, v = .string s → claimValueToJson render v = .string s := by
    rintro s rfl
    rfl
  have hscope : _ ∨ _ := promote_keeps (show "scope" ≠ "scp" by decide) hkept
    fun s (hs : cs.scope = some s) hkey => hjson s (hm.scope.promoted hs hv hkey.symm)
  obtain hstays | ⟨rfl, hname⟩ := hscope
  · have horg : _ ∨ _ := promote_keeps (show "organization" ≠ "org_id" by decide) hstays
      fun s (hs : cs.organization = some s) hkey => hjson s (hm.organization.promoted hs hv hkey)
    obtain hstays | ⟨rfl, hname⟩ := horg
    · exact .custom (mem_customClaims.mpr hstays) hsame
    · exact .promoted .organization (mem_customClaims.mpr hname) hsame
  · have horg : _ ∨ _ := promote_keeps (show "organization" ≠ "org_id" by decide) hname
      fun s (_ : cs.organization = some s) hkey => absurd hkey (by decide)
    obtain hstays | ⟨heq, -⟩ := horg
    · exact .promoted .scope (mem_customClaims.mpr hstays) hsame
    · exact absurd heq (by decide)

/-! ## Standard claims -/

theorem ClaimValue.IsTime.read {t : Timestamp} (ht : v.IsTime t)
    (hv : cs.raw.lookup key = some v) : (cs.getI64 key).bind fromTimestamp = some t := by
  rw [ClaimSet.getI64, hv]
  cases v with
  | integer | float => exact ht
  | _ => cases ht

theorem ClaimValue.Standard.has (hs : v.Standard key) (hv : cs.raw.lookup key = some v) :
    StandardHas (buildStandardFromClaimSet cs) key v := by
  cases hs with
  | time name time =>
    simp only [List.mem_cons, List.not_mem_nil, or_false] at name
    obtain rfl | rfl | rfl := name
    · exact .exp time (time.read hv)
    · exact .nbf time (time.read hv)
    · exact .iat time (time.read hv)
  | text name =>
    simp only [List.mem_cons, List.not_mem_nil, or_false] at name
    obtain rfl | rfl := name
    · exact .jti (ClaimSet.getStr_eq_some.mpr hv)
    · exact .iss (ClaimSet.getStr_eq_some.mpr hv)
  | audience =>
    apply StandardHas.aud
    simp [buildStandardFromClaimSet, ClaimSet.getArray, hv, ClaimSet.getStr_eq_some.mpr hv]
  | @audiences names =>
    apply StandardHas.auds
    have hread : (names.map ClaimValue.string).filterMap ClaimValue.asStr = names := by
      rw [List.filterMap_map]
      exact List.filterMap_some
    simp [buildStandardFromClaimSet, ClaimSet.getArray, hv, hread]

end

/-! ## The mapper -/

section
variable {asF64 : String → F64} {render : F64 → String} {cs : ClaimSet} {principal : Principal}
  {claims : Claims}

theorem defaultPrincipalMapper_ok
    (hok : defaultPrincipalMapper render cs = .ok (principal, claims)) :
    cs.raw.lookup "sub" = some (.string principal.subjectId.value) ∧
      (∀ r, r ∈ principal.roles ↔ r ∈ cs.roles) ∧
      principal.tenantId.map TenantId.value = cs.tenantClaim.map Prod.fst ∧
      claims = ⟨buildStandardFromClaimSet cs, customClaims render cs⟩ := by
  simp only [defaultPrincipalMapper] at hok
  split at hok
  · cases hok
  · rename_i value hvalue
    split at hok
    · cases hok
    · rename_i sub hsub
      split at hok
      · cases hok
      · rename_i subject hsubject
        obtain ⟨all, hall, hmem⟩ :=
          foldl_withRole cs.roles { kind := .user, subjectId := subject }
        have hroles : ∀ r, r ∈ all ↔ r ∈ cs.roles := by
          intro r
          rw [hmem]
          simp
        have hlookup : cs.raw.lookup "sub" = some (.string subject.value) := by
          rw [ClaimValue.asStr_eq_some.mp hsub] at hvalue
          unfold SubjectId.new at hsubject
          split_ifs at hsubject
          cases hsubject
          exact hvalue
        rw [hall] at hok
        cases htenant : cs.tenantClaim with
        | none =>
          rw [htenant] at hok
          cases hok
          exact ⟨hlookup, hroles, rfl, rfl⟩
        | some claim =>
          rw [htenant] at hok
          dsimp only at hok
          unfold TenantId.new at hok
          split_ifs at hok
          cases hok
          exact ⟨hlookup, hroles, rfl, rfl⟩

theorem lookup_remainingClaims (render : F64 → String) (cs : ClaimSet) (key : String) :
    (remainingClaims render cs).lookup key =
      if key = "sub" ∨ key ∈ standardJwtClaimKeys ∨ cs.rolesSourceKey = some key ∨
        cs.tenantClaim.map Prod.snd = some key then none
      else (cs.raw.lookup key).map (claimValueToJson render) := by
  have hremaining : (remainingClaims render cs).lookup key = _ :=
    lookup_foldl_erase _ (mapValues (claimValueToJson render) cs.raw) key
  rw [hremaining, lookup_mapValues]
  simp only [List.mem_append, List.mem_cons, Option.mem_toList, or_assoc]

/-- Everything is kept where the passes agree. -/
theorem Mappable.kept (hread : ∀ f, asF64 (render f) = f) (hm : Mappable cs)
    (hok : defaultPrincipalMapper render cs = .ok (principal, claims)) {key : String}
    {v : ClaimValue} (hv : cs.raw.lookup key = some v) : Kept asF64 cs principal claims key v := by
  obtain ⟨hsub, hroles, htenant, rfl⟩ := defaultPrincipalMapper_ok hok
  have hremaining := lookup_remainingClaims render cs key
  rw [hv] at hremaining
  split_ifs at hremaining with hdropped
  · obtain rfl | hstandard | hsource | hsource := hdropped
    · cases hsub.symm.trans hv
      exact .subject
    · exact .standard ((hm.standard key hstandard v hv).has hv)
    · obtain ⟨items, hsource, hstring⟩ := hm.source_of_key hsource
      obtain ⟨hclaim, hall⟩ := hm.source key items hsource hstring
      cases hclaim.symm.trans hv
      refine .roles hsource ?_
      intro v hv
      obtain ⟨r, rfl⟩ := hall v hv
      exact ⟨r, (hroles r).mpr ((hm.mem_roles r).mpr ⟨_, hsource, hv⟩), rfl⟩
    · obtain ⟨⟨s, _⟩, hclaim, rfl⟩ := Option.map_eq_some_iff.mp hsource
      rw [hclaim] at htenant
      obtain ⟨tenant, hhas, rfl⟩ := Option.map_eq_some_iff.mp htenant
      rw [tenantClaim_eq] at hclaim
      cases (lookup_of_tenantSource hclaim).symm.trans hv
      exact .tenant hhas hclaim
  · exact hm.custom hread hv hremaining

/-! ### The other way round -/

variable {key : String} {v : ClaimValue} {typed : StandardClaims}

theorem ClaimSet.source_spec {items : List ClaimValue} (h : cs.roleSource = some (key, items)) :
    key ∈ roleKeys ∧ ∃ v, cs.raw.lookup key = some v := by
  obtain ⟨⟨_, array⟩, hplace, hitems⟩ := List.mem_filterMap.mp (List.mem_of_find?_eq_some h)
  obtain ⟨_, rfl, heq⟩ := Option.map_eq_some_iff.mp hitems
  cases heq
  simp only [List.mem_cons, List.not_mem_nil, or_false, Prod.mk.injEq] at hplace
  rw [← Option.isSome_iff_exists]
  obtain ⟨rfl, harray⟩ | ⟨rfl, harray⟩ | ⟨rfl, harray⟩ := hplace <;>
    refine ⟨by simp [roleKeys], ?_⟩ <;> revert harray <;>
    simp only [ClaimSet.getArray, ClaimSet.getNestedArray] <;>
    cases cs.raw.lookup _ <;> simp

theorem tenantSource_mem {s : String} (h : cs.tenantSource = some (s, key)) :
    key ∈ tenantKeys := by
  obtain ⟨key', hkey, hs⟩ := List.exists_of_findSome?_eq_some h
  obtain ⟨_, -, heq⟩ := Option.map_eq_some_iff.mp hs
  cases heq
  exact hkey

theorem standard_apart : ∀ key ∈ standardJwtClaimKeys,
    key ∉ "sub" :: tenantKeys ++ ["scope", "scp", "organization", "org_id"] ∧ key ∉ roleKeys := by
  decide

theorem StandardHas.mem (h : StandardHas typed key v) : key ∈ standardJwtClaimKeys := by
  cases h <;> decide

/-- A claim that is dropped and has none of the other names. -/
theorem Kept.of_dropped
    (hkept : Kept asF64 cs principal ⟨typed, customClaims render cs⟩ key v)
    (hdropped : (remainingClaims render cs).lookup key = none)
    (hkey : key ∉ "sub" :: tenantKeys ++ ["scope", "scp", "organization", "org_id"]) :
    StandardHas typed key v ∨ ∃ items, cs.roleSource = some (key, items) ∧
      v = rolesClaim key items ∧ ∀ v ∈ items, ∃ r, v = .string r := by
  cases hkept with
  | subject => simp at hkey
  | tenant _ source => exact absurd (tenantSource_mem source) (by simp_all)
  | standard has => exact .inl has
  | roles source all =>
    exact .inr ⟨_, source, rfl, fun v hv => (all v hv).imp fun _ h => h.2⟩
  | custom has =>
    rw [mem_customClaims, lookup_promote_ne, lookup_promote_ne, hdropped] at has <;> simp_all
  | promoted pair => cases pair <;> simp at hkey

/-- What is promoted has one value. -/
theorem Kept.of_promoted {name other s : String} (hkept : Kept asF64 cs principal claims key v)
    (pair : Promotes name other) (hname : ∀ j, (name, j) ∈ claims.custom → j = .string s)
    (hother : ∀ j, (other, j) ∉ claims.custom) (hkey : key = name ∨ key = other) :
    v = .string s := by
  have hplain : key ∉ "sub" :: tenantKeys ++ roleKeys ++ standardJwtClaimKeys := by
    cases pair <;> obtain rfl | rfl := hkey <;> decide
  cases hkept with
  | subject => simp at hplain
  | tenant _ source => exact absurd (tenantSource_mem source) (by simp_all)
  | roles source => exact absurd (ClaimSet.source_spec source).1 (by simp_all)
  | standard has => exact absurd has.mem (by simp_all)
  | custom has same =>
    obtain rfl | rfl := hkey
    · exact (hname _ has ▸ same).eq_string
    · exact absurd has (hother _)
  | promoted pair' has same =>
    cases pair <;> cases pair' <;> simp at hkey <;> exact (hname _ has ▸ same).eq_string

/-- Claims of which everything is kept. -/
theorem MapsClaims.agree {name other a b : String} (hmaps : MapsClaims asF64 cs principal claims)
    (pair : Promotes name other)
    (hab : a = name ∧ b = other ∨ a = other ∧ b = name)
    (hcustom : ∀ s, (cs.getStr a).or (cs.getStr b) = some s →
      (∀ j, (name, j) ∈ claims.custom → j = .string s) ∧ ∀ j, (other, j) ∉ claims.custom) :
    cs.Agree a b := by
  intro v w hv hw
  cases hvalue : (cs.getStr a).or (cs.getStr b) with
  | none =>
    obtain ⟨ha, hb⟩ := Option.or_eq_none_iff.mp hvalue
    rw [ClaimSet.getStr, hv] at ha
    rw [ClaimSet.getStr, hw] at hb
    exact .inr ⟨ha, hb⟩
  | some s =>
    obtain ⟨hname, hother⟩ := hcustom s hvalue
    have hone := fun key v h => (hmaps.kept key v h).of_promoted pair hname hother
    left
    obtain ⟨rfl, rfl⟩ | ⟨rfl, rfl⟩ := hab
    · rw [hone _ v hv (.inl rfl), hone _ w hw (.inr rfl)]
    · rw [hone _ v hv (.inr rfl), hone _ w hw (.inl rfl)]

theorem MapsClaims.standard (hmaps : MapsClaims asF64 cs principal ⟨typed, customClaims render cs⟩)
    (hkey : key ∈ standardJwtClaimKeys) (hv : cs.raw.lookup key = some v) :
    StandardHas typed key v := by
  have hdropped := lookup_remainingClaims render cs key
  rw [if_pos (.inr (.inl hkey))] at hdropped
  obtain h | ⟨_, h, -⟩ :=
    (hmaps.kept key v hv).of_dropped hdropped ((standard_apart key hkey).1)
  · exact h
  · exact absurd (ClaimSet.source_spec h).1 (standard_apart key hkey).2

/-- Where everything is kept and the roles are the source's, the passes agree. -/
theorem MapsClaims.mappable (hok : defaultPrincipalMapper render cs = .ok (principal, claims))
    (hmaps : MapsClaims asF64 cs principal claims) : Mappable cs := by
  obtain ⟨-, hroles, -, rfl⟩ := defaultPrincipalMapper_ok hok
  have hmem : ∀ r, r ∈ cs.roles ↔ _ := fun r => (hroles r).symm.trans (hmaps.roles r)
  refine ⟨?_, ?_, ?_, ?_, ?_⟩
  · intro p hp hnil q hq r hr
    have hrole := (hmem r).mpr ⟨q, hq, hr⟩
    rw [roles_eq, Option.mem_def.mp hp] at hrole
    simp [hnil] at hrole
  · rintro key items hsource ⟨r, hr⟩
    obtain ⟨-, hkey⟩ := roleSource_of_mem ((hmem r).mpr ⟨_, hsource, hr⟩)
    rw [hsource] at hkey
    obtain ⟨hrole, v, hv⟩ := ClaimSet.source_spec hsource
    have hdropped := lookup_remainingClaims render cs key
    rw [if_pos (.inr (.inr (.inl hkey)))] at hdropped
    have hplain : ∀ key ∈ roleKeys,
      key ∉ "sub" :: tenantKeys ++ ["scope", "scp", "organization", "org_id"] := by decide
    obtain h | ⟨_, h, rfl, hall⟩ :=
      (hmaps.kept key v hv).of_dropped hdropped (hplain key hrole)
    · exact absurd hrole (standard_apart key h.mem).2
    · cases hsource.symm.trans h
      exact ⟨hv, hall⟩
  · intro key hkey v hv
    cases hmaps.standard hkey hv with
    | exp time | nbf time | iat time => exact .time (by simp) time
    | jti | iss => exact .text (by simp)
    | aud => exact .audience
    | auds => exact .audiences
  · refine hmaps.agree .scope (.inr ⟨rfl, rfl⟩) ?_
    intro s (hs : cs.scope = some s)
    constructor
    · intro j hj
      rw [mem_customClaims, lookup_promote_ne (by decide) (by decide), hs,
        lookup_promote_name (by decide)] at hj
      exact (Option.some.inj hj).symm
    · intro j hj
      rw [mem_customClaims, lookup_promote_ne (by decide) (by decide), hs,
        lookup_promote_other] at hj
      cases hj
  · refine hmaps.agree .organization (.inl ⟨rfl, rfl⟩) ?_
    intro s (hs : cs.organization = some s)
    constructor
    · intro j hj
      rw [mem_customClaims, hs, lookup_promote_name (by decide)] at hj
      exact (Option.some.inj hj).symm
    · intro j hj
      rw [mem_customClaims, hs, lookup_promote_other] at hj
      cases hj

end

/-- A number for every float, in unary. -/
def unary (f : F64) : String :=
  let number := (Equiv.intEquivNat f.mantissa).pair (Equiv.intEquivNat f.exponent)
  String.ofList (List.replicate number '1')

def readUnary (text : String) : F64 :=
  let p := text.length.unpair
  ⟨Equiv.intEquivNat.symm p.1, Equiv.intEquivNat.symm p.2⟩

theorem readUnary_unary (f : F64) : readUnary (unary f) = f := by
  simp [readUnary, unary]

def sampleClaims : ClaimSet where
  raw := ((((∅ : AList _).insert "scp" (.string "read")).insert "exp" (.integer 9)).insert "tid"
    (.string "t")).insert "roles" (.array [.string "admin"]) |>.insert "sub" (.string "ana")

def hiddenGroups : ClaimSet where
  raw := (((∅ : AList _).insert "groups" (.array [.string "admin"])).insert "roles"
    (.array [])).insert "sub" (.string "ana")

end EgoRs
