import EgoRs.Framework.AssocMap
import EgoRs.Service.CanonicalJson

/-! # Claim Sets

`domain/src/auth/claim_set.rs`, the claims of a verified token as a
domain value, and the conversion from JSON in
`security-jwt/src/principal_mapper.rs`. A `BTreeMap` is a map with
distinct keys; nothing here depends on its order.
-/

namespace EgoRs

open Framework

/-! ### Floats -/

/-- A finite `f64`: `mantissa * 2 ^ exponent`. JSON has no other. -/
structure F64 where
  mantissa : Int
  exponent : Int
  deriving DecidableEq

namespace F64

/-- `u as f64`: 53 significant bits, ties to even. -/
def ofNat (u : Nat) : F64 :=
  let shift := Nat.log2 u + 1 - 53
  let quotient := u / 2 ^ shift
  let rest := u % 2 ^ shift
  let half := 2 ^ shift / 2
  let up := shift ≠ 0 ∧ (half < rest ∨ (rest = half ∧ quotient % 2 = 1))
  ⟨if up then quotient + 1 else quotient, shift⟩

/-- The value without its fractional part. -/
def truncate (f : F64) : Int :=
  if 0 ≤ f.exponent then f.mantissa * 2 ^ f.exponent.toNat
  else f.mantissa.tdiv (2 ^ (-f.exponent).toNat)

/-- `f as i64`, which saturates. -/
def toI64 (f : F64) : Int := max (-(2 ^ 63)) (min (2 ^ 63 - 1) f.truncate)

end F64

/-! ### Claim values -/

inductive ClaimValue where
  | string (s : String)
  /-- An `i64`. -/
  | integer (i : Int)
  | float (f : F64)
  | bool (b : Bool)
  | array (items : List ClaimValue)
  | map (entries : List (String × ClaimValue))
  | null

def ClaimValue.asStr : ClaimValue → Option String
  | .string s => some s
  | _ => none

structure ClaimSet where
  raw : AList (fun _ : String => ClaimValue)

namespace ClaimSet
variable (cs : ClaimSet)

def getStr (key : String) : Option String := (cs.raw.lookup key).bind ClaimValue.asStr

def getArray (key : String) : Option (List ClaimValue) :=
  match cs.raw.lookup key with
  | some (.array items) => some items
  | _ => none

def getNestedArray (outer inner : String) : Option (List ClaimValue) :=
  match cs.raw.lookup outer with
  | some (.map entries) =>
    match entries.lookup inner with
    | some (.array items) => some items
    | _ => none
  | _ => none

/-- `get_i64`: a float is truncated. -/
def getI64 (key : String) : Option Int :=
  match cs.raw.lookup key with
  | some (.integer n) => some n
  | some (.float f) => some f.toI64
  | _ => none

/-- `expiry`, in seconds since the epoch. -/
def expiry : Option Int := cs.getI64 "exp"

def issuer : Option String := cs.getStr "iss"

/-- The audiences: `aud` is one string or an array with strings in it. -/
def audiences : List String :=
  match cs.raw.lookup "aud" with
  | some (.string s) => [s]
  | some (.array items) => items.filterMap ClaimValue.asStr
  | _ => []

end ClaimSet

/-! ### From JSON -/

/-- `value_to_claim_value` on a number; `asF64` is `Number::as_f64`. -/
def numberToClaimValue (asF64 : String → F64) (text : String) : ClaimValue :=
  match (Json.number text).asI64 with
  | some i => .integer i
  | none =>
    match (Json.number text).asU64 with
    | some u => .float (F64.ofNat u)
    | none => .float (asF64 text)

section
variable (asF64 : String → F64)

mutual
def valueToClaimValue : Json → ClaimValue
  | .null => .null
  | .bool b => .bool b
  | .number text => numberToClaimValue asF64 text
  | .string s => .string s
  | .array items => .array (valuesToClaimValues items)
  | .object entries => .map (membersToClaimValues entries)
def valuesToClaimValues : List Json → List ClaimValue
  | [] => []
  | v :: items => valueToClaimValue v :: valuesToClaimValues items
def membersToClaimValues : List (String × Json) → List (String × ClaimValue)
  | [] => []
  | (key, v) :: entries => (key, valueToClaimValue v) :: membersToClaimValues entries
end

abbrev ClaimsMap : Type := AList (fun _ : String => Json)

def claimsMapToClaimSet (claims : ClaimsMap) : ClaimSet :=
  ⟨mapValues (valueToClaimValue asF64) claims⟩

/-- `Value::as_str`. -/
def Json.asStr : Json → Option String
  | .string s => some s
  | _ => none

theorem valuesToClaimValues_eq_map (items : List Json) :
    valuesToClaimValues asF64 items = items.map (valueToClaimValue asF64) := by
  induction items with
  | nil => rfl
  | cons _ _ ih => rw [valuesToClaimValues, List.map_cons, ih]

/-- A value is a string before the conversion exactly when it is one after. -/
theorem asStr_valueToClaimValue (v : Json) : (valueToClaimValue asF64 v).asStr = v.asStr := by
  cases v with
  | number =>
    simp only [valueToClaimValue, numberToClaimValue]
    split
    · rfl
    · split <;> rfl
  | _ => simp [valueToClaimValue, ClaimValue.asStr, Json.asStr]

theorem filterMap_asStr_values (items : List Json) :
    (valuesToClaimValues asF64 items).filterMap ClaimValue.asStr = items.filterMap Json.asStr := by
  rw [valuesToClaimValues_eq_map, List.filterMap_map]
  congr 1
  funext v
  exact asStr_valueToClaimValue asF64 v

section
variable {claims : ClaimsMap}

/-- An integer `exp` of the payload is the expiry of the claim set. -/
theorem expiry_claimsMap {v : Json} {exp : Int} (h : claims.lookup "exp" = some v)
    (hexp : v.asI64 = some exp) : (claimsMapToClaimSet asF64 claims).expiry = some exp := by
  cases v with
  | number =>
    simp [ClaimSet.expiry, ClaimSet.getI64, claimsMapToClaimSet, h, valueToClaimValue,
      numberToClaimValue, hexp]
  | _ => simp [Json.asI64, Json.integer?] at hexp

end

end

end EgoRs
