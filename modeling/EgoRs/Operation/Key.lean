import Mathlib.Algebra.Group.Int.Defs
import Mathlib.Algebra.Group.Nat.Defs
import Mathlib.Data.List.Basic

/-! # Tenant Ids, Operation Keys and Fingerprints

The identity types of `persistence-api` (`context.rs`,
`operation/key.rs`). Each type that has a fallible constructor in the
source is a structure that carries what the constructor checks, so that a
value the source cannot build cannot be built here either.
-/

namespace EgoRs

/-- A `DateTime<Utc>`, in nanoseconds since the Unix epoch. Only the order of
instants and their whole seconds are ever looked at. -/
abbrev Timestamp : Type := Int

/-! ### Trimming -/

/-- The Unicode `White_Space` property, which `str::trim` goes by. -/
def isWhitespace (c : Char) : Bool :=
  let n := c.toNat
  (9 ≤ n && n ≤ 13) || n == 0x20 || n == 0x85 || n == 0xA0 || n == 0x1680 ||
    (0x2000 ≤ n && n ≤ 0x200A) || n == 0x2028 || n == 0x2029 || n == 0x202F ||
    n == 0x205F || n == 0x3000

/-- `str::trim`. -/
def trim (s : String) : String :=
  String.ofList
    ((s.toList.dropWhile isWhitespace).reverse.dropWhile isWhitespace).reverse

/-- `s.trim().is_empty()`. -/
def isBlank (s : String) : Bool := trim s == ""

@[simp] theorem isBlank_empty : isBlank "" = true := by decide

/-! ### TenantId -/

/-- A tenant id: any string that is not blank. -/
structure TenantId where
  value : String
  nonblank : isBlank value = false
  deriving DecidableEq

namespace TenantId

/-- `TenantId::new`. The string is kept as it came, untrimmed. -/
def new (value : String) : Option TenantId :=
  if h : isBlank value = false then some ⟨value, h⟩ else none

/-- No tenant id is the empty string. -/
theorem value_ne_empty (t : TenantId) : t.value ≠ "" := by
  intro h
  have hb := t.nonblank
  rw [h] at hb
  simp at hb

theorem ext_value {t u : TenantId} (h : t.value = u.value) : t = u := by
  cases t
  cases u
  simp_all

end TenantId

/-! ### OperationKey -/

/-- `MAX_LEN`, in bytes. -/
def maxKeyLen : Nat := 255

structure OperationKey where
  value : String
  nonblank : isBlank value = false
  short : value.utf8ByteSize ≤ maxKeyLen
  deriving DecidableEq

inductive OperationKeyError where
  | empty
  | tooLong
  deriving DecidableEq

/-- The `Display` text of the error. -/
def operationKeyErrorText : OperationKeyError → String
  | .empty => "operation_key must not be empty"
  | .tooLong => "operation_key must not exceed " ++ toString maxKeyLen ++ " bytes"

/-- `OperationKey::parse`: blank is tested before the length. -/
def OperationKey.parse (value : String) : Except OperationKeyError OperationKey :=
  if hb : isBlank value = false then
    if hl : value.utf8ByteSize ≤ maxKeyLen then .ok ⟨value, hb, hl⟩ else .error .tooLong
  else .error .empty

def sampleKey : OperationKey := ⟨"order-1", by decide, by decide⟩

/-! ### OperationFingerprint -/

/-- A fingerprint is compared and stored, never looked into. -/
structure OperationFingerprint where
  value : String
  deriving DecidableEq

end EgoRs
