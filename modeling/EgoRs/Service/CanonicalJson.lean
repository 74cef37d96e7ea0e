import Mathlib.Data.List.Sort
import Mathlib.Data.String.Basic
import EgoRs.Framework.Encoding
import EgoRs.Operation.Key

/-! # Canonical JSON and the Operation Fingerprint

`absorb_canonical` and `operation_fingerprint` of
`service-sdk/src/runtime/idempotency.rs`.

A JSON value is taken as `serde_json::Value` holds it: numbers are the
text they render to, which is all that is ever read of them, and the
members of an object stand in whatever order the map iterates. `canon` is
the same value with the members of every object sorted by key; what is fed
to the hasher determines it (`canon_eq_of_absorbCanonical_eq`), and is the
same for values that differ in the order of members only.
-/

namespace EgoRs

open Framework

/-! ### Values -/

inductive Json where
  | null
  | bool (b : Bool)
  /-- A number, as `to_string` renders it. -/
  | number (text : String)
  | string (s : String)
  | array (items : List Json)
  | object (entries : List (String × Json))

namespace Json

/-- Induction with the hypothesis for every item and every member. -/
theorem induct {P : Json → Prop} (null : P .null) (bool : ∀ b, P (.bool b))
    (number : ∀ text, P (.number text)) (string : ∀ s, P (.string s))
    (array : ∀ items, (∀ v ∈ items, P v) → P (.array items))
    (object : ∀ entries, (∀ e ∈ entries, P e.2) → P (.object entries)) (v : Json) : P v := by
  refine Json.rec (motive_1 := P) (motive_2 := fun items => ∀ v ∈ items, P v)
    (motive_3 := fun entries => ∀ e ∈ entries, P e.2) (motive_4 := fun e => P e.2)
    null bool number string array object ?_ ?_ ?_ ?_ ?_ v
  · simp
  · intro v items hv hitems w hw
    rcases List.mem_cons.mp hw with rfl | hw
    · exact hv
    · exact hitems w hw
  · simp
  · intro e entries he hentries w hw
    rcases List.mem_cons.mp hw with rfl | hw
    · exact he
    · exact hentries w hw
  · intro key value hvalue
    exact hvalue

end Json

def utf8 (s : String) : List UInt8 := s.toUTF8.data.toList

/-- A length that fits the `u64` prefix. Memory cannot hold a longer one. -/
def Fits (n : Nat) : Prop := n < 2 ^ 64

mutual
/-- What holds of every `serde_json::Value`: lengths fit `usize`, and the keys
of an object are distinct. -/
def Json.WellFormed : Json → Prop
  | .null => True
  | .bool _ => True
  | .number text => Fits (utf8 text).length
  | .string s => Fits (utf8 s).length
  | .array items => Fits items.length ∧ Json.ItemsWellFormed items
  | .object entries =>
    Fits entries.length ∧ (entries.map Prod.fst).Nodup ∧ Json.MembersWellFormed entries
def Json.ItemsWellFormed : List Json → Prop
  | [] => True
  | v :: items => Json.WellFormed v ∧ Json.ItemsWellFormed items
def Json.MembersWellFormed : List (String × Json) → Prop
  | [] => True
  | (key, v) :: entries =>
    Fits (utf8 key).length ∧ Json.WellFormed v ∧ Json.MembersWellFormed entries
end

/-- A `serde_json::Value`. -/
structure JsonValue where
  json : Json
  wellFormed : json.WellFormed

/-! ### Reading a value -/

/-- `Value::get` with a key. -/
def Json.get? : Json → String → Option Json
  | .object entries, key => entries.lookup key
  | _, _ => none

/-- The number a non-empty string of decimal digits renders. -/
def decimal (text : String) : Option Nat :=
  if text.toList ≠ [] ∧ text.toList.all Char.isDigit then
    some (text.toList.foldl (fun n c => 10 * n + (c.toNat - '0'.toNat)) 0)
  else none

/-- `Value::as_u64`. -/
def Json.asU64 : Json → Option Nat
  | .number text =>
    match decimal text with
    | some n => if n < 2 ^ 64 then some n else none
    | none => none
  | _ => none

/-- The integer a number renders, when it is one: a float always has a point
or an exponent in it. -/
def Json.integer? : Json → Option Int
  | .number text =>
    match text.toList with
    | '-' :: digits => (decimal (String.ofList digits)).map fun n : Nat => -(n : Int)
    | _ => (decimal text).map Int.ofNat
  | _ => none

/-- `Value::as_i64`. -/
def Json.asI64 (v : Json) : Option Int :=
  match v.integer? with
  | some i => if -(2 ^ 63) ≤ i ∧ i < 2 ^ 63 then some i else none
  | none => none

/-! ### The byte stream -/

/-- `(n as u64).to_be_bytes()`. -/
def u64BeBytes (n : Nat) : List UInt8 :=
  [n / 2 ^ 56, n / 2 ^ 48, n / 2 ^ 40, n / 2 ^ 32, n / 2 ^ 24, n / 2 ^ 16, n / 2 ^ 8, n].map
    UInt8.ofNat

/-- `absorb_bytes`: the length, then the bytes. -/
def absorbBytes (bytes : List UInt8) : List UInt8 :=
  u64BeBytes bytes.length ++ bytes

/-- Key order on members: `sort_unstable` on the keys. -/
abbrev KeyLe {α : Type} (e f : String × α) : Prop := e.1 ≤ f.1

/-- One member: its key, then what was absorbed for its value. -/
def absorbMember (e : String × List UInt8) : List UInt8 :=
  absorbBytes (utf8 e.1) ++ e.2

mutual
/-- `absorb_canonical`: everything fed to the hasher for one value. -/
def absorbCanonical : Json → List UInt8
  | .null => [0]
  | .bool b => [1, if b then 1 else 0]
  | .number text => 2 :: absorbBytes (utf8 text)
  | .string s => 3 :: absorbBytes (utf8 s)
  | .array items => 4 :: u64BeBytes items.length ++ absorbItems items
  | .object entries =>
    -- the members in key order, each with its value absorbed in turn
    5 :: u64BeBytes entries.length ++
      ((absorbMembers entries).insertionSort KeyLe).flatMap absorbMember
def absorbItems : List Json → List UInt8
  | [] => []
  | v :: items => absorbCanonical v ++ absorbItems items
def absorbMembers : List (String × Json) → List (String × List UInt8)
  | [] => []
  | (key, v) :: entries => (key, absorbCanonical v) :: absorbMembers entries
end

mutual
/-- The value with the members of every object in key order. -/
def canon : Json → Json
  | .array items => .array (canonItems items)
  | .object entries => .object ((canonMembers entries).insertionSort KeyLe)
  | v => v
def canonItems : List Json → List Json
  | [] => []
  | v :: items => canon v :: canonItems items
def canonMembers : List (String × Json) → List (String × Json)
  | [] => []
  | (key, v) :: entries => (key, canon v) :: canonMembers entries
end

/-! ### The list functions as maps -/

theorem itemsWellFormed_iff (items : List Json) :
    Json.ItemsWellFormed items ↔ ∀ v ∈ items, v.WellFormed := by
  induction items with
  | nil => simp [Json.ItemsWellFormed]
  | cons _ _ ih => simp [Json.ItemsWellFormed, ih]

theorem membersWellFormed_iff (entries : List (String × Json)) : Json.MembersWellFormed entries ↔
      ∀ e ∈ entries, Fits (utf8 e.1).length ∧ e.2.WellFormed := by
  induction entries with
  | nil => simp [Json.MembersWellFormed]
  | cons e _ ih =>
    obtain ⟨key, v⟩ := e
    simp [Json.MembersWellFormed, ih, and_assoc]

theorem absorbItems_eq (items : List Json) : absorbItems items = items.flatMap absorbCanonical := by
  induction items with
  | nil => rfl
  | cons _ _ ih => simp [absorbItems, ih]

theorem absorbMembers_eq (entries : List (String × Json)) :
    absorbMembers entries = entries.map fun e => (e.1, absorbCanonical e.2) := by
  induction entries with
  | nil => rfl
  | cons e _ ih =>
    obtain ⟨key, v⟩ := e
    simp [absorbMembers, ih]

theorem canonItems_eq (items : List Json) : canonItems items = items.map canon := by
  induction items with
  | nil => rfl
  | cons _ _ ih => simp [canonItems, ih]

theorem canonMembers_eq (entries : List (String × Json)) :
    canonMembers entries = entries.map fun e => (e.1, canon e.2) := by
  induction entries with
  | nil => rfl
  | cons e _ ih =>
    obtain ⟨key, v⟩ := e
    simp [canonMembers, ih]

/-- Sorting by key does not look at the values. -/
theorem insertionSort_map_values {α β : Type} (f : α → β) (entries : List (String × α)) :
    (entries.map fun e => (e.1, f e.2)).insertionSort KeyLe =
      (entries.insertionSort KeyLe).map fun e => (e.1, f e.2) :=
  (List.map_insertionSort KeyLe KeyLe (fun e => (e.1, f e.2)) entries
    fun _ _ _ _ => Iff.rfl).symm

/-! ### Lengths and byte strings delimit themselves -/

theorem u64BeBytes_length (n : Nat) : (u64BeBytes n).length = 8 := rfl

theorem u64BeBytes_inj {n m : Nat} (hn : Fits n) (hm : Fits m)
    (h : u64BeBytes n = u64BeBytes m) : n = m := by
  unfold Fits at hn hm
  simp only [u64BeBytes, List.map_cons, List.map_nil, List.cons.injEq, and_true] at h
  have hbyte : ∀ a b : Nat, UInt8.ofNat a = UInt8.ofNat b → a % 256 = b % 256 := by
    intro a b hab
    simpa using congrArg UInt8.toNat hab
  obtain ⟨h7, h6, h5, h4, h3, h2, h1, h0⟩ := h
  have e7 := hbyte _ _ h7
  have e6 := hbyte _ _ h6
  have e5 := hbyte _ _ h5
  have e4 := hbyte _ _ h4
  have e3 := hbyte _ _ h3
  have e2 := hbyte _ _ h2
  have e1 := hbyte _ _ h1
  have e0 := hbyte _ _ h0
  omega

theorem u64BeBytes_delimits {n : Nat} (hn : Fits n) : DelimitsAt u64BeBytes id Fits n :=
  delimitsAt_of_length u64BeBytes_length fun _ hm h => u64BeBytes_inj hn hm h

theorem utf8_inj {s t : String} (h : utf8 s = utf8 t) : s = t := by
  apply String.toByteArray_inj.mp
  apply ByteArray.ext
  exact Array.toList_inj.mp h

/-- `absorb_bytes` of a string. -/
theorem absorbBytes_delimits {s : String} (hs : Fits (utf8 s).length) :
    DelimitsAt (fun s => absorbBytes (utf8 s)) id (fun s => Fits (utf8 s).length) s := by
  intro t x y ht h
  simp only [absorbBytes, List.append_assoc] at h
  obtain ⟨hlen, hrest⟩ := u64BeBytes_delimits hs _ _ _ ht h
  obtain ⟨hbytes, hxy⟩ := List.append_inj hrest hlen
  exact ⟨utf8_inj hbytes, hxy⟩

/-! ### Values delimit themselves -/

/-- The stream of `v` determines its canonical form and where it ends. -/
abbrev Json.Delimits (v : Json) : Prop :=
  DelimitsAt absorbCanonical canon Json.WellFormed v

theorem array_delimits (items : List Json) (hwf : (Json.array items).WellFormed)
    (ih : ∀ v ∈ items, v.Delimits) : (Json.array items).Delimits := by
  obtain ⟨hlen, -⟩ := hwf
  intro b s t hb h
  cases b with
  | array items' =>
    obtain ⟨hlen', hitems'⟩ := hb
    simp only [absorbCanonical, List.cons_append, List.cons.injEq, true_and,
      List.append_assoc] at h
    obtain ⟨hsame, hrest⟩ := u64BeBytes_delimits hlen _ _ _ hlen' h
    rw [absorbItems_eq, absorbItems_eq] at hrest
    obtain ⟨hcanon, hst⟩ := delimits_flatMap items items' s t ih
      ((itemsWellFormed_iff items').mp hitems') hsame hrest
    exact ⟨by simp only [canon, canonItems_eq, hcanon], hst⟩
  | _ => simp [absorbCanonical] at h

/-- The members of an object in key order, absorbed one after the other. -/
theorem absorbCanonical_object (entries : List (String × Json)) :
    absorbCanonical (.object entries) = 5 :: u64BeBytes entries.length ++
      (entries.insertionSort KeyLe).flatMap fun e =>
        absorbBytes (utf8 e.1) ++ absorbCanonical e.2 := by
  simp only [absorbCanonical, absorbMembers_eq, insertionSort_map_values, List.flatMap_map,
    absorbMember]

theorem object_delimits (entries : List (String × Json)) (hwf : (Json.object entries).WellFormed)
    (ih : ∀ e ∈ entries, e.2.Delimits) : (Json.object entries).Delimits := by
  obtain ⟨hlen, -, hmembers⟩ := hwf
  intro b s t hb h
  cases b with
  | object entries' =>
    obtain ⟨hlen', -, hmembers'⟩ := hb
    simp only [absorbCanonical_object, List.cons_append, List.cons.injEq, true_and,
      List.append_assoc] at h
    obtain ⟨hsame, hrest⟩ := u64BeBytes_delimits hlen _ _ _ hlen' h
    have hmember : ∀ e ∈ entries.insertionSort KeyLe,
        DelimitsAt (fun e : String × Json => absorbBytes (utf8 e.1) ++ absorbCanonical e.2)
          (fun e => (e.1, canon e.2)) (fun e => Fits (utf8 e.1).length ∧ e.2.WellFormed) e := by
      intro e he
      have he' : e ∈ entries := (List.mem_insertionSort KeyLe).mp he
      exact (absorbBytes_delimits ((membersWellFormed_iff entries).mp hmembers e he').1).pair
        (ih e he')
    have hwf' : ∀ e ∈ entries'.insertionSort KeyLe,
        Fits (utf8 e.1).length ∧ e.2.WellFormed := by
      intro e he
      exact (membersWellFormed_iff entries').mp hmembers' e ((List.mem_insertionSort KeyLe).mp he)
    obtain ⟨hcanon, hst⟩ := delimits_flatMap _ _ s t hmember hwf'
      (by simpa using hsame) hrest
    refine ⟨?_, hst⟩
    simp only [canon, canonMembers_eq, insertionSort_map_values]
    rw [hcanon]
  | _ => simp [absorbCanonical] at h

theorem absorbCanonical_delimits (v : Json) (hwf : v.WellFormed) : v.Delimits := by
  induction v using Json.induct with
  | null =>
    intro b s t _ h
    cases b with
    | null => exact ⟨rfl, by simpa [absorbCanonical] using h⟩
    | _ => simp [absorbCanonical] at h
  | bool x =>
    intro b s t _ h
    cases b with
    | bool y =>
      cases x <;> cases y <;> simp [absorbCanonical] at h ⊢ <;> exact h
    | _ => simp [absorbCanonical] at h
  | number text =>
    intro b s t hb h
    cases b with
    | number text' =>
      simp only [absorbCanonical, List.cons_append, List.cons.injEq, true_and] at h
      obtain ⟨htext, hst⟩ := absorbBytes_delimits hwf text' s t hb h
      exact ⟨congrArg (fun text => canon (.number text)) htext, hst⟩
    | _ => simp [absorbCanonical] at h
  | string =>
    intro b s t hb h
    cases b with
    | string y =>
      simp only [absorbCanonical, List.cons_append, List.cons.injEq, true_and] at h
      obtain ⟨hxy, hst⟩ := absorbBytes_delimits hwf y s t hb h
      exact ⟨congrArg (fun text => canon (.string text)) hxy, hst⟩
    | _ => simp [absorbCanonical] at h
  | array items ih =>
    have hitems := (itemsWellFormed_iff items).mp hwf.2
    exact array_delimits items hwf fun v hv => ih v hv (hitems v hv)
  | object entries ih =>
    have hmembers := (membersWellFormed_iff entries).mp hwf.2.2
    exact object_delimits entries hwf fun e he => ih e he (hmembers e he).2

/-- Values that feed the same bytes to the hasher have the same canonical form. -/
theorem canon_eq_of_absorbCanonical_eq {a b : Json} (ha : a.WellFormed) (hb : b.WellFormed)
    (h : absorbCanonical a = absorbCanonical b) : canon a = canon b :=
  (absorbCanonical_delimits a ha b [] [] hb (by rw [h])).1

/-! ### The fingerprint -/

/-- Two lower-case hex digits. -/
def hexByte (b : UInt8) : List Char :=
  [Nat.digitChar (b.toNat / 16), Nat.digitChar (b.toNat % 16)]

/-- `operation_fingerprint` of a serialised request: the digest of the
canonical stream, in hex. The hash function is a parameter. -/
def operationFingerprint (sha256 : List UInt8 → List UInt8) (v : JsonValue) :
    OperationFingerprint :=
  ⟨String.ofList ((sha256 (absorbCanonical v.json)).flatMap hexByte)⟩

theorem hexByte_inj {a b : UInt8} (h : hexByte a = hexByte b) : a = b := by
  have hdigit : ∀ m < 16, ∀ n < 16, Nat.digitChar m = Nat.digitChar n → m = n := by decide
  simp only [hexByte, List.cons.injEq, and_true] at h
  have hhi := hdigit _ (by have := a.toNat_lt; omega) _ (by have := b.toNat_lt; omega) h.1
  have hlo := hdigit _ (by omega) _ (by omega) h.2
  apply UInt8.toNat_inj.mp
  omega

theorem hex_inj {xs ys : List UInt8} (h : xs.flatMap hexByte = ys.flatMap hexByte) : xs = ys := by
  have hcount : ∀ l : List UInt8, (l.flatMap hexByte).length = 2 * l.length := by
    intro l
    induction l with
    | nil => rfl
    | cons _ _ ih =>
      simp only [List.flatMap_cons, List.length_append, ih, hexByte, List.length_cons,
        List.length_nil]
      omega
  have hlen : xs.length = ys.length := by
    have := congrArg List.length h
    rw [hcount, hcount] at this
    omega
  have hd : ∀ a ∈ xs, DelimitsAt hexByte id (fun _ => True) a := fun a _ =>
    delimitsAt_of_length (n := 2) (fun _ => rfl) fun _ _ hab => hexByte_inj hab
  have hboth := (delimits_flatMap xs ys [] [] hd (fun _ _ => trivial) hlen (by rw [h])).1
  simpa using hboth

theorem sha256_eq_of_fingerprint_eq {sha256 : List UInt8 → List UInt8} {a b : JsonValue}
    (h : operationFingerprint sha256 a = operationFingerprint sha256 b) :
    sha256 (absorbCanonical a.json) = sha256 (absorbCanonical b.json) := by
  apply hex_inj
  simp only [operationFingerprint, OperationFingerprint.mk.injEq] at h
  simpa using congrArg String.toList h

/-! ### Values up to the order of members -/

/-- Equal as JSON values, with the order of object members ignored. -/
inductive Json.Same : Json → Json → Prop where
  | refl (v : Json) : Same v v
  | trans {u v w : Json} : Same u v → Same v w → Same u w
  | item (front back : List Json) {v w : Json} :
      Same v w → Same (.array (front ++ v :: back)) (.array (front ++ w :: back))
  | member (front back : List (String × Json)) (key : String) {v w : Json} : Same v w →
      Same (.object (front ++ (key, v) :: back)) (.object (front ++ (key, w) :: back))
  | reorder {entries entries' : List (String × Json)} :
      entries.Perm entries' → Same (.object entries) (.object entries')

theorem Json.Same.symm {v w : Json} (h : v.Same w) : w.Same v := by
  induction h with
  | refl v => exact .refl v
  | trans _ _ ih₁ ih₂ => exact .trans ih₂ ih₁
  | item front back _ ih => exact .item front back ih
  | member front back key _ ih => exact .member front back key ih
  | reorder hperm => exact .reorder hperm.symm

/-- Each entry of a list is replaced by one that makes no difference. -/
theorem same_map {α : Type} {f : α → α} {make : List α → Json} {xs : List α}
    (h : ∀ x ∈ xs, ∀ front back, (make (front ++ x :: back)).Same (make (front ++ f x :: back)))
    (front : List α) : (make (front ++ xs)).Same (make (front ++ xs.map f)) := by
  induction xs generalizing front with
  | nil => exact .refl _
  | cons x xs ih =>
    obtain ⟨hx, hrest⟩ := List.forall_mem_cons.mp h
    have hnext := ih hrest (front ++ [f x])
    rw [List.append_assoc, List.append_assoc] at hnext
    exact .trans (hx front xs) hnext

theorem same_canon (v : Json) : v.Same (canon v) := by
  induction v using Json.induct with
  | null | bool | number | string => exact .refl _
  | array items ih =>
    rw [canon, canonItems_eq]
    exact same_map (fun v hv front back => .item front back (ih v hv)) []
  | object entries ih =>
    rw [canon, canonMembers_eq]
    refine .trans (same_map ?_ []) (.reorder (List.perm_insertionSort _ _).symm)
    exact fun e he front back => .member front back e.1 (ih e he)

/-- Members with distinct keys have one order by key. -/
theorem insertionSort_eq_of_perm {entries entries' : List (String × Json)}
    (hkeys : (entries.map Prod.fst).Nodup) (hperm : entries.Perm entries') :
    entries.insertionSort KeyLe = entries'.insertionSort KeyLe := by
  refine List.Perm.eq_of_pairwise ?_ (List.pairwise_insertionSort KeyLe _)
    (List.pairwise_insertionSort _ _)
    ((List.perm_insertionSort _ _).trans (hperm.trans (List.perm_insertionSort _ _).symm))
  intro e f he hf hle hge
  exact List.inj_on_of_nodup_map hkeys ((List.mem_insertionSort _).mp he)
    (hperm.mem_iff.mpr ((List.mem_insertionSort _).mp hf)) (le_antisymm hle hge)

/-- Such values feed the same bytes to the hasher. -/
theorem Json.Same.absorbCanonical_eq {v w : Json} (h : v.Same w) (hv : v.WellFormed) :
    w.WellFormed ∧ absorbCanonical v = absorbCanonical w := by
  induction h with
  | refl => exact ⟨hv, rfl⟩
  | trans _ _ ih₁ ih₂ =>
    obtain ⟨hwf, heq⟩ := ih₁ hv
    obtain ⟨hwf', heq'⟩ := ih₂ hwf
    exact ⟨hwf', heq.trans heq'⟩
  | item front back _ ih =>
    simp only [Json.WellFormed, itemsWellFormed_iff, List.forall_mem_append, List.forall_mem_cons,
      List.length_append, List.length_cons] at hv ⊢
    obtain ⟨hlength, hfront, hitem, hback⟩ := hv
    obtain ⟨hwf, heq⟩ := ih hitem
    exact ⟨⟨hlength, hfront, hwf, hback⟩, by simp [absorbCanonical, absorbItems_eq, heq]⟩
  | member front back key _ ih =>
    simp only [Json.WellFormed, membersWellFormed_iff, List.forall_mem_append,
      List.forall_mem_cons, List.length_append, List.length_cons, List.map_append,
      List.map_cons] at hv ⊢
    obtain ⟨hlength, hkeys, hfront, ⟨hkey, hmember⟩, hback⟩ := hv
    obtain ⟨hwf, heq⟩ := ih hmember
    exact ⟨⟨hlength, hkeys, hfront, ⟨hkey, hwf⟩, hback⟩,
      by simp [absorbCanonical, absorbMembers_eq, heq]⟩
  | reorder hperm =>
    simp only [Json.WellFormed, membersWellFormed_iff] at hv ⊢
    obtain ⟨hlength, hkeys, hmembers⟩ := hv
    refine ⟨⟨hperm.length_eq ▸ hlength, (hperm.map _).nodup_iff.mp hkeys, ?_⟩, ?_⟩
    · intro e he
      exact hmembers e (hperm.mem_iff.mpr he)
    · rw [absorbCanonical_object, absorbCanonical_object, insertionSort_eq_of_perm hkeys hperm,
        hperm.length_eq]

/-- **The canonical encoding is injective** up to the order of members, no
encoding goes on where another ends, and requests with one fingerprint are
the same or collide under the hash function. -/
theorem canonical_encoding_injective (sha256 : List UInt8 → List UInt8) (a b : JsonValue) :
    (absorbCanonical a.json = absorbCanonical b.json ↔ a.json.Same b.json) ∧
    (absorbCanonical a.json <+: absorbCanonical b.json →
      absorbCanonical a.json = absorbCanonical b.json) ∧
    (operationFingerprint sha256 a = operationFingerprint sha256 b → a.json.Same b.json ∨
      absorbCanonical a.json ≠ absorbCanonical b.json ∧
        sha256 (absorbCanonical a.json) = sha256 (absorbCanonical b.json)) := by
  have hsame : absorbCanonical a.json = absorbCanonical b.json → a.json.Same b.json := by
    intro h
    have hcanon := canon_eq_of_absorbCanonical_eq a.wellFormed b.wellFormed h
    exact .trans (same_canon a.json) (hcanon ▸ (same_canon b.json).symm)
  refine ⟨⟨hsame, fun h => (h.absorbCanonical_eq a.wellFormed).2⟩, ?_, ?_⟩
  · rintro ⟨rest, hrest⟩
    -- the encoding of `a` says where it ends, so nothing follows it
    obtain ⟨-, hnil⟩ := absorbCanonical_delimits a.json a.wellFormed b.json rest [] b.wellFormed
      (by simpa using hrest)
    rw [← hrest, hnil, List.append_nil]
  · intro h
    by_cases heq : absorbCanonical a.json = absorbCanonical b.json
    · exact .inl (hsame heq)
    · exact .inr ⟨heq, sha256_eq_of_fingerprint_eq h⟩

end EgoRs
