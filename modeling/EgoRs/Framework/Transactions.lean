import Mathlib.Data.List.Nodup
import Mathlib.Data.List.Lattice

/-! # Transactions over Insert-Only Tables

Rows that are only ever inserted, each under a key that a unique index
guards. A transaction sees what is committed and its own rows. Inserting
under a key that one of those has is refused; inserting under a key that
another open transaction has waits for it.

Transactions are numbered. One that is over has no rows.

`Keyed` is what the index enforces, kept by every operation.
-/

namespace EgoRs.Framework

/-- What is committed, and the uncommitted rows of each transaction. -/
structure Db (ρ : Type) where
  committed : List ρ
  pending : List (List ρ)

namespace Db
variable {ρ κ : Type}

/-- The uncommitted rows of transaction `i`. -/
def own (db : Db ρ) (i : Nat) : List ρ := (db.pending[i]?).getD []

/-- What transaction `i` sees. -/
def visible (db : Db ρ) (i : Nat) : List ρ := db.committed ++ db.own i

def start (db : Db ρ) : Db ρ := { db with pending := db.pending ++ [[]] }

def insert (db : Db ρ) (i : Nat) (row : ρ) : Db ρ :=
  { db with pending := db.pending.set i (db.own i ++ [row]) }

/-- Transaction `i` commits. -/
def publish (db : Db ρ) (i : Nat) : Db ρ :=
  { committed := db.committed ++ db.own i
    pending := db.pending.set i [] }

/-- Transaction `i` is rolled back. -/
def discard (db : Db ρ) (i : Nat) : Db ρ := { db with pending := db.pending.set i [] }

/-- Transaction `i` sees a row under `k`. -/
def taken [DecidableEq κ] (key : ρ → κ) (db : Db ρ) (i : Nat) (k : κ) : Bool :=
  decide (k ∈ (db.visible i).map key)

/-- Another transaction has an uncommitted row under `k`. -/
def heldByOther [DecidableEq κ] (key : ρ → κ) (db : Db ρ) (i : Nat) (k : κ) : Bool :=
  (List.range db.pending.length).any fun j => decide (j ≠ i) && decide (k ∈ (db.own j).map key)

/-! ### Own rows -/

section
variable {db : Db ρ} {i j : Nat}

theorem own_of_length_le (h : db.pending.length ≤ i) : db.own i = [] := by
  simp [own, List.getElem?_eq_none h]

theorem lt_of_mem_own {row : ρ} (h : row ∈ db.own i) : i < db.pending.length := by
  by_contra hge
  rw [own_of_length_le (by omega)] at h
  cases h

@[simp] theorem own_start (db : Db ρ) (i : Nat) : db.start.own i = db.own i := by
  unfold start own
  by_cases h : i < db.pending.length
  · rw [List.getElem?_append_left h]
  · rw [List.getElem?_append_right (by omega), List.getElem?_eq_none (by omega : _ ≤ i)]
    cases i - db.pending.length <;> rfl

theorem own_insert_self (h : i < db.pending.length) (row : ρ) :
    (db.insert i row).own i = db.own i ++ [row] := by
  simp [insert, own, List.getElem?_set_self h]

theorem own_insert_ne (h : j ≠ i) (row : ρ) : (db.insert i row).own j = db.own j := by
  simp [insert, own, List.getElem?_set_ne (Ne.symm h)]

@[simp] theorem own_publish_self (db : Db ρ) (i : Nat) : (db.publish i).own i = [] := by
  unfold publish own
  by_cases h : i < db.pending.length
  · simp [List.getElem?_set_self h]
  · simp [List.getElem?_eq_none (by simpa using h : (db.pending.set i []).length ≤ i)]

theorem own_publish_ne (h : j ≠ i) : (db.publish i).own j = db.own j := by
  simp [publish, own, List.getElem?_set_ne (Ne.symm h)]

@[simp] theorem own_discard_self (db : Db ρ) (i : Nat) : (db.discard i).own i = [] := by
  unfold discard own
  by_cases h : i < db.pending.length
  · simp [List.getElem?_set_self h]
  · simp [List.getElem?_eq_none (by simpa using h : (db.pending.set i []).length ≤ i)]

theorem own_discard_ne (h : j ≠ i) : (db.discard i).own j = db.own j := by
  simp [discard, own, List.getElem?_set_ne (Ne.symm h)]

@[simp] theorem committed_publish : (db.publish i).committed = db.committed ++ db.own i := rfl

@[simp] theorem length_start : db.start.pending.length = db.pending.length + 1 := by
  simp [start]

@[simp] theorem length_insert (row : ρ) : (db.insert i row).pending.length = db.pending.length := by
  simp [insert]

@[simp] theorem length_publish : (db.publish i).pending.length = db.pending.length := by
  simp [publish]

@[simp] theorem length_discard : (db.discard i).pending.length = db.pending.length := by
  simp [discard]

end

/-! ### One transaction at a time -/

/-- What a statement of transaction `i` can do to the rows. -/
inductive Touches (db : Db ρ) (i : Nat) : Db ρ → Prop where
  | kept : Touches db i db
  | inserted (row : ρ) : Touches db i (db.insert i row)
  | published : Touches db i (db.publish i)
  | discarded : Touches db i (db.discard i)

namespace Touches
variable {db db' : Db ρ} {i j : Nat}

theorem own_ne (ht : Touches db i db') (hj : j ≠ i) : db'.own j = db.own j := by
  cases ht with
  | kept => rfl
  | inserted row => exact own_insert_ne hj row
  | published => exact own_publish_ne hj
  | discarded => exact own_discard_ne hj

theorem length_eq (ht : Touches db i db') : db'.pending.length = db.pending.length := by
  cases ht <;> simp

/-- Nothing that is committed goes away. -/
theorem committed_grows (ht : Touches db i db') : db.committed <+: db'.committed := by
  cases ht with
  | published => exact List.prefix_append _ _
  | _ => exact List.prefix_refl _

end Touches

/-! ### The unique index -/

section
variable [DecidableEq κ] {key : ρ → κ} {db : Db ρ} {i : Nat}

theorem taken_eq_false_iff {k : κ} : db.taken key i k = false ↔
      k ∉ db.committed.map key ∧ k ∉ (db.own i).map key := by
  simp [taken, visible]

theorem heldByOther_eq_false_iff {k : κ} :
    db.heldByOther key i k = false ↔ ∀ j, j ≠ i → k ∉ (db.own j).map key := by
  unfold heldByOther
  rw [List.any_eq_false]
  constructor
  · intro h j hj hk
    obtain ⟨row, hrow, rfl⟩ := List.mem_map.mp hk
    have hlt := lt_of_mem_own hrow
    have hfalse := h j (List.mem_range.mpr hlt)
    simp [hj] at hfalse
    exact hfalse row hrow rfl
  · intro h j _
    by_cases hj : j = i
    · simp [hj]
    · have hk := h j hj
      simp only [List.mem_map] at hk
      simpa [hj] using hk

end

section
variable {key : ρ → κ} {db : Db ρ} {i : Nat}

/-- No key twice among the committed rows and those of all transactions. -/
structure Keyed (key : ρ → κ) (db : Db ρ) : Prop where
  committed : (db.committed.map key).Nodup
  own : ∀ i, ((db.own i).map key).Nodup
  apart : ∀ i, ∀ k ∈ (db.own i).map key, k ∉ db.committed.map key
  separate : ∀ i j, i ≠ j → ∀ k ∈ (db.own i).map key, k ∉ (db.own j).map key

namespace Keyed

theorem empty : Keyed key (⟨[], []⟩ : Db ρ) := by
  refine ⟨by simp, ?_, ?_, ?_⟩ <;> simp [Db.own]

theorem start (h : Keyed key db) : Keyed key db.start := by
  refine ⟨h.committed, ?_, ?_, ?_⟩
  · intro j
    rw [own_start]
    exact h.own j
  · intro j
    rw [own_start]
    exact h.apart j
  · intro j j'
    rw [own_start, own_start]
    exact h.separate j j'

theorem discard (h : Keyed key db) (i : Nat) : Keyed key (db.discard i) := by
  have hsub : ∀ j, (db.discard i).own j = db.own j ∨ (db.discard i).own j = [] := by
    intro j
    by_cases hj : j = i
    · subst hj
      exact .inr (own_discard_self db j)
    · exact .inl (own_discard_ne hj)
  refine ⟨h.committed, ?_, ?_, ?_⟩
  · intro j
    rcases hsub j with hj | hj <;> rw [hj]
    · exact h.own j
    · simp
  · intro j
    rcases hsub j with hj | hj <;> rw [hj]
    · exact h.apart j
    · simp
  · intro j j' hne
    rcases hsub j with hj | hj <;> rcases hsub j' with hj' | hj' <;> rw [hj, hj']
    · exact h.separate j j' hne
    · simp
    · simp
    · simp

theorem publish (h : Keyed key db) (i : Nat) : Keyed key (db.publish i) := by
  refine ⟨?_, ?_, ?_, ?_⟩
  · rw [committed_publish, List.map_append, List.nodup_append]
    refine ⟨h.committed, h.own i, ?_⟩
    intro a ha b hb hab
    subst hab
    exact h.apart i a hb ha
  · intro j
    by_cases hj : j = i
    · subst hj
      simp
    · rw [own_publish_ne hj]
      exact h.own j
  · intro j k hk
    by_cases hj : j = i
    · subst hj
      simp at hk
    · rw [own_publish_ne hj] at hk
      rw [committed_publish, List.map_append, List.mem_append, not_or]
      exact ⟨h.apart j k hk, h.separate j i hj k hk⟩
  · intro j j' hne k hk
    by_cases hj : j = i
    · subst hj
      simp at hk
    · rw [own_publish_ne hj] at hk
      by_cases hj' : j' = i
      · subst hj'
        simp
      · rw [own_publish_ne hj']
        exact h.separate j j' hne k hk

theorem insert [DecidableEq κ] (h : Keyed key db) (hi : i < db.pending.length) {row : ρ}
    (hfree : db.taken key i (key row) = false)
    (hheld : db.heldByOther key i (key row) = false) : Keyed key (db.insert i row) := by
  obtain ⟨hcommitted, hown⟩ := taken_eq_false_iff.mp hfree
  have hothers := heldByOther_eq_false_iff.mp hheld
  refine ⟨h.committed, ?_, ?_, ?_⟩
  · intro j
    by_cases hj : j = i
    · subst hj
      rw [own_insert_self hi, List.map_append, List.nodup_append]
      refine ⟨h.own j, by simp, ?_⟩
      intro a ha b hb hab
      obtain rfl : b = key row := by simpa using hb
      subst hab
      exact hown ha
    · rw [own_insert_ne hj]
      exact h.own j
  · intro j k hk
    by_cases hj : j = i
    · subst hj
      rw [own_insert_self hi, List.map_append, List.mem_append] at hk
      rcases hk with hk | hk
      · exact h.apart j k hk
      · obtain rfl : k = key row := by simpa using hk
        exact hcommitted
    · rw [own_insert_ne hj] at hk
      exact h.apart j k hk
  · intro j j' hne k hk
    by_cases hj : j = i
    · subst hj
      rw [own_insert_ne (Ne.symm hne)]
      rw [own_insert_self hi, List.map_append, List.mem_append] at hk
      rcases hk with hk | hk
      · exact h.separate j j' hne k hk
      · obtain rfl : k = key row := by simpa using hk
        exact hothers j' (Ne.symm hne)
    · rw [own_insert_ne hj] at hk
      by_cases hj' : j' = i
      · subst hj'
        rw [own_insert_self hi, List.map_append, List.mem_append, not_or]
        refine ⟨h.separate j j' hne k hk, ?_⟩
        intro hrow
        obtain rfl : k = key row := by simpa using hrow
        exact hothers j hj hk
      · rw [own_insert_ne hj']
        exact h.separate j j' hne k hk

end Keyed

end

end Db

/-! ### Sessions

Whoever runs transactions keeps a list with an entry for each of them. -/

section
variable {α : Type} {l l' : List α} {i j : Nat} {a b c : α}

/-- What one of them is told, no other is. -/
theorem told_iff {told : Option α} :
    told.map (fun a => (i, a)) = some (j, b) ↔ j = i ∧ told = some b := by
  rw [Option.map_eq_some_iff]
  constructor
  · rintro ⟨a, ha, hpair⟩
    cases hpair
    exact ⟨rfl, ha⟩
  · rintro ⟨rfl, hb⟩
    exact ⟨b, hb, rfl⟩

/-- `l'` is `l` with entry `i` written, which is new or another now. -/
structure Written (l l' : List α) (i : Nat) (b : α) : Prop where
  self : l'[i]? = some b
  others : ∀ j, j ≠ i → l'[j]? = l[j]?

theorem Written.set (hi : l[i]? = some a) : Written l (l.set i b) i b where
  self := List.getElem?_set_self (List.getElem?_eq_some_iff.mp hi).1
  others _ hne := List.getElem?_set_ne hne.symm

theorem Written.concat : Written l (l ++ [b]) l.length b := by
  refine ⟨List.getElem?_concat_length, fun j hne => ?_⟩
  by_cases hlt : j < l.length
  · exact List.getElem?_append_left hlt
  · have hlen : (l ++ [b]).length = l.length + 1 := List.length_append
    rw [List.getElem?_eq_none (by omega), List.getElem?_eq_none (by omega)]

theorem Written.cases (h : Written l l' i b) (hj : l'[j]? = some c) :
    (j = i ∧ c = b) ∨ (j ≠ i ∧ l[j]? = some c) := by
  by_cases hij : j = i
  · subst hij
    rw [h.self] at hj
    exact .inl ⟨rfl, (Option.some.inj hj).symm⟩
  · rw [h.others j hij] at hj
    exact .inr ⟨hij, hj⟩

/-- Only entry `i` is another. -/
theorem getElem?_set_cases (hi : l[i]? = some a) (hj : (l.set i b)[j]? = some c) :
    (j = i ∧ c = b) ∨ (j ≠ i ∧ l[j]? = some c) :=
  (Written.set hi).cases hj

theorem getElem?_concat_cases (hj : (l ++ [b])[j]? = some c) :
    (j = l.length ∧ c = b) ∨ l[j]? = some c :=
  (Written.concat.cases hj).imp_right And.right

end

end EgoRs.Framework
