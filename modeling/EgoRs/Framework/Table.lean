import Mathlib.Data.List.AList

/-! # Keyed Tables

A database table with a primary key, and the statements on it. Each is one
atomic step; what it returns besides the table is what the client sees of
the affected rows. A statement is described by the row it leaves under a
key: the `lookup` lemmas are all that is used of them.
-/

namespace EgoRs.Framework

/-- Rows `ρ` under keys `κ`. -/
abbrev Table (κ ρ : Type) : Type := AList (fun _ : κ => ρ)

namespace Table
variable {κ ρ : Type} [DecidableEq κ] {t : Table κ ρ} {k k' : κ} {row : ρ}

/-- `INSERT ... ON CONFLICT DO NOTHING`, and whether the row went in. -/
def insertNew (t : Table κ ρ) (k : κ) (row : ρ) : Table κ ρ × Bool :=
  match t.lookup k with
  | none => (t.insert k row, true)
  | some _ => (t, false)

/-- `UPDATE ... SET f WHERE key = k AND p`, and whether there was such a row. -/
def updateRow (t : Table κ ρ) (k : κ) (p : ρ → Bool) (f : ρ → ρ) : Table κ ρ × Bool :=
  match t.lookup k with
  | some row => if p row then (t.insert k (f row), true) else (t, false)
  | none => (t, false)

/-- `UPDATE ... SET f WHERE p`. -/
def updateWhere (t : Table κ ρ) (p : κ → ρ → Bool) (f : ρ → ρ) : Table κ ρ where
  entries := t.entries.map fun e => ⟨e.1, if p e.1 e.2 then f e.2 else e.2⟩
  nodupKeys := by
    have hkeys : (t.entries.map fun e => (⟨e.1, if p e.1 e.2 then f e.2 else e.2⟩ :
        Sigma fun _ : κ => ρ)).keys = t.entries.keys := by
      simp [List.keys]
    unfold List.NodupKeys
    rw [hkeys]
    exact t.nodupKeys

/-- `DELETE ... WHERE p`. -/
def deleteWhere (t : Table κ ρ) (p : κ → ρ → Bool) : Table κ ρ where
  entries := t.entries.filter fun e => !p e.1 e.2
  nodupKeys := t.nodupKeys.sublist List.filter_sublist

/-! ### What the statements leave -/

theorem insertNew_of_none (h : t.lookup k = none) : t.insertNew k row = (t.insert k row, true) := by
  simp [insertNew, h]

theorem insertNew_of_some {old : ρ} (h : t.lookup k = some old) :
    t.insertNew k row = (t, false) := by
  simp [insertNew, h]

theorem updateRow_of_match {p : ρ → Bool} (f : ρ → ρ) (h : t.lookup k = some row)
    (hp : p row = true) : t.updateRow k p f = (t.insert k (f row), true) := by
  simp [updateRow, h, hp]

theorem updateRow_of_not_match {p : ρ → Bool} (f : ρ → ρ)
    (h : ∀ row, t.lookup k = some row → p row = false) : t.updateRow k p f = (t, false) := by
  unfold updateRow
  cases hat : t.lookup k with
  | none => rfl
  | some row => simp [h row hat]

theorem lookup_updateWhere (p : κ → ρ → Bool) (f : ρ → ρ) :
    (t.updateWhere p f).lookup k = (t.lookup k).map fun row => if p k row then f row else row :=
  List.dlookup_map₂ (f := fun k row => if p k row then f row else row) k

theorem lookup_deleteWhere (p : κ → ρ → Bool) :
    (t.deleteWhere p).lookup k = (t.lookup k).filter fun row => !p k row := by
  ext row
  calc (t.deleteWhere p).lookup k = some row
      ↔ ⟨k, row⟩ ∈ (t.deleteWhere p).entries := AList.mem_lookup_iff
    _ ↔ ⟨k, row⟩ ∈ t.entries ∧ (!p k row) = true := List.mem_filter
    _ ↔ t.lookup k = some row ∧ (!p k row) = true := by
      rw [← AList.mem_lookup_iff, Option.mem_def]
    _ ↔ (t.lookup k).filter (fun row => !p k row) = some row :=
      (Option.filter_eq_some_iff (p := fun row => !p k row)).symm

end Table

end EgoRs.Framework
