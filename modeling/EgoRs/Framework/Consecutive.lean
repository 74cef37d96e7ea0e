import Mathlib.Data.List.Nodup
import Mathlib.Data.List.Perm.Subperm
import Mathlib.Data.List.Range

/-! # Runs of Consecutive Numbers

Version numbers of a log: each of `1, ..., n` once, in any order, or in
their own order after some number.
-/

namespace EgoRs.Framework

/-- `1, ..., n` for some `n`, in any order. -/
def Consecutive (l : List Int) : Prop :=
  ∃ n : Nat, l.Perm ((List.range n).map fun i : Nat => (i : Int) + 1)

theorem nodup_range_succ (n : Nat) : ((List.range n).map fun i : Nat => (i : Int) + 1).Nodup := by
  apply List.Nodup.map
  · intro a b hab
    have hab' : (a : Int) + 1 = b + 1 := hab
    omega
  · exact List.nodup_range

theorem mem_range_succ {n : Nat} {v : Int} :
    v ∈ ((List.range n).map fun i : Nat => (i : Int) + 1) ↔ 1 ≤ v ∧ v ≤ n := by
  simp only [List.mem_map, List.mem_range]
  constructor
  · rintro ⟨i, hi, rfl⟩
    omega
  · intro hv
    exact ⟨(v - 1).toNat, by omega, by omega⟩

/-- Distinct numbers between one and their count are consecutive. -/
theorem consecutive_iff {l : List Int} :
    Consecutive l ↔ l.Nodup ∧ ∀ v ∈ l, 1 ≤ v ∧ v ≤ l.length := by
  constructor
  · rintro ⟨n, hperm⟩
    have hlen : l.length = n := by simpa using hperm.length_eq
    refine ⟨hperm.nodup_iff.mpr (nodup_range_succ n), ?_⟩
    intro v hv
    rw [hlen]
    exact mem_range_succ.mp (hperm.mem_iff.mp hv)
  · rintro ⟨hnodup, hbounds⟩
    refine ⟨l.length, ?_⟩
    -- as many distinct numbers as there are to choose from
    have hsub : l ⊆ (List.range l.length).map fun i : Nat => (i : Int) + 1 := by
      intro v hv
      exact mem_range_succ.mpr (hbounds v hv)
    exact (List.subperm_of_subset hnodup hsub).perm_of_length_le (by simp)

/-! ### In order -/

/-- `start + 1, start + 2, ...`. -/
def Numbered (start : Int) : List Int → Prop
  | [] => True
  | v :: l => v = start + 1 ∧ Numbered (start + 1) l

@[simp] theorem numbered_nil (start : Int) : Numbered start [] := trivial

theorem numbered_append {start : Int} {l l' : List Int} :
    Numbered start (l ++ l') ↔ Numbered start l ∧ Numbered (start + l.length) l' := by
  induction l generalizing start with
  | nil => simp
  | cons v l ih =>
    have hlen : start + ((v :: l).length : Int) = start + 1 + l.length := by
      simp only [List.length_cons]
      omega
    rw [hlen]
    show (v = start + 1 ∧ Numbered (start + 1) (l ++ l')) ↔
      (v = start + 1 ∧ Numbered (start + 1) l) ∧ _
    rw [ih]
    tauto

namespace Numbered
variable {start : Int} {l : List Int}

theorem snoc (h : Numbered start l) : Numbered start (l ++ [start + l.length + 1]) :=
  numbered_append.mpr ⟨h, rfl, trivial⟩

theorem mem_iff (h : Numbered start l) {v : Int} : v ∈ l ↔ start < v ∧ v ≤ start + l.length := by
  induction l generalizing start with
  | nil =>
    simp only [List.not_mem_nil, List.length_nil, false_iff]
    omega
  | cons _ _ ih =>
    obtain ⟨rfl, hl⟩ := h
    rw [List.mem_cons, ih hl, List.length_cons]
    omega

/-- The greatest of `1, ..., n`, or zero when there is none. -/
theorem max_getD (h : Numbered 0 l) : (l.max?).getD 0 = l.length := by
  by_cases hl : l = []
  · subst hl
    rfl
  · have hpos : 0 < l.length := List.length_pos_of_ne_nil hl
    have hmax : l.max? = some (l.length : Int) := by
      rw [List.max?_eq_some_iff]
      constructor
      · apply h.mem_iff.mpr
        omega
      · intro v hv
        have := h.mem_iff.mp hv
        omega
    rw [hmax]
    rfl

theorem eq_range (h : Numbered 0 l) :
    l = (List.range l.length).map fun i : Nat => (i : Int) + 1 := by
  have hgen : ∀ start : Int, Numbered start l →
      l = (List.range l.length).map fun i : Nat => start + (i : Int) + 1 := by
    clear h
    induction l with
    | nil => intro _ _; rfl
    | cons _ _ ih =>
      intro start hl
      obtain ⟨rfl, hl⟩ := hl
      rw [List.length_cons, List.range_succ_eq_map, List.map_cons, List.map_map]
      congr 1
      · simp
      · have hrest := ih (start + 1) hl
        rw [hrest]
        simp only [List.length_map, List.length_range]
        apply List.map_congr_left
        intro i _
        simp only [Function.comp_apply]
        omega
  have h0 := hgen 0 h
  simpa using h0

end Numbered

end EgoRs.Framework
