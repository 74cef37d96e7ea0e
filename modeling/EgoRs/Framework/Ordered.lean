import Mathlib.Data.List.Basic
import Mathlib.Order.Lattice

/-! # Lists in the Order of a Key

A list kept in the order of a key by inserting before the first greater
element, and read from a position given by a key on. A reader of one part of
the list, whose elements come with ever greater keys, sees its part grow at
the end only, however the other parts grow.
-/

namespace EgoRs.Framework

variable {α κ : Type} [LinearOrder κ] {key : α → κ} {a : α} {l : List α}

/-- Inserts before the first element with a greater key, or at the end. -/
def insertByKey (key : α → κ) (a : α) (l : List α) : List α :=
  l.insertIdx (l.findIdx fun x => decide (key a < key x)) a

/-- The keys do not decrease. -/
def Ordered (key : α → κ) (l : List α) : Prop := l.Pairwise fun x y => key x ≤ key y

/-- The keys increase. -/
def Increasing (key : α → κ) (l : List α) : Prop := l.Pairwise fun x y => key x < key y

/-! ### Insertion -/

theorem insertByKey_cons_of_lt {x : α} (h : key a < key x) :
    insertByKey key a (x :: l) = a :: x :: l := by
  simp [insertByKey, List.findIdx_cons, h]

theorem insertByKey_cons_of_le {x : α} (h : key x ≤ key a) :
    insertByKey key a (x :: l) = x :: insertByKey key a l := by
  simp [insertByKey, List.findIdx_cons, not_lt.mpr h]

/-- The list is cut in two, and everything in the second part is greater. -/
theorem insertByKey_split (h : Ordered key l) :
    ∃ before after, l = before ++ after ∧ insertByKey key a l = before ++ a :: after ∧
      (∀ x ∈ before, key x ≤ key a) ∧ ∀ x ∈ after, key a < key x := by
  induction l with
  | nil => exact ⟨[], [], rfl, rfl, by simp, by simp⟩
  | cons x l ih =>
    obtain ⟨hx, hl⟩ := List.pairwise_cons.mp h
    by_cases hlt : key a < key x
    · refine ⟨[], x :: l, rfl, insertByKey_cons_of_lt hlt, by simp, ?_⟩
      intro y hy
      rcases List.mem_cons.mp hy with rfl | hy
      · exact hlt
      · exact lt_of_lt_of_le hlt (hx y hy)
    · obtain ⟨before, after, hsplit, hinsert, hbefore, hafter⟩ := ih hl
      refine ⟨x :: before, after, by rw [hsplit]; rfl, ?_, ?_, hafter⟩
      · rw [insertByKey_cons_of_le (not_lt.mp hlt), hinsert]
        rfl
      · intro y hy
        rcases List.mem_cons.mp hy with rfl | hy
        · exact not_lt.mp hlt
        · exact hbefore y hy

theorem mem_insertByKey {x : α} : x ∈ insertByKey key a l ↔ x = a ∨ x ∈ l := by
  unfold insertByKey
  rw [List.mem_insertIdx List.findIdx_le_length]

theorem Ordered.insertByKey (h : Ordered key l) : Ordered key (insertByKey key a l) := by
  obtain ⟨before, after, rfl, hinsert, hbefore, hafter⟩ := insertByKey_split (a := a) h
  rw [hinsert]
  obtain ⟨h₁, h₂, h₁₂⟩ := List.pairwise_append.mp h
  refine List.pairwise_append.mpr ⟨h₁, List.pairwise_cons.mpr ⟨?_, h₂⟩, ?_⟩
  · intro x hx
    exact le_of_lt (hafter x hx)
  · intro x hx y hy
    rcases List.mem_cons.mp hy with rfl | hy
    · exact hbefore x hx
    · exact h₁₂ x hx y hy

/-! ### One part of the list -/

variable {p : α → Bool}

theorem filter_insertByKey_of_not (h : Ordered key l) (ha : p a = false) :
    (insertByKey key a l).filter p = l.filter p := by
  obtain ⟨before, after, rfl, hinsert, -⟩ := insertByKey_split (a := a) h
  rw [hinsert, List.filter_append, List.filter_append, List.filter_cons_of_neg (by simp [ha])]

/-- A part to which an element with a greater key is added grows at its end. -/
theorem filter_insertByKey (h : Ordered key l) (ha : p a = true)
    (hlast : ∀ x ∈ l, p x = true → key x < key a) :
    (insertByKey key a l).filter p = l.filter p ++ [a] := by
  obtain ⟨before, after, rfl, hinsert, -, hafter⟩ := insertByKey_split (a := a) h
  -- nothing of the part is after the new element
  have hnone : after.filter p = [] := by
    apply List.filter_eq_nil_iff.mpr
    intro x hx hp
    exact lt_asymm (hafter x hx) (hlast x (List.mem_append_right _ hx) hp)
  rw [hinsert, List.filter_append, List.filter_append, List.filter_cons_of_pos ha, hnone,
    List.append_nil]

/-! ### Reading on from a key -/

theorem Increasing.snoc (h : Increasing key l) (hlast : ∀ x ∈ l, key x < key a) :
    Increasing key (l ++ [a]) := by
  refine List.pairwise_append.mpr ⟨h, List.pairwise_singleton _ _, ?_⟩
  intro x hx y hy
  obtain rfl := List.mem_singleton.mp hy
  exact hlast x hx

theorem Increasing.filter (h : Increasing key l) (p : α → Bool) : Increasing key (l.filter p) :=
  List.Pairwise.filter p h

/-- What comes before an element of a segment at the front is in that segment. -/
theorem Increasing.mem_of_append {l' : List α} (h : Increasing key (l ++ l')) {x y : α} (hx : x ∈ l)
    (hy : y ∈ l ++ l') (hle : key y ≤ key x) : y ∈ l := by
  rcases List.mem_append.mp hy with hfront | hback
  · exact hfront
  · exact absurd hle (not_le.mpr ((List.pairwise_append.mp h).2.2 x hx y hback))

/-- What is at most `k` comes first, and then what is greater. -/
theorem Increasing.filter_append_filter (h : Increasing key l) (k : κ) :
    l.filter (fun x => decide (key x ≤ k)) ++ l.filter (fun x => decide (k < key x)) = l := by
  induction l with
  | nil => rfl
  | cons x l ih =>
    obtain ⟨hx, hl⟩ := List.pairwise_cons.mp h
    by_cases hle : key x ≤ k
    · rw [List.filter_cons_of_pos (by simpa using hle),
        List.filter_cons_of_neg (by simpa using hle), List.cons_append, ih hl]
    · have hlt : k < key x := not_le.mp hle
      have hnone : l.filter (fun y => decide (key y ≤ k)) = [] := by
        apply List.filter_eq_nil_iff.mpr
        intro y hy hle'
        exact absurd (of_decide_eq_true hle') (not_le.mpr (lt_trans hlt (hx y hy)))
      have hall : l.filter (fun y => decide (k < key y)) = l := by
        apply List.filter_eq_self.mpr
        intro y hy
        exact decide_eq_true (lt_trans hlt (hx y hy))
      rw [List.filter_cons_of_neg (by simpa using hle),
        List.filter_cons_of_pos (by simpa using hlt), hnone, hall, List.nil_append]

/-- A segment at the front is everything up to its last element. -/
theorem Increasing.prefix_eq_filter {front : List α} (h : Increasing key l) (hfront : front <+: l)
    (hne : front ≠ []) : front = l.filter fun x => decide (key x ≤ key (front.getLast hne)) := by
  obtain ⟨back, rfl⟩ := hfront
  obtain ⟨hinc, -, hlt⟩ := List.pairwise_append.mp h
  have hall : front.filter (fun x => decide (key x ≤ key (front.getLast hne))) = front := by
    apply List.filter_eq_self.mpr
    intro x hx
    apply decide_eq_true
    rcases List.mem_append.mp (List.dropLast_append_getLast hne ▸ hx) with hx | hx
    · rw [← List.dropLast_append_getLast hne] at hinc
      exact le_of_lt ((List.pairwise_append.mp hinc).2.2 x hx _ (List.mem_singleton.mpr rfl))
    · rw [List.mem_singleton.mp hx]
  have hnone : back.filter (fun x => decide (key x ≤ key (front.getLast hne))) = [] := by
    apply List.filter_eq_nil_iff.mpr
    intro x hx hle
    exact not_le.mpr (hlt _ (List.getLast_mem hne) x hx) (of_decide_eq_true hle)
  rw [List.filter_append, hall, hnone, List.append_nil]

end EgoRs.Framework
