import Mathlib.Data.List.Basic
import Mathlib.Data.List.Pairwise

/-! # Pieces Laid End to End

A sequence is written piece by piece, and every piece says at which
position it starts. The pieces are laid out when each starts where the
one before it ends; then each is found, whole, where it says it is, and
no two of them overlap.
-/

namespace EgoRs.Framework

variable {α β : Type}

/-- The pieces `as` start at `n`, each where the one before it ends. -/
def LaidOut (content : α → List β) (start : α → Int) (n : Int) : List α → Prop
  | [] => True
  | a :: as => start a = n ∧ LaidOut content start (n + (content a).length) as

namespace LaidOut
variable {content : α → List β} {start start' : α → Int} {n : Int} {as bs : List α}

theorem append_iff : LaidOut content start n (as ++ bs) ↔ LaidOut content start n as ∧
        LaidOut content start (n + (as.flatMap content).length) bs := by
  induction as generalizing n with
  | nil => simp [LaidOut]
  | cons a as ih =>
    have hlen : n + (content a).length + (as.flatMap content).length
        = n + ((a :: as).flatMap content).length := by
      simp only [List.flatMap_cons, List.length_append]
      omega
    rw [List.cons_append, LaidOut, LaidOut, ih, hlen, and_assoc]

theorem shift (d : Int) (hs : ∀ a ∈ as, start' a = start a + d)
    (h : LaidOut content start n as) : LaidOut content start' (n + d) as := by
  induction as generalizing n with
  | nil => trivial
  | cons a _ ih =>
    obtain ⟨ha, has⟩ := h
    have hrest := ih (fun b hb => hs b (List.mem_cons_of_mem a hb)) has
    have hd : n + (content a).length + d = n + d + (content a).length := by omega
    rw [hd] at hrest
    exact ⟨by rw [hs a List.mem_cons_self, ha], hrest⟩

/-- **A piece stands where it says.** -/
theorem located (h : LaidOut content start n as) {a : α} (ha : a ∈ as) :
    ∃ before after, as.flatMap content = before ++ content a ++ after ∧
      n + before.length = start a := by
  obtain ⟨as₁, as₂, rfl⟩ := List.append_of_mem ha
  have htail := (append_iff.mp h).2
  refine ⟨as₁.flatMap content, as₂.flatMap content, ?_, htail.1.symm⟩
  simp

theorem le_start (h : LaidOut content start n as) {a : α} (ha : a ∈ as) : n ≤ start a := by
  obtain ⟨before, _, _, hb⟩ := h.located ha
  omega

/-- **Pieces do not overlap**: each ends before every later one starts. -/
theorem pairwise (h : LaidOut content start n as) :
    as.Pairwise fun a b => start a + (content a).length ≤ start b := by
  induction as generalizing n with
  | nil => exact .nil
  | cons _ _ ih =>
    obtain ⟨ha, has⟩ := h
    refine .cons ?_ (ih has)
    intro b hb
    rw [ha]
    exact has.le_start hb

/-- The first piece that is not empty starts where the layout does. -/
theorem first_nonempty (h : LaidOut content start n as) (hne : as.flatMap content ≠ []) :
    ((as.filter fun a => !(content a).isEmpty).head?).map start = some n := by
  induction as generalizing n with
  | nil => exact absurd rfl hne
  | cons a _ ih =>
    obtain ⟨ha, has⟩ := h
    by_cases hempty : content a = []
    · -- an empty piece takes no room
      have hrest := ih has (by simpa [hempty] using hne)
      simpa [List.filter_cons, hempty] using hrest
    · simp [hempty, ha]

end LaidOut

end EgoRs.Framework
