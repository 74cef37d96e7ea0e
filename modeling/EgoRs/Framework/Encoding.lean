import Mathlib.Data.List.Basic

/-! # Self-Delimiting Encodings

An encoding delimits itself when its output says where it ends: equal
strings that start with two encodings start with the same one. Such
encodings can be written one after the other and still be told apart,
which is what makes tagged and length-prefixed formats injective.

The notion is relative to one value (`DelimitsAt`), so that an induction
over a recursive type can use it for the parts of a value only, and to a
view of the values, for encodings that leave something out on purpose.
-/

namespace EgoRs.Framework

variable {α β γ α' γ' : Type}

/-- The view of `a` can be read off any string that starts with its encoding,
among the values that satisfy `P`. -/
def DelimitsAt (enc : α → List β) (view : α → α') (P : α → Prop) (a : α) : Prop :=
  ∀ b s t, P b → enc a ++ s = enc b ++ t → view a = view b ∧ s = t

variable {enc : α → List β} {P : α → Prop}

/-- An injective encoding of fixed length delimits itself. -/
theorem delimitsAt_of_length {view : α → α'} {n : Nat} (hlen : ∀ a, (enc a).length = n) {a : α}
    (hinj : ∀ b, P b → enc a = enc b → view a = view b) : DelimitsAt enc view P a := by
  intro b s t hb h
  have hsame : (enc a).length = (enc b).length := by rw [hlen, hlen]
  obtain ⟨henc, hrest⟩ := List.append_inj h hsame
  exact ⟨hinj b hb henc, hrest⟩

/-- Two encodings one after the other. -/
theorem DelimitsAt.pair {encA : α → List β} {encC : γ → List β} {viewA : α → α'}
    {viewC : γ → γ'} {Q : γ → Prop} {a : α} {c : γ}
    (ha : DelimitsAt encA viewA P a) (hc : DelimitsAt encC viewC Q c) :
    DelimitsAt (fun p : α × γ => encA p.1 ++ encC p.2) (fun p => (viewA p.1, viewC p.2))
      (fun p => P p.1 ∧ Q p.2) (a, c) := by
  intro p s t hp h
  simp only [List.append_assoc] at h
  obtain ⟨hviewA, hrest⟩ := ha p.1 _ _ hp.1 h
  obtain ⟨hviewC, hst⟩ := hc p.2 s t hp.2 hrest
  exact ⟨by simp only [hviewA, hviewC], hst⟩

/-- As many encodings as the other side has, one after the other. -/
theorem delimits_flatMap {view : α → α'} :
    ∀ (as bs : List α) (s t : List β), (∀ a ∈ as, DelimitsAt enc view P a) → (∀ b ∈ bs, P b) →
      as.length = bs.length → as.flatMap enc ++ s = bs.flatMap enc ++ t →
      as.map view = bs.map view ∧ s = t := by
  intro as
  induction as with
  | nil =>
    intro bs s t _ _ hlen h
    have hnil : bs = [] := List.eq_nil_of_length_eq_zero hlen.symm
    subst hnil
    exact ⟨rfl, h⟩
  | cons a _ ih =>
    intro bs s t hd hP hlen h
    cases bs with
    | nil => cases hlen
    | cons b bs =>
      simp only [List.flatMap_cons, List.append_assoc] at h
      -- the heads end at the same place, then the rest is an instance of `ih`
      obtain ⟨hview, hrest⟩ := hd a (by simp) b _ _ (hP b (by simp)) h
      obtain ⟨hviews, hst⟩ := ih bs s t (fun x hx => hd x (by simp [hx]))
        (fun x hx => hP x (by simp [hx])) (by simpa using hlen) hrest
      exact ⟨by simp [hview, hviews], hst⟩

end EgoRs.Framework
