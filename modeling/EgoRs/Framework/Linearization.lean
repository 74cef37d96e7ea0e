import Mathlib.Data.List.Pairwise
import EgoRs.Framework.Machine

/-! # Linearization Points

Operations are carried out on a machine in several steps, under any
interleaving: `own k t` says that the transition `t` is a step of
operation `k`, and `view` is the abstract state that a state of the
machine stands for.

Every operation takes effect at one of its steps, its point, or not at
all, and a step that is nobody's point changes nothing. Then the
operations with a point, in the order of their points, are a sequential
run from the first abstract state to the last.
-/

namespace EgoRs.Framework

/-- The operations `order`, one after the other, lead from the first state to
the second; `effect k` is what operation `k` does when it runs alone. -/
inductive SeqRun {κ σ : Type} (effect : κ → σ → σ → Prop) : σ → List κ → σ → Prop where
  | nil  : ∀ a, SeqRun effect a [] a
  | snoc : ∀ {a order b c} (k : κ), SeqRun effect a order b → effect k b c →
             SeqRun effect a (order ++ [k]) c

/-! ### Steps of operations in a history -/

section
variable {κ σ ι ο α : Type} (own : κ → Transition σ ι ο → Prop) (view : σ → α)

/-- No step of `k` in the history changes the abstract state. -/
def Quiet (h : List (Transition σ ι ο)) (k : κ) : Prop :=
  ∀ t ∈ h, own k t → view t.post = view t.pre

/-- The step of `k` at position `p` has the effect, its others have none. -/
def EffectAt (effect : α → α → Prop) (h : List (Transition σ ι ο)) (k : κ) (p : Nat) : Prop :=
  ∃ h₁ t h₂, h = h₁ ++ t :: h₂ ∧ h₁.length = p ∧ own k t ∧ effect (view t.pre) (view t.post) ∧
    Quiet own view h₁ k ∧ Quiet own view h₂ k

/-- Some step of `k` in the history has the effect, its others have none. -/
def TakesEffect (effect : α → α → Prop) (h : List (Transition σ ι ο)) (k : κ) : Prop :=
  ∃ p, EffectAt own view effect h k p

/-- A step of `a` comes before a step of `b`. -/
def StepBefore (h : List (Transition σ ι ο)) (a b : κ) : Prop :=
  ∃ h₁ t h₂ u h₃, h = h₁ ++ t :: (h₂ ++ u :: h₃) ∧ own a t ∧ own b u

variable {own view} {h h₁ h₂ : List (Transition σ ι ο)} {t : Transition σ ι ο} {k : κ}
  {effect : α → α → Prop}

theorem Quiet.append (hq₁ : Quiet own view h₁ k) (hq₂ : Quiet own view h₂ k) :
    Quiet own view (h₁ ++ h₂) k := by
  intro u hu hown
  rcases List.mem_append.mp hu with hu | hu
  · exact hq₁ u hu hown
  · exact hq₂ u hu hown

theorem Quiet.singleton (ht : own k t → view t.post = view t.pre) : Quiet own view [t] k := by
  intro u hu hown
  rw [List.mem_singleton] at hu
  subst hu
  exact ht hown

theorem Quiet.snoc (hq : Quiet own view h k) (ht : own k t → view t.post = view t.pre) :
    Quiet own view (h ++ [t]) k :=
  hq.append (.singleton ht)

theorem TakesEffect.snoc (he : TakesEffect own view effect h k)
    (ht : own k t → view t.post = view t.pre) : TakesEffect own view effect (h ++ [t]) k := by
  obtain ⟨p, h₁, u, h₂, rfl, hp, hown, heff, hq₁, hq₂⟩ := he
  exact ⟨p, h₁, u, h₂ ++ [t], by simp, hp, hown, heff, hq₁, hq₂.snoc ht⟩

/-- An operation that was quiet so far takes effect now. -/
theorem Quiet.takesEffect (hq : Quiet own view h k) (hown : own k t)
    (heff : effect (view t.pre) (view t.post)) : TakesEffect own view effect (h ++ [t]) k := by
  have hnone : Quiet own view [] k := by
    intro u hu
    simp at hu
  exact ⟨h.length, h, t, [], rfl, rfl, hown, heff, hq, hnone⟩

/-- A quiet operation may be taken to have happened at any of its steps where
it would have had no effect. -/
theorem Quiet.takesEffect_at (hq : Quiet own view (h₁ ++ t :: h₂) k) (hown : own k t)
    (heff : effect (view t.pre) (view t.pre)) : TakesEffect own view effect (h₁ ++ t :: h₂) k := by
  have hsame : view t.post = view t.pre := hq t (by simp) hown
  refine ⟨h₁.length, h₁, t, h₂, rfl, rfl, hown, by rw [hsame]; exact heff, ?_, ?_⟩
  · intro u hu
    exact hq u (by simp [hu])
  · intro u hu
    exact hq u (by simp [hu])

theorem TakesEffect.mono {effect' : α → α → Prop} (he : TakesEffect own view effect h k)
    (himp : ∀ a b, effect a b → effect' a b) : TakesEffect own view effect' h k := by
  obtain ⟨p, h₁, t, h₂, hh, hp, hown, heff, hq⟩ := he
  exact ⟨p, h₁, t, h₂, hh, hp, hown, himp _ _ heff, hq⟩

/-- A point in a history with one more transition is an old one, or the last
transition. -/
theorem TakesEffect.of_snoc (he : TakesEffect own view effect (h ++ [t]) k) :
    (TakesEffect own view effect h k ∧ (own k t → view t.post = view t.pre)) ∨
    (own k t ∧ Quiet own view h k ∧ effect (view t.pre) (view t.post)) := by
  obtain ⟨p, h₁, u, h₂, hh, hp, hown, heff, hq₁, hq₂⟩ := he
  rcases List.eq_nil_or_concat' h₂ with rfl | ⟨h₂, x, rfl⟩
  · obtain ⟨rfl, hlast⟩ := List.append_inj' hh rfl
    obtain rfl : t = u := List.singleton_inj.mp hlast
    exact .inr ⟨hown, hq₁, heff⟩
  · rw [← List.cons_append, ← List.append_assoc] at hh
    obtain ⟨rfl, hlast⟩ := List.append_inj' hh rfl
    obtain rfl : t = x := List.singleton_inj.mp hlast
    refine .inl ⟨⟨p, h₁, u, h₂, rfl, hp, hown, heff, hq₁, ?_⟩, hq₂ t List.mem_concat_self⟩
    intro v hv
    exact hq₂ v (List.mem_append_left _ hv)

theorem TakesEffect.owns (he : TakesEffect own view effect h k) : ∃ t ∈ h, own k t := by
  obtain ⟨p, h₁, t, h₂, rfl, -, hown, -⟩ := he
  exact ⟨t, List.mem_append_right _ List.mem_cons_self, hown⟩

theorem StepBefore.snoc {a b : κ} (hb : StepBefore own h a b) : StepBefore own (h ++ [t]) a b := by
  obtain ⟨h₁, u, h₂, v, h₃, rfl, hu, hv⟩ := hb
  exact ⟨h₁, u, h₂, v, h₃ ++ [t], by simp, hu, hv⟩

theorem stepBefore_last {a b : κ} {u : Transition σ ι ο} (hu : u ∈ h) (ha : own a u)
    (hb : own b t) : StepBefore own (h ++ [t]) a b := by
  obtain ⟨h₁, h₂, rfl⟩ := List.append_of_mem hu
  exact ⟨h₁, u, h₂, t, [], by simp, ha, hb⟩

/-- **Sequential order of an interleaved run.** If every step belongs to at
most one operation, steps of none are quiet, and every operation takes
effect once or, outside `S`, never, then the operations of `S` run one
after the other from the first abstract state to the last. -/
theorem Machine.Exec.exists_order {m : Machine σ ι ο} {s last : σ} {effects : κ → α → α → Prop}
    {S : κ → Prop} (he : m.Exec s h last) (howner : ∀ k k' t, own k t → own k' t → k = k')
    (hnobody : ∀ t ∈ h, (∀ k, ¬ own k t) → view t.post = view t.pre)
    (heffect : ∀ k, S k → TakesEffect own view (effects k) h k)
    (hquiet : ∀ k, ¬ S k → Quiet own view h k) :
    ∃ order : List κ, order.Nodup ∧ (∀ k, k ∈ order ↔ S k) ∧
      order.Pairwise (StepBefore own h) ∧ SeqRun effects (view s) order (view last) := by
  induction he generalizing S with
  | nil =>
    have hnone : ∀ k, ¬ S k := by
      intro k hk
      obtain ⟨t, ht, -⟩ := (heffect k hk).owns
      cases ht
    exact ⟨[], .nil, fun k => iff_of_false List.not_mem_nil (hnone k), .nil, .nil _⟩
  | @snoc h last i he ih =>
    generalize ht : m.fire last i = t at *
    obtain ⟨hpre, hpost⟩ : t.pre = last ∧ t.post = (m.step last i).1 := ht ▸ ⟨rfl, rfl⟩
    -- the operations whose point is the last transition wait for it
    let Last := fun k => own k t ∧ Quiet own view h k ∧ effects k (view t.pre) (view t.post)
    have hbefore : ∀ k, S k → ¬ Last k → TakesEffect own view (effects k) h k ∧
        (own k t → view t.post = view t.pre) := by
      intro k hk hnot
      exact (heffect k hk).of_snoc.resolve_right hnot
    have hstill : ∀ k, ¬ (S k ∧ ¬ Last k) → Quiet own view h k := by
      intro k hk
      by_cases hS : S k
      · by_cases hlast : Last k
        · exact hlast.2.1
        · exact absurd ⟨hS, hlast⟩ hk
      · intro u hu
        exact hquiet k hS u (List.mem_append_left _ hu)
    obtain ⟨order, hnodup, hmem, hsteps, hrun⟩ := @ih (fun k => S k ∧ ¬ Last k)
      (fun u hu => hnobody u (List.mem_append_left _ hu)) (fun k hk => (hbefore k hk.1 hk.2).1)
      hstill
    have hsteps' := hsteps.imp fun hb => StepBefore.snoc (t := t) hb
    by_cases hlast : ∃ k, S k ∧ Last k
    · obtain ⟨k, hk, hpoint⟩ := hlast
      refine ⟨order ++ [k], ?_, ?_, ?_, ?_⟩
      · refine List.nodup_append.mpr ⟨hnodup, List.pairwise_singleton _ _, ?_⟩
        rintro a ha b hb rfl
        exact ((hmem a).mp ha).2 (List.mem_singleton.mp hb ▸ hpoint)
      · intro k'
        rw [List.mem_append, List.mem_singleton, hmem]
        constructor
        · rintro (hk' | rfl)
          · exact hk'.1
          · exact hk
        · intro hk'
          by_cases hl : Last k'
          · exact .inr (howner k' k t hl.1 hpoint.1)
          · exact .inl ⟨hk', hl⟩
      · refine List.pairwise_append.mpr ⟨hsteps', List.pairwise_singleton _ _, ?_⟩
        intro a ha b hb
        obtain ⟨hS, hnot⟩ := (hmem a).mp ha
        obtain ⟨u, hu, hown⟩ := (hbefore a hS hnot).1.owns
        rw [List.mem_singleton.mp hb]
        exact stepBefore_last hu hown hpoint.1
      · rw [← hpost]
        exact .snoc k (hpre ▸ hrun) hpoint.2.2
    · refine ⟨order, hnodup, ?_, hsteps', ?_⟩
      · intro k
        rw [hmem]
        exact ⟨fun hk => hk.1, fun hk => ⟨hk, fun hl => hlast ⟨k, hk, hl⟩⟩⟩
      · have hsame : view t.post = view t.pre := by
          by_cases howned : ∃ k, own k t
          · obtain ⟨k, hown⟩ := howned
            by_cases hS : S k
            · exact (hbefore k hS fun hl => hlast ⟨k, hS, hl⟩).2 hown
            · exact hquiet k hS t List.mem_concat_self hown
          · exact hnobody t List.mem_concat_self fun k hown => howned ⟨k, hown⟩
        rw [← hpost, hsame, hpre]
        exact hrun

end

end EgoRs.Framework
