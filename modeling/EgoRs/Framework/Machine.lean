import Mathlib.Data.List.Basic

/-! # Input/Output Machines and Their Executions

A component that serialises its callers (one lock, one transaction, one
statement at a time) is a machine: it takes an input, moves to a new
state and gives an output. What the environment chooses (who calls, with
what, at which clock reading, in which iteration order) is part of the
input, so that a machine is a function and quantifying over inputs is
quantifying over every interleaving.

This file defines:
- `Machine`: initial state and step function
- `Transition`: one executed step together with the states around it
- `Machine.Exec`: finite executions, as a list of transitions
- `Machine.trace`: the execution that given inputs cause
- `Along`: a condition met by every transition of an execution
- the invariant rules, plain and relative to a condition
-/

namespace EgoRs.Framework

/-! ### Machines -/

/-- A deterministic machine with inputs `ι` and outputs `ο`. -/
structure Machine (σ ι ο : Type) where
  /-- The state before the first input. -/
  init : σ
  /-- Next state and output. -/
  step : σ → ι → σ × ο

/-- One executed step. -/
structure Transition (σ ι ο : Type) where
  pre : σ
  input : ι
  output : ο
  post : σ

variable {σ ι ο : Type}

/-- The transition a machine makes from `s` on input `i`. -/
def Machine.fire (m : Machine σ ι ο) (s : σ) (i : ι) : Transition σ ι ο where
  pre := s
  input := i
  output := (m.step s i).2
  post := (m.step s i).1

section
variable (m : Machine σ ι ο) (s : σ) (i : ι)

@[simp] theorem fire_pre : (m.fire s i).pre = s := rfl

@[simp] theorem fire_input : (m.fire s i).input = i := rfl

@[simp] theorem fire_output : (m.fire s i).output = (m.step s i).2 := rfl

@[simp] theorem fire_post : (m.fire s i).post = (m.step s i).1 := rfl

end

/-! ### Executions -/

/-- `m.Exec s h s'`: the transitions `h`, in order, lead from `s` to `s'`.
The last transition is the outermost constructor, since what is proved
about a run is mostly proved about the history up to now. -/
inductive Machine.Exec (m : Machine σ ι ο) :
    σ → List (Transition σ ι ο) → σ → Prop where
  | nil  : ∀ s, m.Exec s [] s
  | snoc : ∀ {s h s'} (i : ι), m.Exec s h s' →
             m.Exec s (h ++ [m.fire s' i]) (m.step s' i).1

/-- An execution from the start. -/
abbrev Machine.Run (m : Machine σ ι ο) (h : List (Transition σ ι ο)) (s : σ) : Prop :=
  m.Exec m.init h s

namespace Machine.Exec
variable {m : Machine σ ι ο} {s t u : σ} {h h₁ h₂ : List (Transition σ ι ο)}

theorem append (h₁e : m.Exec s h₁ t) (h₂e : m.Exec t h₂ u) : m.Exec s (h₁ ++ h₂) u := by
  induction h₂e with
  | nil => simpa using h₁e
  | snoc i _ ih =>
    rw [← List.append_assoc]
    exact Exec.snoc i ih

/-- An execution splits wherever its list of transitions does. -/
theorem split (he : m.Exec s (h₁ ++ h₂) u) : ∃ t, m.Exec s h₁ t ∧ m.Exec t h₂ u := by
  generalize hh : h₁ ++ h₂ = h at he
  induction he generalizing h₂ with
  | nil =>
    obtain ⟨rfl, rfl⟩ := List.append_eq_nil_iff.mp hh
    exact ⟨s, .nil s, .nil s⟩
  | snoc i he ih =>
    rcases List.eq_nil_or_concat' h₂ with rfl | ⟨l, x, rfl⟩
    · rw [List.append_nil] at hh
      subst hh
      exact ⟨_, .snoc i he, .nil _⟩
    · rw [← List.append_assoc] at hh
      obtain ⟨rfl, hx⟩ := List.append_inj' hh rfl
      obtain ⟨t, h1, h2⟩ := ih rfl
      rw [hx]
      exact ⟨t, h1, .snoc i h2⟩

/-- An execution split at one transition: it starts where the first part
ends, it is the machine's own step, and the rest starts from its end. -/
theorem split_at {t : Transition σ ι ο} (he : m.Exec s (h₁ ++ t :: h₂) u) :
    m.Exec s h₁ t.pre ∧ t = m.fire t.pre t.input ∧ m.Exec t.post h₂ u := by
  have he' : m.Exec s ((h₁ ++ [t]) ++ h₂) u := by simpa using he
  obtain ⟨v, hv, hrest⟩ := he'.split
  generalize hl : h₁ ++ [t] = l at hv
  cases hv with
  | nil => simp at hl
  | @snoc h w i hw =>
    obtain ⟨rfl, ht⟩ := List.append_inj' hl rfl
    have ht' : t = m.fire w i := by simpa using ht
    subst ht'
    exact ⟨hw, rfl, hrest⟩

/-- An execution split at position `n`. -/
theorem split_position {n : Nat} {t : Transition σ ι ο} (he : m.Exec s h u) (hn : h[n]? = some t) :
    m.Exec s (h.take n) t.pre ∧ t = m.fire t.pre t.input ∧ m.Exec t.post (h.drop (n + 1)) u := by
  obtain ⟨hlt, hget⟩ := List.getElem?_eq_some_iff.mp hn
  have hsplit : h = h.take n ++ t :: h.drop (n + 1) := by
    rw [← hget, ← List.drop_eq_getElem_cons hlt, List.take_append_drop]
  rw [hsplit] at he
  exact he.split_at

/-- The transitions determine the state they lead to. -/
theorem state_unique (h₁e : m.Exec s h t) (h₂e : m.Exec s h u) : t = u := by
  induction h₁e generalizing u with
  | nil =>
    generalize hl : [] = l at h₂e
    cases h₂e with
    | nil => rfl
    | snoc => simp at hl
  | @snoc k v i _ _ =>
    generalize hl : k ++ [m.fire v i] = l at h₂e
    cases h₂e with
    | nil => simp at hl
    | @snoc k' v' i' _ =>
      -- the last transition carries the state it leads to
      have hlast : m.fire v i = m.fire v' i' := by simpa using (List.append_inj' hl rfl).2
      exact congrArg Transition.post hlast

/-- **Invariant rule**: what holds of the empty history and survives every
step holds of every execution. -/
theorem invariant {P : List (Transition σ ι ο) → σ → Prop} (h0 : P [] s)
    (hstep : ∀ h t i, m.Exec s h t → P h t → P (h ++ [m.fire t i]) (m.step t i).1)
    (he : m.Exec s h t) : P h t := by
  induction he with
  | nil => exact h0
  | snoc i he ih => exact hstep _ _ i he ih

end Machine.Exec

/-- The transitions the inputs `is` cause from `s`. -/
def Machine.trace (m : Machine σ ι ο) : σ → List ι → List (Transition σ ι ο)
  | _, [] => []
  | s, i :: is => m.fire s i :: m.trace (m.step s i).1 is

/-- The state after the inputs `is` from `s`. -/
def Machine.after (m : Machine σ ι ο) : σ → List ι → σ
  | s, [] => s
  | s, i :: is => m.after (m.step s i).1 is

theorem Machine.exec_trace (m : Machine σ ι ο) (s : σ) (is : List ι) :
    m.Exec s (m.trace s is) (m.after s is) := by
  induction is generalizing s with
  | nil => exact .nil s
  | cons i _ ih =>
    have hfirst : m.Exec s [m.fire s i] (m.step s i).1 := .snoc i (.nil s)
    exact hfirst.append (ih (m.step s i).1)

/-! ### Histories by Their Last Transition -/

theorem mem_snoc {α : Type} {l : List α} {x a : α} (h : x ∈ l ++ [a]) : x ∈ l ∨ x = a := by
  simpa using h

theorem exists_mem_snoc {α : Type} {l : List α} {a : α} {P : α → Prop} :
    (∃ x ∈ l ++ [a], P x) ↔ (∃ x ∈ l, P x) ∨ P a := by
  simp [or_and_right, exists_or]

/-! ### Conditions Along an Execution -/

/-- Every transition of `h` meets `C`, which may look at the history before
the transition. -/
def Along (C : List (Transition σ ι ο) → Transition σ ι ο → Prop)
    (h : List (Transition σ ι ο)) : Prop :=
  ∀ h₁ t h₂, h = h₁ ++ t :: h₂ → C h₁ t

namespace Along
variable {C : List (Transition σ ι ο) → Transition σ ι ο → Prop}
  {h h₁ h₂ : List (Transition σ ι ο)} {t : Transition σ ι ο}

theorem nil : Along C [] := by
  intro h₁ t h₂ hh
  simp at hh

theorem of_append (ha : Along C (h₁ ++ h₂)) : Along C h₁ := by
  intro k₁ t k₂ hk
  exact ha k₁ t (k₂ ++ h₂) (by simp [hk])

theorem last (ha : Along C (h ++ [t])) : C h t :=
  ha h t [] rfl

theorem snoc (ha : Along C h) (ht : C h t) : Along C (h ++ [t]) := by
  intro h₁ u h₂ hh
  rcases List.eq_nil_or_concat' h₂ with rfl | ⟨l, x, rfl⟩
  · obtain ⟨rfl, hu⟩ := List.append_inj' hh rfl
    have hu' : t = u := by simpa using hu
    exact hu' ▸ ht
  · have hh' : h ++ [t] = (h₁ ++ u :: l) ++ [x] := by simpa using hh
    obtain ⟨rfl, _⟩ := List.append_inj' hh' rfl
    exact ha h₁ u l rfl

theorem of_forall {D : Transition σ ι ο → Prop} (hall : ∀ t ∈ h, D t) :
    Along (fun _ t => D t) h := by
  intro h₁ t h₂ hh
  exact hall t (by simp [hh])

theorem at_position {n : Nat} (ha : Along C h) (hn : h[n]? = some t) : C (h.take n) t := by
  obtain ⟨hlt, hget⟩ := List.getElem?_eq_some_iff.mp hn
  apply ha (h.take n) t (h.drop (n + 1))
  rw [← hget, ← List.drop_eq_getElem_cons hlt, List.take_append_drop]

theorem of_positions (hall : ∀ k < h.length, ∀ t ∈ h[k]?, C (h.take k) t) : Along C h := by
  intro h₁ t h₂ hh
  subst hh
  have hat := hall h₁.length (by simp) t (by simp)
  rwa [List.take_left] at hat

end Along

/-- **Invariant rule under a condition**: the step case may use that the
transition meets the condition. -/
theorem Machine.Exec.invariant_along {m : Machine σ ι ο} {s t : σ} {h : List (Transition σ ι ο)}
    {C : List (Transition σ ι ο) → Transition σ ι ο → Prop} {P : List (Transition σ ι ο) → σ → Prop}
    (h0 : P [] s) (hstep : ∀ h t i, m.Exec s h t → P h t → C h (m.fire t i) →
      P (h ++ [m.fire t i]) (m.step t i).1) (he : m.Exec s h t) (ha : Along C h) : P h t := by
  induction he with
  | nil => exact h0
  | snoc i he ih =>
    exact hstep _ _ i he (ih ha.of_append) ha.last

end EgoRs.Framework
