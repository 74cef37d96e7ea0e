import EgoRs.Effects.Effect

/-! # Composing Effects

`Effect::and_then` and `collect_children` (`domain/src/effect.rs`): what a
handler returns is a tree of effects, and combining two of them leaves one
list of leaves.
-/

namespace EgoRs

/-- `Effect<E, R, S>`. -/
inductive Effect (E R S : Type) where
  | noEffect
  | stateMutation (state : S)
  | eventEmission (events : List E)
  | reply (reply : R)
  | externalEffects (effects : List ExternalEffectDescription)
  | composed (children : List (Effect E R S))

namespace Effect

variable {E R S : Type}

mutual
/-- `collect_children`, with what `acc` holds after the call. -/
def collectChildren : Effect E R S → List (Effect E R S) → List (Effect E R S)
  | .composed children, acc => collectAll children acc
  | .noEffect, acc => acc
  | other, acc => acc ++ [other]
def collectAll : List (Effect E R S) → List (Effect E R S) → List (Effect E R S)
  | [], acc => acc
  | child :: children, acc => collectAll children (collectChildren child acc)
end

def andThen (self other : Effect E R S) : Effect E R S :=
  match self, other with
  | .noEffect, _ => other
  | _, .noEffect => self
  | _, _ => .composed (other.collectChildren (self.collectChildren []))

/-! ## Leaves -/

mutual
/-- The leaves from left to right, without those that are `NoEffect`. -/
def leaves : Effect E R S → List (Effect E R S)
  | .composed children => leavesOfAll children
  | .noEffect => []
  | leaf => [leaf]
def leavesOfAll : List (Effect E R S) → List (Effect E R S)
  | [] => []
  | child :: children => child.leaves ++ leavesOfAll children
end

/-- Neither `Composed` nor `NoEffect`. -/
def isLeaf : Effect E R S → Bool
  | .composed _ => false
  | .noEffect => false
  | _ => true

mutual
theorem collectChildren_eq : ∀ (e : Effect E R S) (acc : List (Effect E R S)),
    e.collectChildren acc = acc ++ e.leaves
  | .composed children, acc => by
    rw [collectChildren, leaves, collectAll_eq children]
  | .noEffect, acc => (List.append_nil acc).symm
  | .stateMutation _, _ | .eventEmission _, _ | .reply _, _ | .externalEffects _, _ => rfl
theorem collectAll_eq : ∀ (children acc : List (Effect E R S)),
    collectAll children acc = acc ++ leavesOfAll children
  | [], acc => (List.append_nil acc).symm
  | child :: children, acc => by
    rw [collectAll, leavesOfAll, collectAll_eq children, collectChildren_eq child,
      List.append_assoc]
end

mutual
theorem isLeaf_of_mem_leaves : ∀ (e : Effect E R S), ∀ leaf ∈ e.leaves, leaf.isLeaf = true
  | .composed children => isLeaf_of_mem_leavesOfAll children
  | .noEffect => by simp [leaves]
  | .stateMutation _ | .eventEmission _ | .reply _ | .externalEffects _ => by
    simp [leaves, isLeaf]
theorem isLeaf_of_mem_leavesOfAll : ∀ (children : List (Effect E R S)),
    ∀ leaf ∈ leavesOfAll children, leaf.isLeaf = true
  | [] => by simp [leavesOfAll]
  | child :: children => List.forall_mem_append.mpr
    ⟨isLeaf_of_mem_leaves child, isLeaf_of_mem_leavesOfAll children⟩
end

/-- A list of leaves is flat already. -/
theorem leavesOfAll_eq_self {children : List (Effect E R S)}
    (h : ∀ child ∈ children, child.isLeaf = true) : leavesOfAll children = children := by
  induction children with
  | nil => rfl
  | cons child children ih =>
    obtain ⟨hchild, hrest⟩ := List.forall_mem_cons.mp h
    rw [leavesOfAll, ih hrest]
    cases child with
    | composed | noEffect => cases hchild
    | _ => rfl

variable {a b : Effect E R S}

theorem noEffect_andThen (b : Effect E R S) : noEffect.andThen b = b := rfl

theorem andThen_noEffect (a : Effect E R S) : a.andThen noEffect = a := by
  cases a <;> rfl

theorem andThen_eq (ha : a ≠ .noEffect) (hb : b ≠ .noEffect) :
    a.andThen b = .composed (a.leaves ++ b.leaves) := by
  have heq : a.andThen b = .composed (b.collectChildren (a.collectChildren [])) := by
    unfold andThen
    split
    · exact absurd rfl ha
    · exact absurd rfl hb
    · rfl
  rw [heq, collectChildren_eq, collectChildren_eq, List.nil_append]

theorem andThen_ne (ha : a ≠ .noEffect) (hb : b ≠ .noEffect) : a.andThen b ≠ .noEffect := by
  rw [andThen_eq ha hb]
  nofun

theorem leaves_andThen (a b : Effect E R S) : (a.andThen b).leaves = a.leaves ++ b.leaves := by
  by_cases ha : a = .noEffect
  · subst ha
    rfl
  · by_cases hb : b = .noEffect
    · subst hb
      rw [andThen_noEffect]
      exact (List.append_nil _).symm
    · rw [andThen_eq ha hb, leaves]
      exact leavesOfAll_eq_self
        (List.forall_mem_append.mpr ⟨isLeaf_of_mem_leaves a, isLeaf_of_mem_leaves b⟩)

theorem andThen_assoc (a b c : Effect E R S) :
    (a.andThen b).andThen c = a.andThen (b.andThen c) := by
  by_cases ha : a = .noEffect
  · rw [ha, noEffect_andThen, noEffect_andThen]
  · by_cases hb : b = .noEffect
    · rw [hb, andThen_noEffect, noEffect_andThen]
    · by_cases hc : c = .noEffect
      · rw [hc, andThen_noEffect, andThen_noEffect]
      · -- what is combined is not `NoEffect`, and its leaves are all there is to it
        rw [andThen_eq (andThen_ne ha hb) hc, andThen_eq ha (andThen_ne hb hc), leaves_andThen,
          leaves_andThen, List.append_assoc]

/-- **Composition is a monoid** on effects, with `NoEffect` as its unit; it
concatenates leaves, and what it builds is flat. -/
theorem composition_monoid (a b c : Effect E R S) :
    (a.andThen b).andThen c = a.andThen (b.andThen c) ∧
    noEffect.andThen a = a ∧ a.andThen noEffect = a ∧
    (a.andThen b).leaves = a.leaves ++ b.leaves ∧
    (a ≠ .noEffect → b ≠ .noEffect → ∃ children, a.andThen b = .composed children ∧
      ∀ child ∈ children, child.isLeaf = true) := by
  refine ⟨andThen_assoc a b c, noEffect_andThen a, andThen_noEffect a, leaves_andThen a b, ?_⟩
  intro ha hb
  exact ⟨_, andThen_eq ha hb,
    List.forall_mem_append.mpr ⟨isLeaf_of_mem_leaves a, isLeaf_of_mem_leaves b⟩⟩

end Effect

end EgoRs
