import Mathlib.Data.List.AList

/-! # Association Maps

What `AList` does not have: one map written into another, a map with its
values replaced, and how many entries an update leaves.

A staged map is written into a committed one entry by entry. Keys of a
map are distinct, so the order of the entries cannot be observed: every
key sees at most one write, computed from the value it had before the
first of them.
-/

namespace EgoRs.Framework

variable {κ β γ : Type} [DecidableEq κ]

/-- `for (k, v) in updates { m[k] = f(m.get(k), v) }`. -/
def publishInto (f : Option β → γ → β) (m : AList (fun _ : κ => β))
    (updates : AList (fun _ : κ => γ)) : AList (fun _ : κ => β) :=
  updates.entries.foldl (fun m e => m.insert e.1 (f (m.lookup e.1) e.2)) m

/-- A key that no entry carries keeps its value. -/
private theorem lookup_foldl_of_not_mem (f : Option β → γ → β)
    (es : List (Sigma fun _ : κ => γ)) (k : κ) (hk : k ∉ es.keys)
    (m : AList (fun _ : κ => β)) :
    (es.foldl (fun m e => m.insert e.1 (f (m.lookup e.1) e.2)) m).lookup k = m.lookup k := by
  induction es generalizing m with
  | nil => rfl
  | cons _ _ ih =>
    rw [List.keys_cons, List.mem_cons, not_or] at hk
    rw [List.foldl_cons, ih hk.2, AList.lookup_insert_ne hk.1]

private theorem lookup_foldl (f : Option β → γ → β) (es : List (Sigma fun _ : κ => γ))
    (hd : es.NodupKeys) (k : κ) (m : AList (fun _ : κ => β)) :
    (es.foldl (fun m e => m.insert e.1 (f (m.lookup e.1) e.2)) m).lookup k =
      match es.dlookup k with
      | none => m.lookup k
      | some v => some (f (m.lookup k) v) := by
  induction es generalizing m with
  | nil => rfl
  | cons e es ih =>
    obtain ⟨k', v⟩ := e
    obtain ⟨hnot, hd'⟩ := List.nodupKeys_cons.mp hd
    rw [List.foldl_cons]
    by_cases hk : k = k'
    · subst hk
      -- the one write of this key; the rest of the entries leave it alone
      rw [List.dlookup_cons_eq, lookup_foldl_of_not_mem f es k hnot, AList.lookup_insert]
    · rw [List.dlookup_cons_ne es ⟨k', v⟩ hk, ih hd', AList.lookup_insert_ne hk]

/-- **What a publication leaves under a key.** -/
theorem lookup_publishInto (f : Option β → γ → β) (m : AList (fun _ : κ => β))
    (updates : AList (fun _ : κ => γ)) (k : κ) :
    (publishInto f m updates).lookup k =
      match updates.lookup k with
      | none => m.lookup k
      | some v => some (f (m.lookup k) v) :=
  lookup_foldl f updates.entries updates.nodupKeys k m

/-- The map with every value replaced by its image. -/
def mapValues (f : β → γ) (m : AList (fun _ : κ => β)) : AList (fun _ : κ => γ) where
  entries := m.entries.map fun e => ⟨e.1, f e.2⟩
  nodupKeys := by
    have hkeys : (m.entries.map fun e => (⟨e.1, f e.2⟩ : Sigma fun _ : κ => γ)).keys
        = m.entries.keys := by
      simp [List.keys]
    unfold List.NodupKeys
    rw [hkeys]
    exact m.nodupKeys

private theorem dlookup_map (f : β → γ) (es : List (Sigma fun _ : κ => β)) (k : κ) :
    (es.map fun e => (⟨e.1, f e.2⟩ : Sigma fun _ : κ => γ)).dlookup k
      = (es.dlookup k).map f := by
  induction es with
  | nil => rfl
  | cons e es ih =>
    obtain ⟨k', v⟩ := e
    rw [List.map_cons]
    by_cases hk : k = k'
    · subst hk
      rw [List.dlookup_cons_eq, List.dlookup_cons_eq, Option.map_some]
    · rw [List.dlookup_cons_ne es ⟨k', v⟩ hk, ← ih]
      exact List.dlookup_cons_ne _ (⟨k', f v⟩ : Sigma fun _ : κ => γ) hk

@[simp] theorem lookup_mapValues (f : β → γ) (m : AList (fun _ : κ => β)) (k : κ) :
    (mapValues f m).lookup k = (m.lookup k).map f :=
  dlookup_map f m.entries k

/-! ### After an update -/

section
variable {m : AList (fun _ : κ => β)} {k k' : κ} {v v' : β}

/-- The new entry, or one of the others. -/
theorem lookup_insert_cases (h : (m.insert k' v').lookup k = some v) :
    (k = k' ∧ v = v') ∨ (k ≠ k' ∧ m.lookup k = some v) := by
  by_cases hk : k = k'
  · subst hk
    rw [AList.lookup_insert, Option.some.injEq] at h
    exact .inl ⟨rfl, h.symm⟩
  · rw [AList.lookup_insert_ne hk] at h
    exact .inr ⟨hk, h⟩

theorem lookup_erase_some (h : (m.erase k').lookup k = some v) : k ≠ k' ∧ m.lookup k = some v := by
  have hne : k ≠ k' := by
    rintro rfl
    rw [AList.lookup_erase] at h
    cases h
  exact ⟨hne, AList.lookup_erase_ne hne ▸ h⟩

theorem lookup_foldl_erase (ks : List κ) (m : AList (fun _ : κ => β)) (k : κ) :
    (ks.foldl (fun m k => m.erase k) m).lookup k = if k ∈ ks then none else m.lookup k := by
  induction ks generalizing m with
  | nil => simp
  | cons k' ks ih =>
    rw [List.foldl_cons, ih]
    by_cases hk : k = k'
    · subst hk
      simp
    · simp [hk, AList.lookup_erase_ne hk]

omit [DecidableEq κ] in
private theorem length_entries (m : AList (fun _ : κ => β)) :
    m.entries.length = m.keys.length :=
  (List.length_map _).symm

private theorem mem_keys_of_lookup (h : m.lookup k = some v) : k ∈ m.keys :=
  AList.lookup_isSome.mp (Option.isSome_of_eq_some h)

theorem length_erase (h : m.lookup k = some v) :
    (m.erase k).entries.length + 1 = m.entries.length := by
  rw [length_entries, length_entries, AList.keys_erase]
  exact List.length_erase_add_one (mem_keys_of_lookup h)

theorem length_insert_new (h : m.lookup k = none) :
    (m.insert k v).entries.length = m.entries.length + 1 := by
  rw [AList.entries_insert_of_notMem (AList.lookup_eq_none.mp h), List.length_cons]

theorem length_insert_over (h : m.lookup k = some v') :
    (m.insert k v).entries.length = m.entries.length := by
  rw [length_entries, length_entries, AList.keys_insert, List.length_cons]
  exact List.length_erase_add_one (mem_keys_of_lookup h)

end

end EgoRs.Framework
