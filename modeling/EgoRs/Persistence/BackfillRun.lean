import EgoRs.Persistence.Backfill

/-! # What a Backfill Does to a Table

When a run commits, and what the table then is. `Backfillable` says it of
the rows alone, without the run: every id splits, no two splits fall
together, no split meets a row still waiting for its own, and every split
stream counts `1..n`.
-/

namespace EgoRs.Backfill

open Framework

variable {β : Type}

/-! ## Updates in sequence -/

/-- A row after `us`. -/
def override (us : List RowUpdate) (row : EventRow β) : EventRow β :=
  us.foldl (fun r u => u.apply r) row

theorem override_cons (u : RowUpdate) (us : List RowUpdate) (row : EventRow β) :
    override (u :: us) row = override us (u.apply row) := rfl

@[simp] theorem map_override_nil (rows : List (EventRow β)) : rows.map (override []) = rows :=
  List.map_id _

@[simp] theorem map_override_cons (u : RowUpdate) (us : List RowUpdate) (rows : List (EventRow β)) :
    rows.map (override (u :: us)) = (rows.map u.apply).map (override us) := by
  rw [List.map_map]
  rfl

variable {us : List RowUpdate} {row : EventRow β}

theorem applyUpdates_rows {table table' : EventsTable β} (h : table.applyUpdates us = .ok table') :
    table'.rows = table.rows.map (override us) := by
  induction us generalizing table with
  | nil =>
    simp only [EventsTable.applyUpdates, Except.ok.injEq] at h
    subst h
    simp
  | cons _ _ ih =>
    unfold EventsTable.applyUpdates EventsTable.update at h
    split_ifs at h with hu
    rw [ih h, map_override_cons]

variable {table : EventsTable β}

/-- Updates go through when the indexes hold after each of them. -/
theorem applyUpdates_ok_iff : (∃ table', table.applyUpdates us = .ok table') ↔
      ∀ p, p <+: us → Uncollided (table.rows.map (override p)) := by
  induction us generalizing table with
  | nil =>
    constructor
    · intro _ p hp
      obtain rfl := List.prefix_nil.mp hp
      simpa using table.indexed
    · intro _
      exact ⟨table, rfl⟩
  | cons u _ ih =>
    unfold EventsTable.applyUpdates EventsTable.update
    by_cases hu : Uncollided (table.rows.map u.apply)
    · simp only [hu, dif_pos]
      rw [ih]
      constructor
      · intro hall p hp
        cases p with
        | nil => simpa using table.indexed
        | cons _ p =>
          obtain ⟨rfl, hp'⟩ := List.cons_prefix_cons.mp hp
          rw [map_override_cons]
          exact hall p hp'
      · intro hall p hp
        have hstep := hall (u :: p) (List.cons_prefix_cons.mpr ⟨rfl, hp⟩)
        rwa [map_override_cons] at hstep
    · simp only [hu, dif_neg, not_false_eq_true]
      constructor
      · rintro ⟨table', h⟩
        cases h
      · intro hall
        have hfirst := hall [u] (List.cons_prefix_cons.mpr ⟨rfl, List.nil_prefix⟩)
        exact absurd hfirst hu

theorem RowUpdate.apply_of_ne {u : RowUpdate} (h : row.id ≠ u.id) : u.apply row = row := if_neg h

theorem override_of_ne (h : ∀ u ∈ us, row.id ≠ u.id) : override us row = row := by
  induction us with
  | nil => rfl
  | cons u _ ih =>
    rw [override_cons, RowUpdate.apply_of_ne (h u List.mem_cons_self)]
    exact ih fun v hv => h v (List.mem_cons_of_mem _ hv)

/-- With one update for each row, a row is changed by its own. -/
theorem override_of_mem {u : RowUpdate} (hnodup : (us.map RowUpdate.id).Nodup) (hu : u ∈ us)
    (hid : row.id = u.id) : override us row = u.apply row := by
  induction us with
  | nil => cases hu
  | cons v _ ih =>
    rw [List.map_cons, List.nodup_cons] at hnodup
    rw [override_cons]
    rcases List.mem_cons.mp hu with rfl | hmem
    · apply override_of_ne
      intro w hw heq
      rw [RowUpdate.apply_id, hid] at heq
      exact hnodup.1 (heq ▸ List.mem_map_of_mem hw)
    · have hne : row.id ≠ v.id := by
        intro heq
        rw [hid] at heq
        exact hnodup.1 (heq ▸ List.mem_map_of_mem hmem)
      rw [RowUpdate.apply_of_ne hne]
      exact ih hnodup.2 hmem

/-! ## Distinct identities -/

theorem collide_symm {r s : EventRow β} (h : Collide r s) : Collide s r := by
  obtain ⟨htyped, hid⟩ := h
  refine ⟨?_, hid.symm⟩
  have htype : r.aggregateType = s.aggregateType := congrArg (fun i => i.1.2.1) hid
  rwa [← htype]

variable {rows : List (EventRow β)}

theorem uncollided_of_nodup (h : (rows.map EventRow.identity).Nodup) : Uncollided rows := by
  have hpair : rows.Pairwise fun r s => r.identity ≠ s.identity := List.pairwise_map.mp h
  exact hpair.imp fun hne hcollide => hne hcollide.2

section
variable {rows : List (EventRow β)}

theorem length_identity_filter (identity : (Option String × Option String × String) × Int) :
    (rows.filter fun row => row.identity = identity).length =
      (rows.map EventRow.identity).count identity := by
  rw [List.count, List.countP_map, List.countP_eq_length_filter]
  congr 1
  apply List.filter_congr
  intro row _
  rw [Function.comp_apply, beq_eq_decide]

theorem duplicateRowIds_eq_nil_iff :
    duplicateRowIds rows = [] ↔ (rows.map EventRow.identity).Nodup := by
  unfold duplicateRowIds rowsWith
  rw [List.map_eq_nil_iff, List.filter_eq_nil_iff, List.nodup_iff_count_le_one]
  simp only [length_identity_filter, decide_eq_true_eq, Nat.not_lt]
  constructor
  · intro h identity
    by_cases hmem : identity ∈ rows.map EventRow.identity
    · obtain ⟨row, hrow, rfl⟩ := List.mem_map.mp hmem
      exact h row hrow
    · rw [List.count_eq_zero_of_not_mem hmem]
      omega
  · intro h row _
    exact h row.identity

theorem colliding_eq_nil_iff (hashOrder : AnyOrder (List Int)) :
    colliding hashOrder rows = [] ↔ (rows.map EventRow.identity).Nodup := by
  have hgroups : colliding hashOrder rows = [] ↔
      ∀ ids ∈ identityGroups rows, ids.length ≤ 1 := by
    unfold colliding
    rw [List.flatten_eq_nil_iff]
    constructor
    · intro h ids hids
      by_contra hlong
      have hmem : ids ∈ (hashOrder.order (identityGroups rows)).filter
          fun ids => decide (1 < ids.length) := by
        rw [List.mem_filter, (hashOrder.perm _).mem_iff]
        exact ⟨hids, by simpa using hlong⟩
      have hnil := h ids hmem
      simp [hnil] at hlong
    · intro h ids hids
      rw [List.mem_filter, (hashOrder.perm _).mem_iff] at hids
      have hshort := h ids hids.1
      have hlong : 1 < ids.length := by simpa using hids.2
      omega
  rw [hgroups, List.nodup_iff_count_le_one]
  unfold identityGroups
  constructor
  · intro h identity
    by_cases hmem : identity ∈ rows.map EventRow.identity
    · have hle := h _ (List.mem_map_of_mem (List.mem_dedup.mpr hmem))
      rwa [List.length_map, length_identity_filter] at hle
    · rw [List.count_eq_zero_of_not_mem hmem]
      omega
  · intro h ids hids
    obtain ⟨identity, _, rfl⟩ := List.mem_map.mp hids
    rw [List.length_map, length_identity_filter]
    exact h identity

/-! ## Consecutive versions -/

theorem mem_streamVersions {row : EventRow β} {v : Int} :
    v ∈ streamVersions rows row ↔ ∃ r ∈ rows, r.stream = row.stream ∧ r.version = v := by
  simp [streamVersions, and_assoc]

theorem nodup_streamVersions (h : (rows.map EventRow.identity).Nodup) (row : EventRow β) :
    (streamVersions rows row).Nodup := by
  have hpair : rows.Pairwise fun r s => r.identity ≠ s.identity := List.pairwise_map.mp h
  unfold streamVersions
  apply List.pairwise_map.mpr
  apply (hpair.filter _).imp_of_mem
  intro r s hr hs hne heq
  have hr' : r.stream = row.stream := by simpa using (List.mem_filter.mp hr).2
  have hs' : s.stream = row.stream := by simpa using (List.mem_filter.mp hs).2
  apply hne
  unfold EventRow.identity
  rw [hr', hs', heq]

/-- With distinct versions, smallest and largest say whether a stream has
holes. -/
theorem consecutive_iff_min_max {l : List Int} (hnodup : l.Nodup) (hne : l ≠ []) :
    (l.min? = some 1 ∧ l.max? = some (l.length : Int)) ↔ Consecutive l := by
  rw [consecutive_iff]
  constructor
  · rintro ⟨hmin, hmax⟩
    refine ⟨hnodup, ?_⟩
    intro v hv
    exact ⟨(List.min?_eq_some_iff.mp hmin).2 v hv, (List.max?_eq_some_iff.mp hmax).2 v hv⟩
  · rintro ⟨-, hbounds⟩
    obtain ⟨n, hperm⟩ := consecutive_iff.mpr ⟨hnodup, hbounds⟩
    have hlen : l.length = n := by simpa using hperm.length_eq
    have hpos : 0 < l.length := List.length_pos_of_ne_nil hne
    have hmem : ∀ v : Int, 1 ≤ v → v ≤ l.length → v ∈ l := by
      intro v h1 h2
      exact hperm.mem_iff.mpr (mem_range_succ.mpr ⟨h1, by omega⟩)
    constructor
    · apply List.min?_eq_some_iff.mpr
      exact ⟨hmem 1 (by omega) (by omega), fun v hv => (hbounds v hv).1⟩
    · apply List.max?_eq_some_iff.mpr
      exact ⟨hmem _ (by omega) (by omega), fun v hv => (hbounds v hv).2⟩

theorem discontinuousRowIds_eq_nil_iff (h : (rows.map EventRow.identity).Nodup) :
    discontinuousRowIds rows = [] ↔ ∀ row ∈ rows, Consecutive (streamVersions rows row) := by
  unfold discontinuousRowIds rowsWith
  rw [List.map_eq_nil_iff, List.filter_eq_nil_iff]
  apply forall₂_congr
  intro row hrow
  have hne : streamVersions rows row ≠ [] := by
    intro hnil
    have hmem : row.version ∈ streamVersions rows row :=
      mem_streamVersions.mpr ⟨row, hrow, rfl, rfl⟩
    simp [hnil] at hmem
  rw [← consecutive_iff_min_max (nodup_streamVersions h row) hne]
  simp only [decide_eq_true_eq, not_or, ne_eq, not_not]

end

/-! ## Splitting all rows -/

structure Backfillable (registeredTypes : List String) (rows : List (EventRow β)) : Prop where
  /-- Every id begins with exactly one registered type, and leaves an id that
      is not blank. -/
  splits : ∀ row ∈ rows, (splitRow registeredTypes row).isSome
  /-- No two splits fall together. -/
  distinct : ((rows.map (splitTarget registeredTypes)).map EventRow.identity).Nodup
  /-- A split does not fall on a typed row that is rewritten after it. -/
  inOrder : rows.Pairwise fun r s => ¬ Collide (splitTarget registeredTypes r) s
  /-- Every stream of the result counts `1..n`. -/
  consecutive : ∀ row ∈ rows, Consecutive
    (streamVersions (rows.map (splitTarget registeredTypes)) (splitTarget registeredTypes row))

section
variable {registeredTypes : List String} {rows : List (EventRow β)}

theorem rowsWith_eq_nil_iff {verdict : EventRow β → Bool} :
    rowsWith rows verdict = [] ↔ ∀ row ∈ rows, verdict row = false := by
  simp [rowsWith, List.filter_eq_nil_iff]

theorem splitRow_isSome_iff {row : EventRow β} : (splitRow registeredTypes row).isSome ↔
      isNoMatch registeredTypes row = false ∧ isAmbiguous registeredTypes row = false ∧
        isEmptyId registeredTypes row = false := by
  unfold splitRow isNoMatch isAmbiguous isEmptyId
  cases splitAggregateId row.aggregateId registeredTypes with
  | noMatch | ambiguous => simp
  | split _ aggregateId => cases h : isBlank aggregateId <;> simp [h]

theorem preflight_eq_none_iff (hashOrder : AnyOrder (List Int)) :
    preflight hashOrder registeredTypes rows = none ↔
      (∀ row ∈ rows, (splitRow registeredTypes row).isSome) ∧
        ((rows.map (splitTarget registeredTypes)).map EventRow.identity).Nodup := by
  rw [← colliding_eq_nil_iff hashOrder]
  have hsplit : (∀ row ∈ rows, (splitRow registeredTypes row).isSome) ↔
      rowsWith rows (isNoMatch registeredTypes) = [] ∧
        rowsWith rows (isAmbiguous registeredTypes) = [] ∧
        rowsWith rows (isEmptyId registeredTypes) = [] := by
    simp only [rowsWith_eq_nil_iff, splitRow_isSome_iff]
    constructor
    · intro h
      exact ⟨fun r hr => (h r hr).1, fun r hr => (h r hr).2.1, fun r hr => (h r hr).2.2⟩
    · rintro ⟨h1, h2, h3⟩ r hr
      exact ⟨h1 r hr, h2 r hr, h3 r hr⟩
  rw [hsplit]
  unfold preflight
  dsimp only
  split_ifs with h1 h2 h3 h4 <;> simp_all

def updateFor (registeredTypes : List String) (row : EventRow β) : RowUpdate :=
  (splitRow registeredTypes row).getD ⟨row.id, "", ""⟩

@[simp] theorem updateFor_id (row : EventRow β) : (updateFor registeredTypes row).id = row.id := by
  unfold updateFor splitRow
  cases splitAggregateId row.aggregateId registeredTypes with
  | noMatch | ambiguous => rfl
  | split =>
    dsimp only
    split_ifs <;> rfl

theorem filterMap_splitRow (h : ∀ row ∈ rows, (splitRow registeredTypes row).isSome) :
    rows.filterMap (splitRow registeredTypes) = rows.map (updateFor registeredTypes) := by
  induction rows with
  | nil => rfl
  | cons row _ ih =>
    obtain ⟨u, hu⟩ := Option.isSome_iff_exists.mp (h row List.mem_cons_self)
    rw [List.filterMap_cons_some hu, List.map_cons,
      ih fun r hr => h r (List.mem_cons_of_mem _ hr)]
    simp [updateFor, hu]

theorem splitTarget_eq {row : EventRow β} (h : (splitRow registeredTypes row).isSome) :
    splitTarget registeredTypes row = (updateFor registeredTypes row).apply row := by
  obtain ⟨u, hu⟩ := Option.isSome_iff_exists.mp h
  simp [splitTarget, updateFor, hu]

/-- In the middle of the loop: the rows in front are rewritten, the others not
yet. -/
theorem map_override_append {f : EventRow β → RowUpdate} (hf : ∀ row, (f row).id = row.id)
    (done todo : List (EventRow β)) (hordered : (done ++ todo).Pairwise fun r s => r.id < s.id) :
    (done ++ todo).map (override (done.map f)) = done.map (fun r => (f r).apply r) ++ todo := by
  obtain ⟨hdone, -, hcross⟩ := List.pairwise_append.mp hordered
  have hnodup : ((done.map f).map RowUpdate.id).Nodup := by
    rw [List.map_map]
    apply List.pairwise_map.mpr
    apply hdone.imp
    intro r s hlt
    simp only [Function.comp_apply, hf]
    omega
  rw [List.map_append]
  congr 1
  · apply List.map_congr_left
    intro r hr
    exact override_of_mem hnodup (List.mem_map_of_mem hr) (hf r).symm
  · have hid : ∀ r ∈ todo, override (done.map f) r = r := by
      intro r hr
      apply override_of_ne
      intro u hu
      obtain ⟨d, hd, rfl⟩ := List.mem_map.mp hu
      rw [hf]
      have hlt := hcross d hd r hr
      omega
    rw [List.map_congr_left hid]
    exact List.map_id' _

theorem prefix_map {α γ : Type} {f : α → γ} {l : List α} {p : List γ} (h : p <+: l.map f) :
    ∃ done todo, l = done ++ todo ∧ p = done.map f := by
  refine ⟨l.take p.length, l.drop p.length, (List.take_append_drop _ _).symm, ?_⟩
  rw [List.map_take]
  exact List.prefix_iff_eq_take.mp h

theorem pairwise_of_splits {α : Type} {r : α → α → Prop} {l : List α}
    (h : ∀ front back, l = front ++ back → ∀ a ∈ front, ∀ b ∈ back, r a b) : l.Pairwise r := by
  induction l with
  | nil => exact .nil
  | cons x l ih =>
    refine List.pairwise_cons.mpr ⟨?_, ?_⟩
    · intro b hb
      exact h [x] l rfl x (List.mem_singleton.mpr rfl) b hb
    · apply ih
      rintro front back rfl a ha b hb
      exact h (x :: front) back rfl a (List.mem_cons_of_mem _ ha) b hb

/-- The updates go through exactly when no split falls on a row behind it. -/
theorem applySplits_ok_iff (hsplit : ∀ row ∈ table.rows, (splitRow registeredTypes row).isSome)
    (hdistinct : ((table.rows.map (splitTarget registeredTypes)).map EventRow.identity).Nodup) :
    (∃ table', table.applyUpdates (table.rows.filterMap (splitRow registeredTypes)) = .ok table') ↔
      table.rows.Pairwise fun r s => ¬ Collide (splitTarget registeredTypes r) s := by
  rw [filterMap_splitRow hsplit, applyUpdates_ok_iff]
  -- the table after the updates of the front rows
  have hmid : ∀ front back, table.rows = front ++ back →
      table.rows.map (override (front.map (updateFor registeredTypes)))
        = front.map (splitTarget registeredTypes) ++ back := by
    intro front back hrows
    have hordered := table.ordered
    rw [hrows] at hordered ⊢
    rw [map_override_append updateFor_id front back hordered]
    congr 1
    apply List.map_congr_left
    intro r hr
    exact (splitTarget_eq (hsplit r (hrows ▸ List.mem_append_left _ hr))).symm
  constructor
  · intro hall
    apply pairwise_of_splits
    intro front back hrows a ha b hb
    have hprefix : front.map (updateFor registeredTypes)
        <+: table.rows.map (updateFor registeredTypes) := by
      rw [hrows, List.map_append]
      exact List.prefix_append _ _
    have hun := hall _ hprefix
    rw [hmid front back hrows] at hun
    exact (List.pairwise_append.mp hun).2.2 _ (List.mem_map_of_mem ha) b hb
  · intro hpair p hp
    obtain ⟨front, back, hrows, rfl⟩ := prefix_map hp
    rw [hmid front back hrows]
    have hindexed := table.indexed
    unfold Uncollided at hindexed
    rw [hrows] at hindexed hpair hdistinct
    refine List.pairwise_append.mpr ⟨?_, (List.pairwise_append.mp hindexed).2.1, ?_⟩
    · apply uncollided_of_nodup
      rw [List.map_append, List.map_append] at hdistinct
      exact (List.nodup_append.mp hdistinct).1
    · intro a' ha' b hb
      obtain ⟨a, ha, rfl⟩ := List.mem_map.mp ha'
      exact (List.pairwise_append.mp hpair).2.2 a ha b hb

theorem map_override_splits (hsplit : ∀ row ∈ table.rows, (splitRow registeredTypes row).isSome) :
    table.rows.map (override (table.rows.filterMap (splitRow registeredTypes)))
      = table.rows.map (splitTarget registeredTypes) := by
  rw [filterMap_splitRow hsplit]
  have hid : ∀ row : EventRow β, (updateFor registeredTypes row).id = row.id := updateFor_id
  have hall := map_override_append hid table.rows [] (by simpa using table.ordered)
  rw [List.append_nil, List.append_nil] at hall
  rw [hall]
  apply List.map_congr_left
  intro r hr
  exact (splitTarget_eq (hsplit r hr)).symm

end

/-! ## The run -/

section
variable {registeredTypes : List String}

theorem postVerify_none (hd : duplicateRowIds rows = [])
    (hc : discontinuousRowIds rows = []) : postVerify none rows.length rows = .ok none := by
  simp [postVerify, hd, hc]

/-- A run leaves the table and says that it did not commit, or it commits the
split rows of a table that allows it. -/
theorem backfill_cases (fault : Option Statement) (hashOrder : AnyOrder (List Int))
    (registeredTypes : List String) (table : EventsTable β) :
    ((backfillAggregateType fault hashOrder registeredTypes table).1 = table ∧
        ∀ report, (backfillAggregateType fault hashOrder registeredTypes table).2 = .ok report →
          report.outcome ≠ .committed) ∨ (Backfillable registeredTypes table.rows ∧
        (backfillAggregateType fault hashOrder registeredTypes table).1.rows
          = table.rows.map (splitTarget registeredTypes) ∧
        (backfillAggregateType fault hashOrder registeredTypes table).2
          = .ok ⟨table.rows.length, table.rows.length, .committed⟩) := by
  unfold backfillAggregateType
  by_cases hscan : fault = some .scan
  · simp only [if_pos hscan]
    exact .inl (by simp)
  simp only [if_neg hscan]
  cases hpre : preflight hashOrder registeredTypes table.rows with
  | some => exact .inl ⟨rfl, by rintro _ ⟨⟩; simp⟩
  | none =>
    obtain ⟨hsplit, hdistinct⟩ := (preflight_eq_none_iff hashOrder).mp hpre
    by_cases hupdate : fault = some .update
    · simp only [if_pos hupdate]
      exact .inl (by simp)
    simp only [if_neg hupdate]
    cases happly : table.applyUpdates (table.rows.filterMap (splitRow registeredTypes)) with
    | error => exact .inl ⟨rfl, by simp⟩
    | ok written =>
      have hrows := applyUpdates_rows happly
      rw [map_override_splits hsplit] at hrows
      dsimp only
      cases hpost : postVerify fault table.rows.length written.rows with
      | error => exact .inl ⟨rfl, by simp⟩
      | ok verdict =>
        cases verdict with
        | some => exact .inl ⟨rfl, by rintro _ ⟨⟩; simp⟩
        | none =>
          by_cases hend : fault = some .setNotNull ∨ fault = some .commit
          · simp only [if_pos hend]
            exact .inl (by simp)
          · right
            simp only [if_neg hend]
            obtain ⟨hdup, hcons⟩ : duplicateRowIds _ = [] ∧ discontinuousRowIds _ = [] := by
              unfold postVerify at hpost
              split_ifs at hpost with h1 h2 h3 h4 h5 h6
              · cases hpost
              · cases hpost
              · cases hpost
              · exact ⟨not_not.mp h4, not_not.mp h6⟩
            rw [hrows] at hdup hcons
            have hconsecutive := (discontinuousRowIds_eq_nil_iff hdistinct).mp hcons
            refine ⟨⟨hsplit, hdistinct, ?_, ?_⟩, hrows, ?_⟩
            · exact (applySplits_ok_iff hsplit hdistinct).mp ⟨written, happly⟩
            · intro row hrow
              exact hconsecutive _ (List.mem_map_of_mem hrow)
            · rw [filterMap_splitRow hsplit, List.length_map]

/-- A table that allows it is rewritten, if no statement fails. -/
theorem backfill_commits (hashOrder : AnyOrder (List Int))
    (h : Backfillable registeredTypes table.rows) :
    (backfillAggregateType none hashOrder registeredTypes table).2
      = .ok ⟨table.rows.length, table.rows.length, .committed⟩ := by
  have hpre := (preflight_eq_none_iff hashOrder).mpr ⟨h.splits, h.distinct⟩
  obtain ⟨written, happly⟩ := (applySplits_ok_iff h.splits h.distinct).mpr h.inOrder
  have hrows := applyUpdates_rows happly
  rw [map_override_splits h.splits] at hrows
  have hpost : postVerify none table.rows.length written.rows = .ok none := by
    have hlen : table.rows.length = written.rows.length := by rw [hrows, List.length_map]
    rw [hlen]
    apply postVerify_none
    · rw [hrows]
      exact duplicateRowIds_eq_nil_iff.mpr h.distinct
    · rw [hrows]
      apply (discontinuousRowIds_eq_nil_iff h.distinct).mpr
      intro row hrow
      obtain ⟨r, hr, rfl⟩ := List.mem_map.mp hrow
      exact h.consecutive r hr
  rw [filterMap_splitRow h.splits] at happly
  unfold backfillAggregateType
  simp [hpre, happly, hpost, filterMap_splitRow h.splits]

end

end EgoRs.Backfill
