import EgoRs.Persistence.BackfillRun

/-! # The Backfill and the History

What the aggregate-type backfill owes the events it rewrites: a run that
does not commit leaves the table, and one that commits keeps every row
under its stream name, keeps the rows of one stream together and the
others apart, changes nothing when it is run again, and can be reverted.

The scan does not ask whether a row has a type already, so a bare id that
itself begins with a registered type is split once more. The revert
rewrites row after row under the unique indexes, so a rejoined row can meet
one that is still waiting. `preservesHistory_iff` says exactly for which
tables neither happens.
-/

namespace EgoRs.Backfill

open Framework

variable {β : Type}

/-! ## The property -/

/-- The name of a row's stream: type and id joined. -/
def streamName (row : EventRow β) : String :=
  match row.aggregateType with
  | some aggregateType => joinId aggregateType row.aggregateId
  | none => row.aggregateId

/-- Two rows of one stream. A row without a type is known by its joined id
only. -/
def SameStream (r s : EventRow β) : Prop :=
  r.tenantId = s.tenantId ∧
    match r.aggregateType, s.aggregateType with
    | some t, some u => t = u ∧ r.aggregateId = s.aggregateId
    | _, _ => streamName r = streamName s

/-- `after` is the row `before` under the same name, with a type. -/
structure RowKept (before after : EventRow β) : Prop where
  id : after.id = before.id
  tenantId : after.tenantId = before.tenantId
  version : after.version = before.version
  payload : after.payload = before.payload
  named : ∃ t, after.aggregateType = some t ∧ joinId t after.aggregateId = streamName before
  typed : before.aggregateType ≠ none → after = before

/-- What a committed run has to leave. -/
structure HistoryKept (registeredTypes : List String) (before after : EventsTable β) : Prop where
  rows : List.Forall₂ RowKept before.rows after.rows
  again : ∀ fault hashOrder,
    (backfillAggregateType fault hashOrder registeredTypes after).1 = after
  streams : ∀ p ∈ before.rows.zip after.rows, ∀ q ∈ before.rows.zip after.rows,
    SameStream p.1 q.1 ↔ SameStream p.2 q.2
  consecutive : ∀ row ∈ after.rows, Consecutive (streamVersions after.rows row)
  reverts : ∀ scanOrder, ∃ reverted, revertAggregateTypeColumn scanOrder after = .ok reverted ∧
    reverted.rows = before.rows.map fun row =>
      { row with aggregateType := none, aggregateId := streamName row }

/-- **The backfill preserves history**: it leaves the table or keeps what it
holds. -/
def PreservesHistory (registeredTypes : List String) (table : EventsTable β) : Prop :=
  ∀ fault hashOrder,
    ((backfillAggregateType fault hashOrder registeredTypes table).1 = table ∧
      ∀ report, (backfillAggregateType fault hashOrder registeredTypes table).2 = .ok report →
        report.outcome ≠ .committed) ∨
    ((∃ report, (backfillAggregateType fault hashOrder registeredTypes table).2 = .ok report ∧
        report.outcome = .committed) ∧
      HistoryKept registeredTypes table
        (backfillAggregateType fault hashOrder registeredTypes table).1)

/-! ## Single rows -/

theorem EventsTable.ext_rows {a b : EventsTable β} (h : a.rows = b.rows) : a = b := by
  cases a
  cases b
  simpa using h

section
variable {registeredTypes : List String} {row : EventRow β}

/-- A row that splits becomes typed and keeps its joined id. -/
theorem splitTarget_spec (h : (splitRow registeredTypes row).isSome) :
    ∃ t bare, splitTarget registeredTypes row
        = { row with aggregateType := some t, aggregateId := bare } ∧
      joinId t bare = row.aggregateId ∧
      splitAggregateId row.aggregateId registeredTypes = .split t bare := by
  cases hs : splitAggregateId row.aggregateId registeredTypes with
  | noMatch | ambiguous => simp [splitRow, hs] at h
  | split t bare =>
    refine ⟨t, bare, ?_, joinId_of_split hs, rfl⟩
    have hb : isBlank bare = false := by
      cases hb : isBlank bare with
      | false => rfl
      | true => simp [splitRow, hs, hb] at h
    simp [splitTarget, splitRow, hs, hb, RowUpdate.apply]

/-- A bare id is shorter than the joined one. -/
theorem joinId_ne (t bare : String) : joinId t bare ≠ bare := by
  intro h
  have hlen := congrArg String.length h
  simp [joinId] at hlen

theorem splitTarget_aggregateId_ne (h : (splitRow registeredTypes row).isSome) :
    (splitTarget registeredTypes row).aggregateId ≠ row.aggregateId := by
  obtain ⟨t, bare, heq, hjoin, -⟩ := splitTarget_spec h
  rw [heq, ← hjoin]
  exact (joinId_ne t bare).symm

theorem joinId_injective {t a b : String} (h : joinId t a = joinId t b) : a = b := by
  have hlist := congrArg String.toList h
  simp only [joinId, String.toList_append, List.append_assoc] at hlist
  have htail := List.append_cancel_left (List.append_cancel_left hlist)
  exact String.toList_injective htail

/-- Splitting keeps rows of one stream together and others apart. -/
theorem sameStream_splitTarget {r s : EventRow β} (hr : r.aggregateType = none)
    (hs : s.aggregateType = none) (hrs : (splitRow registeredTypes r).isSome)
    (hss : (splitRow registeredTypes s).isSome) : SameStream r s ↔
      SameStream (splitTarget registeredTypes r) (splitTarget registeredTypes s) := by
  obtain ⟨t, a, hrt, hra, hrsplit⟩ := splitTarget_spec hrs
  obtain ⟨u, b, hsu, hsb, hssplit⟩ := splitTarget_spec hss
  rw [hrt, hsu]
  simp only [SameStream, hr, hs, streamName]
  apply and_congr_right
  intro _
  constructor
  · intro hid
    rw [hid, hssplit] at hrsplit
    cases hrsplit
    exact ⟨rfl, rfl⟩
  · rintro ⟨rfl, rfl⟩
    rw [← hra, ← hsb]

end

/-! ## The revert -/

/-- Two streams of one tenant, one named as the other with its type in front
once more. -/
def Nested (rows : List (EventRow β)) : Prop :=
  ∃ r ∈ rows, ∃ s ∈ rows, ∃ t, r.aggregateType = some t ∧ s.aggregateType = some t ∧
    s.tenantId = r.tenantId ∧ s.version = r.version ∧ s.aggregateId = joinId t r.aggregateId

def rejoinOf (row : EventRow β) : RowUpdate :=
  ⟨row.id, row.aggregateType.getD "", streamName row⟩

theorem filterMap_rejoin {rows : List (EventRow β)}
    (htyped : ∀ row ∈ rows, row.aggregateType ≠ none) :
    rows.filterMap rejoin = rows.map rejoinOf := by
  induction rows with
  | nil => rfl
  | cons row _ ih =>
    obtain ⟨t, ht⟩ := Option.ne_none_iff_exists'.mp (htyped row List.mem_cons_self)
    have hrow : rejoin row = some (rejoinOf row) := by
      simp [rejoin, rejoinOf, ht, streamName]
    rw [List.filterMap_cons_some hrow, List.map_cons,
      ih fun r hr => htyped r (List.mem_cons_of_mem _ hr)]

/-- The row as it is rejoined, its type still there. -/
def rejoined (row : EventRow β) : EventRow β := { row with aggregateId := streamName row }

theorem rejoinOf_apply {row : EventRow β} (h : row.aggregateType ≠ none) :
    (rejoinOf row).apply row = rejoined row := by
  obtain ⟨t, ht⟩ := Option.ne_none_iff_exists'.mp h
  cases row
  simp_all [rejoinOf, RowUpdate.apply, rejoined, streamName]

section
variable {table : EventsTable β} {scanOrder : AnyOrder RowUpdate}

theorem eq_of_id_eq {r s : EventRow β} (hr : r ∈ table.rows) (hs : s ∈ table.rows)
    (hid : r.id = s.id) : r = s := by
  by_contra hne
  have hpair : table.rows.Pairwise fun a b => a.id ≠ b.id :=
    table.ordered.imp fun h => by omega
  have : Std.Symm fun a b : EventRow β => a.id ≠ b.id := ⟨fun _ _ h => h.symm⟩
  exact hpair.forall hr hs hne hid

/-- While the rows are rejoined, each is as it was or rejoined. -/
theorem override_rejoin_cases {p : List RowUpdate}
    (htyped : ∀ row ∈ table.rows, row.aggregateType ≠ none) (hnodup : (p.map RowUpdate.id).Nodup)
    (hp : ∀ u ∈ p, u ∈ table.rows.map rejoinOf) {row : EventRow β} (hrow : row ∈ table.rows) :
    override p row = row ∨ override p row = rejoined row := by
  by_cases hmem : rejoinOf row ∈ p
  · right
    rw [override_of_mem hnodup hmem rfl, rejoinOf_apply (htyped row hrow)]
  · left
    apply override_of_ne
    intro u hu hid
    obtain ⟨r, hr, rfl⟩ := List.mem_map.mp (hp u hu)
    obtain rfl := eq_of_id_eq hrow hr hid
    exact hmem hu

theorem collide_rejoined_iff {r s : EventRow β} (hr : r.aggregateType ≠ none)
    (hs : s.aggregateType ≠ none) : Collide (rejoined r) (rejoined s) ↔ Collide r s := by
  obtain ⟨t, ht⟩ := Option.ne_none_iff_exists'.mp hr
  obtain ⟨u, hu⟩ := Option.ne_none_iff_exists'.mp hs
  simp only [Collide, rejoined, EventRow.identity, EventRow.stream, streamName, ht, hu,
    Prod.mk.injEq, Option.some.injEq]
  constructor
  · rintro ⟨h, ⟨h1, rfl, h3⟩, h4⟩
    exact ⟨h, ⟨h1, rfl, joinId_injective h3⟩, h4⟩
  · rintro ⟨h, ⟨h1, rfl, h3⟩, h4⟩
    exact ⟨h, ⟨h1, rfl, by rw [h3]⟩, h4⟩

theorem nested_of_collide {rows : List (EventRow β)} {r s : EventRow β} (hr : r ∈ rows)
    (hs : s ∈ rows) (htyped : r.aggregateType ≠ none) (h : Collide (rejoined r) s) :
    Nested rows := by
  obtain ⟨t, ht⟩ := Option.ne_none_iff_exists'.mp htyped
  simp only [Collide, rejoined, EventRow.identity, EventRow.stream, streamName, ht,
    Prod.mk.injEq] at h
  obtain ⟨-, ⟨htenant, htype, hid⟩, hversion⟩ := h
  exact ⟨r, hr, s, hs, t, ht, htype.symm, htenant.symm, hversion.symm, hid.symm⟩

/-- Typed rows none of which is nested in another can be rejoined in any
order. -/
theorem revert_ok (scanOrder : AnyOrder RowUpdate)
    (htyped : ∀ row ∈ table.rows, row.aggregateType ≠ none) (hnested : ¬ Nested table.rows) :
    ∃ reverted, revertAggregateTypeColumn scanOrder table = .ok reverted ∧
      reverted.rows = table.rows.map fun row =>
        { row with aggregateType := none, aggregateId := streamName row } := by
  have hperm : (scanOrder.order (table.rows.filterMap rejoin)).Perm (table.rows.map rejoinOf) := by
    rw [filterMap_rejoin htyped]
    exact scanOrder.perm _
  generalize hus : scanOrder.order (table.rows.filterMap rejoin) = us at hperm
  have hnodup : (us.map RowUpdate.id).Nodup := by
    rw [(hperm.map RowUpdate.id).nodup_iff, List.map_map]
    apply List.pairwise_map.mpr
    apply table.ordered.imp
    intro r s hlt
    show r.id ≠ s.id
    omega
  have happly : ∃ table', table.applyUpdates us = .ok table' := by
    apply applyUpdates_ok_iff.mpr
    intro p hp
    have hp' : ∀ u ∈ p, u ∈ table.rows.map rejoinOf := by
      intro u hu
      exact hperm.mem_iff.mp (hp.subset hu)
    have hpnodup : (p.map RowUpdate.id).Nodup := hnodup.sublist (hp.sublist.map _)
    unfold Uncollided
    apply List.pairwise_map.mpr
    apply table.indexed.imp_of_mem
    intro r s hr hs hfree
    -- either row may be rejoined already
    rcases override_rejoin_cases htyped hpnodup hp' hr with hr' | hr' <;>
      rcases override_rejoin_cases htyped hpnodup hp' hs with hs' | hs' <;> rw [hr', hs']
    · exact hfree
    · exact fun h => hnested (nested_of_collide hs hr (htyped s hs) (collide_symm h))
    · exact fun h => hnested (nested_of_collide hr hs (htyped r hr) h)
    · exact fun h => hfree ((collide_rejoined_iff (htyped r hr) (htyped s hs)).mp h)
  obtain ⟨table', hok⟩ := happly
  unfold revertAggregateTypeColumn
  simp only [hus, hok]
  refine ⟨_, rfl, ?_⟩
  show table'.rows.map dropType = _
  rw [applyUpdates_rows hok, List.map_map]
  apply List.map_congr_left
  intro row hrow
  have hmem : rejoinOf row ∈ us := hperm.mem_iff.mpr (List.mem_map_of_mem hrow)
  rw [Function.comp_apply, override_of_mem hnodup hmem rfl, rejoinOf_apply (htyped row hrow)]
  rfl

def firstOrder (u : RowUpdate) : AnyOrder RowUpdate where
  order l := if u ∈ l then u :: l.erase u else l
  perm := by
    intro l
    by_cases h : u ∈ l
    · rw [if_pos h]
      exact (List.perm_cons_erase h).symm
    · rw [if_neg h]

/-- A nested row that is rejoined first meets the other. -/
theorem revert_fails (htyped : ∀ row ∈ table.rows, row.aggregateType ≠ none)
    (hnested : Nested table.rows) :
    ∃ scanOrder, ∀ reverted, revertAggregateTypeColumn scanOrder table ≠ .ok reverted := by
  obtain ⟨r, hr, s, hs, t, hrt, hst, htenant, hversion, hid⟩ := hnested
  refine ⟨firstOrder (rejoinOf r), ?_⟩
  intro reverted hok
  have hmem : rejoinOf r ∈ table.rows.map rejoinOf := List.mem_map_of_mem hr
  have hfirst : (firstOrder (rejoinOf r)).order (table.rows.filterMap rejoin)
      = rejoinOf r :: (table.rows.map rejoinOf).erase (rejoinOf r) := by
    rw [filterMap_rejoin htyped]
    exact if_pos hmem
  have happly : ∃ table', table.applyUpdates
      (rejoinOf r :: (table.rows.map rejoinOf).erase (rejoinOf r)) = .ok table' := by
    unfold revertAggregateTypeColumn at hok
    rw [hfirst] at hok
    cases h : table.applyUpdates (rejoinOf r :: (table.rows.map rejoinOf).erase (rejoinOf r)) with
    | error => simp [h] at hok
    | ok table' => exact ⟨table', rfl⟩
  have hun := applyUpdates_ok_iff.mp happly [rejoinOf r]
    (List.cons_prefix_cons.mpr ⟨rfl, List.nil_prefix⟩)
  -- after the first update: `r` rejoined, `s` as it was, on one identity
  have hne : s ≠ r := by
    rintro rfl
    exact joinId_ne t s.aggregateId hid.symm
  have hr' : override [rejoinOf r] r = rejoined r := by
    rw [override_of_mem (by simp) (List.mem_singleton.mpr rfl) rfl, rejoinOf_apply (htyped r hr)]
  have hs' : override [rejoinOf r] s = s := by
    apply override_of_ne
    intro u hu
    obtain rfl := List.mem_singleton.mp hu
    intro hsid
    exact hne (eq_of_id_eq hs hr hsid)
  have hcollide : Collide (rejoined r) s := by
    refine ⟨by simp [rejoined, hrt], ?_⟩
    simp [rejoined, EventRow.identity, EventRow.stream, streamName, hrt, hst, htenant, hversion,
      hid]
  have : Std.Symm fun a b : EventRow β => ¬ Collide a b := ⟨fun _ _ h hc => h (collide_symm hc)⟩
  have hpair := hun.forall (List.mem_map_of_mem hr) (List.mem_map_of_mem hs)
  rw [hr', hs'] at hpair
  refine hpair ?_ hcollide
  intro heq
  apply hne
  exact eq_of_id_eq hs hr (by rw [← heq]; rfl)

end

/-! ## The result -/

def splitRows (registeredTypes : List String) (rows : List (EventRow β)) : List (EventRow β) :=
  rows.map (splitTarget registeredTypes)

section
variable {registeredTypes : List String} {table : EventsTable β}

theorem typed_splitRows (h : Backfillable registeredTypes table.rows) :
    ∀ row ∈ splitRows registeredTypes table.rows, row.aggregateType ≠ none := by
  intro row hrow
  obtain ⟨r, hr, rfl⟩ := List.mem_map.mp hrow
  obtain ⟨t, bare, heq, -, -⟩ := splitTarget_spec (h.splits r hr)
  simp [heq]

theorem historyKept_of {after : EventsTable β} (h : Backfillable registeredTypes table.rows)
    (hrows : after.rows = splitRows registeredTypes table.rows)
    (huntyped : ∀ row ∈ table.rows, row.aggregateType = none)
    (hagain : table.rows = [] ∨
      ¬ Backfillable registeredTypes (splitRows registeredTypes table.rows))
    (hnested : ¬ Nested (splitRows registeredTypes table.rows)) :
    HistoryKept registeredTypes table after where
  rows := by
    rw [hrows, splitRows, List.forall₂_map_right_iff, List.forall₂_same]
    intro row hrow
    obtain ⟨t, bare, heq, hjoin, -⟩ := splitTarget_spec (h.splits row hrow)
    rw [heq]
    have huntyped' := huntyped row hrow
    exact ⟨rfl, rfl, rfl, rfl, ⟨t, rfl, by simp [streamName, huntyped', hjoin]⟩,
      fun htyped => absurd huntyped' htyped⟩
  again := by
    intro fault hashOrder
    rcases backfill_cases fault hashOrder registeredTypes after with ⟨hsame, -⟩ | ⟨hb, hrows', -⟩
    · exact hsame
    · rw [hrows] at hb hrows'
      have hnil := hagain.resolve_right (not_not.mpr hb)
      apply EventsTable.ext_rows
      rw [hrows', hrows]
      simp [splitRows, hnil]
  streams := by
    have hzip : table.rows.zip after.rows
        = table.rows.map fun row => (row, splitTarget registeredTypes row) := by
      rw [hrows]
      have h := List.zip_map' (f := id) (g := splitTarget registeredTypes) (l := table.rows)
      rwa [List.map_id] at h
    rw [hzip]
    intro p hp q hq
    obtain ⟨r, hr, rfl⟩ := List.mem_map.mp hp
    obtain ⟨s, hs, rfl⟩ := List.mem_map.mp hq
    exact sameStream_splitTarget (huntyped r hr) (huntyped s hs) (h.splits r hr) (h.splits s hs)
  consecutive := by
    rw [hrows]
    intro row hrow
    obtain ⟨r, hr, rfl⟩ := List.mem_map.mp hrow
    exact h.consecutive r hr
  reverts := by
    intro scanOrder
    have htyped := typed_splitRows h
    rw [← hrows] at htyped hnested
    obtain ⟨reverted, hok, hrev⟩ := revert_ok scanOrder htyped hnested
    refine ⟨reverted, hok, ?_⟩
    rw [hrev, hrows, splitRows, List.map_map]
    apply List.map_congr_left
    intro row hrow
    obtain ⟨t, bare, heq, hjoin, -⟩ := splitTarget_spec (h.splits row hrow)
    simp [heq, streamName, huntyped row hrow, hjoin]

/-- What a committed run keeps it keeps of an untyped table only, once only,
and without nested names. -/
theorem of_historyKept {after : EventsTable β} (h : Backfillable registeredTypes table.rows)
    (hrows : after.rows = splitRows registeredTypes table.rows)
    (hkept : HistoryKept registeredTypes table after) :
    (∀ row ∈ table.rows, row.aggregateType = none) ∧
      (table.rows = [] ∨ ¬ Backfillable registeredTypes (splitRows registeredTypes table.rows)) ∧
      ¬ Nested (splitRows registeredTypes table.rows) := by
  refine ⟨?_, ?_, ?_⟩
  · -- a typed row would have to keep an id that was split
    have hall := hkept.rows
    rw [hrows, splitRows, List.forall₂_map_right_iff, List.forall₂_same] at hall
    intro row hrow
    by_contra htyped
    have hsame := (hall row hrow).typed htyped
    exact splitTarget_aggregateId_ne (h.splits row hrow) (congrArg EventRow.aggregateId hsame)
  · -- a second committed run would split the ids again
    by_contra hagain
    obtain ⟨hne, hb⟩ := not_or.mp hagain
    rw [not_not, ← hrows] at hb
    have hcommit := backfill_commits ⟨id, fun _ => .refl _⟩ hb
    rcases backfill_cases none ⟨id, fun _ => .refl _⟩ registeredTypes after with
      ⟨-, hnot⟩ | ⟨-, hsplit, -⟩
    · exact hnot _ hcommit rfl
    · rw [hkept.again] at hsplit
      have hne' : after.rows ≠ [] := by
        rw [hrows]
        simpa [splitRows] using hne
      obtain ⟨row, hrow⟩ := List.exists_mem_of_ne_nil _ hne'
      have hmap : after.rows.map (splitTarget registeredTypes) = after.rows.map id := by
        rw [List.map_id]
        exact hsplit.symm
      have hfix : splitTarget registeredTypes row = row := List.map_inj_left.mp hmap row hrow
      exact splitTarget_aggregateId_ne (hb.splits row hrow) (congrArg EventRow.aggregateId hfix)
  · intro hnested
    have htyped := typed_splitRows h
    rw [← hrows] at hnested htyped
    obtain ⟨scanOrder, hfail⟩ := revert_fails htyped hnested
    obtain ⟨reverted, hok, -⟩ := hkept.reverts scanOrder
    exact hfail reverted hok

end

/-- **The backfill preserves history** exactly for the tables it refuses and
for those in which no row has a type, whose bare ids it would refuse (if
there are any), and which hold no two streams of a tenant of which one is
named as the other with its type in front. -/
theorem preservesHistory_iff (registeredTypes : List String) (table : EventsTable β) :
    PreservesHistory registeredTypes table ↔
      ¬ Backfillable registeredTypes table.rows ∨
        ((∀ row ∈ table.rows, row.aggregateType = none) ∧
          (table.rows = [] ∨
            ¬ Backfillable registeredTypes (splitRows registeredTypes table.rows)) ∧
          ¬ Nested (splitRows registeredTypes table.rows)) := by
  constructor
  · intro hall
    by_cases hb : Backfillable registeredTypes table.rows
    · right
      have hcommit := backfill_commits ⟨id, fun _ => .refl _⟩ hb
      have hrows : (backfillAggregateType none ⟨id, fun _ => .refl _⟩ registeredTypes table).1.rows
          = splitRows registeredTypes table.rows := by
        rcases backfill_cases none ⟨id, fun _ => .refl _⟩ registeredTypes table with
          ⟨-, hnot⟩ | ⟨-, hrows, -⟩
        · exact absurd rfl (hnot _ hcommit)
        · exact hrows
      rcases hall none ⟨id, fun _ => .refl _⟩ with ⟨-, hnot⟩ | ⟨-, hkept⟩
      · exact absurd rfl (hnot _ hcommit)
      · exact of_historyKept hb hrows hkept
    · exact .inl hb
  · intro hcond fault hashOrder
    rcases backfill_cases fault hashOrder registeredTypes table with hsame | ⟨hb, hrows, hanswer⟩
    · exact .inl hsame
    · obtain ⟨huntyped, hagain, hnested⟩ := hcond.resolve_left (not_not.mpr hb)
      exact .inr ⟨⟨_, hanswer, rfl⟩, historyKept_of hb hrows huntyped hagain hnested⟩

/-! ## Tables that lose history -/

def oneRow (id : Int) (aggregateType : Option String) (aggregateId : String) : EventRow Unit :=
  ⟨id, none, aggregateType, aggregateId, 1, ()⟩

def typedTable : EventsTable Unit :=
  ⟨[oneRow 1 (some "order") "user-7"], by decide, by decide⟩

def twiceTable : EventsTable Unit := ⟨[oneRow 1 none "user-order-5"], by decide, by decide⟩

def nestedTable : EventsTable Unit :=
  ⟨[oneRow 1 none "user-7", oneRow 2 none "user-user-7"], by decide, by decide⟩

def plainOrder {α : Type} : AnyOrder α := ⟨id, fun _ => .refl _⟩

/-- A typed row is moved to another stream; a second run moves a row again; a
committed run cannot be reverted. -/
theorem backfill_loses_history :
    (backfillAggregateType none plainOrder ["user", "order"] typedTable).1.rows
        = [oneRow 1 (some "user") "7"] ∧
      (backfillAggregateType none plainOrder ["user", "order"]
          (backfillAggregateType none plainOrder ["user", "order"] twiceTable).1).1.rows
        = [oneRow 1 (some "order") "5"] ∧
      (revertAggregateTypeColumn plainOrder
          (backfillAggregateType none plainOrder ["user", "order"] nestedTable).1).toOption.isNone ∧
      ¬ PreservesHistory ["user", "order"] typedTable := by
  refine ⟨by decide, by decide, by decide, ?_⟩
  intro hall
  rcases hall none plainOrder with ⟨-, hnot⟩ | ⟨-, hkept⟩
  · exact hnot ⟨1, 1, .committed⟩ (by decide) rfl
  · have hrows := hkept.rows
    have hafter : (backfillAggregateType none plainOrder ["user", "order"] typedTable).1.rows
        = [oneRow 1 (some "user") "7"] := by decide
    rw [hafter] at hrows
    have hkept : RowKept (oneRow 1 (some "order") "user-7") (oneRow 1 (some "user") "7") := by
      cases hrows with
      | cons h => exact h
    exact absurd (hkept.typed (by decide)) (by decide)

end EgoRs.Backfill
