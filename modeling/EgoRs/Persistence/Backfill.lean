import Mathlib.Data.List.Dedup
import EgoRs.Framework.Consecutive
import EgoRs.Operation.Key

/-! # The Aggregate-Type Backfill

`persistence/src/postgres/aggregate_type_backfill.rs`: the offline step
that splits the joined `aggregate_id` of every stored event into a type
and a bare id, and its reverse.

The `events` table is its rows in the order of their primary key. The two
partial unique indexes together say that no two rows agree in tenant,
type, id and version; a row without a type is in neither. They are checked
after every row that is written, also within one statement, and a
violation ends the transaction. So does any other statement that fails:
which one does is an argument here. There is no concurrent writer.

A split never makes a value longer, and rejoining gives back what fitted
before, so the `VARCHAR` bounds play no part.
-/

namespace EgoRs.Backfill

/-! ## The table -/

/-- A row of `events`. The other columns are the `payload`. -/
structure EventRow (β : Type) where
  id : Int
  tenantId : Option String
  aggregateType : Option String
  aggregateId : String
  version : Int
  payload : β
  deriving DecidableEq

variable {β : Type}

/-- `(tenant_id, aggregate_type, aggregate_id)`, as `IS NOT DISTINCT FROM`
compares it: two absent values are the same. -/
def EventRow.stream (row : EventRow β) : Option String × Option String × String :=
  (row.tenantId, row.aggregateType, row.aggregateId)

def EventRow.identity (row : EventRow β) : (Option String × Option String × String) × Int :=
  (row.stream, row.version)

/-- The unique indexes refuse the two rows together. -/
def Collide (r s : EventRow β) : Prop :=
  r.aggregateType ≠ none ∧ r.identity = s.identity

instance (r s : EventRow β) : Decidable (Collide r s) :=
  inferInstanceAs (Decidable (_ ∧ _))

def Uncollided (rows : List (EventRow β)) : Prop := rows.Pairwise fun r s => ¬ Collide r s

instance (rows : List (EventRow β)) : Decidable (Uncollided rows) :=
  inferInstanceAs (Decidable (List.Pairwise _ _))

/-- The table: rows in the order of their distinct primary keys, indexes
intact. -/
structure EventsTable (β : Type) where
  rows : List (EventRow β)
  ordered : rows.Pairwise fun r s => r.id < s.id
  indexed : Uncollided rows

/-- One row's new type and id. -/
structure RowUpdate where
  id : Int
  aggregateType : String
  aggregateId : String
  deriving DecidableEq

/-- `SET aggregate_type = $1, aggregate_id = $2 WHERE id = $3`. -/
def RowUpdate.apply (update : RowUpdate) (row : EventRow β) : EventRow β :=
  if row.id = update.id then
    { row with
      aggregateType := some update.aggregateType
      aggregateId := update.aggregateId }
  else row

@[simp] theorem RowUpdate.apply_id (update : RowUpdate) (row : EventRow β) :
    (update.apply row).id = row.id := by
  unfold RowUpdate.apply
  split_ifs <;> rfl

theorem ordered_map {rows : List (EventRow β)} {f : EventRow β → EventRow β}
    (hf : ∀ row, (f row).id = row.id) (h : rows.Pairwise fun r s => r.id < s.id) :
    (rows.map f).Pairwise fun r s => r.id < s.id := by
  rw [List.pairwise_map]
  simpa only [hf] using h

inductive BackfillError where
  | uniqueViolation
  | failed
  deriving DecidableEq

namespace EventsTable

/-- One updated row, and the index check that comes with it. -/
def update (table : EventsTable β) (u : RowUpdate) : Except BackfillError (EventsTable β) :=
  if h : Uncollided (table.rows.map u.apply) then
    .ok ⟨table.rows.map u.apply, ordered_map u.apply_id table.ordered, h⟩
  else .error .uniqueViolation

def applyUpdates : EventsTable β → List RowUpdate → Except BackfillError (EventsTable β)
  | table, [] => .ok table
  | table, u :: us =>
    match table.update u with
    | .error e => .error e
    | .ok table' => table'.applyUpdates us

end EventsTable

/-! ## Splitting an identifier -/

inductive SplitOutcome where
  | noMatch
  | ambiguous
  | split (aggregateType aggregateId : String)
  deriving DecidableEq

/-- The type followed by the separator begins `raw`; the source asks for it byte by byte. -/
def matchesType (raw candidateType : String) : Bool :=
  (candidateType.toList ++ ['-']).isPrefixOf raw.toList

def splitAggregateId (raw : String) (registeredTypes : List String) : SplitOutcome :=
  match registeredTypes.filter (matchesType raw) with
  | [] => .noMatch
  | [matchedType] =>
    .split matchedType (String.ofList (raw.toList.drop (matchedType.toList.length + 1)))
  | _ => .ambiguous

/-- `format!("{type}-{id}")`. -/
def joinId (aggregateType aggregateId : String) : String :=
  aggregateType ++ "-" ++ aggregateId

/-- What was split joins to what it was. -/
theorem joinId_of_split {raw aggregateType aggregateId : String} {registeredTypes : List String}
    (h : splitAggregateId raw registeredTypes = .split aggregateType aggregateId) :
    joinId aggregateType aggregateId = raw := by
  unfold splitAggregateId at h
  generalize hm : registeredTypes.filter (matchesType raw) = found at h
  match found, h with
  | [matchedType], h =>
    simp only [SplitOutcome.split.injEq] at h
    obtain ⟨rfl, rfl⟩ := h
    have hmatch : matchesType raw matchedType = true := by
      have hmem : matchedType ∈ registeredTypes.filter (matchesType raw) := by simp [hm]
      exact (List.mem_filter.mp hmem).2
    obtain ⟨rest, hrest⟩ := List.isPrefixOf_iff_prefix.mp hmatch
    apply String.toList_injective
    simp [joinId, ← hrest]

/-! ## Reports -/

inductive AbortReason where
  | noRegisteredTypeMatches
  | matchesMoreThanOneRegisteredType
  | aggregateIdIsEmptyOrWhitespace
  | postSplitIdentityWouldCollide
  | rowCountChanged (scanned found : Nat)
  | postSplitIdentityIsNotUnique
  | streamVersionsAreNotConsecutiveFromOne
  deriving DecidableEq

structure AbortReport where
  reason : AbortReason
  offendingRowIds : List Int
  deriving DecidableEq

inductive BackfillOutcome where
  | committed
  | aborted (report : AbortReport)
  | rolledBack (report : AbortReport)
  deriving DecidableEq

structure BackfillReport where
  rowsScanned : Nat
  rowsRewritten : Nat
  outcome : BackfillOutcome
  deriving DecidableEq

/-! ## The backfill -/

/-- The statements of a run, by what can fail. -/
inductive Statement where
  | scan
  | update
  | count
  | duplicates
  | discontinuities
  | setNotNull
  | commit
  deriving DecidableEq

/-- The order a hash map is iterated in, or a table scanned: any. -/
structure AnyOrder (α : Type) where
  order : List α → List α
  perm : ∀ l, (order l).Perm l

def rowsWith (rows : List (EventRow β)) (verdict : EventRow β → Bool) : List Int :=
  (rows.filter verdict).map EventRow.id

section
variable (registeredTypes : List String) (row : EventRow β)

/-- A split whose bare id is not blank. -/
def splitRow : Option RowUpdate :=
  match splitAggregateId row.aggregateId registeredTypes with
  | .split aggregateType aggregateId =>
    if isBlank aggregateId then none else some ⟨row.id, aggregateType, aggregateId⟩
  | _ => none

def isNoMatch : Bool :=
  splitAggregateId row.aggregateId registeredTypes = .noMatch

def isAmbiguous : Bool :=
  splitAggregateId row.aggregateId registeredTypes = .ambiguous

def isEmptyId : Bool :=
  match splitAggregateId row.aggregateId registeredTypes with
  | .split _ aggregateId => isBlank aggregateId
  | _ => false

/-- The row as the split would store it. -/
def splitTarget : EventRow β :=
  match splitRow registeredTypes row with
  | some u => u.apply row
  | none => row

end

/-- The groups of the `seen` map: the ids under each identity. -/
def identityGroups (rows : List (EventRow β)) : List (List Int) :=
  (rows.map EventRow.identity).dedup.map fun identity =>
    (rows.filter fun row => row.identity = identity).map EventRow.id

/-- Ids of the rows that would share an identity, in the order the map is
iterated. -/
def colliding (hashOrder : AnyOrder (List Int)) (rows : List (EventRow β)) : List Int :=
  ((hashOrder.order (identityGroups rows)).filter fun ids => decide (1 < ids.length)).flatten

/-- The preflight: the first verdict that some row meets. -/
def preflight (hashOrder : AnyOrder (List Int)) (registeredTypes : List String)
    (rows : List (EventRow β)) : Option AbortReport :=
  let noMatch := rowsWith rows (isNoMatch registeredTypes)
  let ambiguous := rowsWith rows (isAmbiguous registeredTypes)
  let emptyId := rowsWith rows (isEmptyId registeredTypes)
  let collisions := colliding hashOrder (rows.map (splitTarget registeredTypes))
  if noMatch ≠ [] then some ⟨.noRegisteredTypeMatches, noMatch⟩
  else if ambiguous ≠ [] then some ⟨.matchesMoreThanOneRegisteredType, ambiguous⟩
  else if emptyId ≠ [] then some ⟨.aggregateIdIsEmptyOrWhitespace, emptyId⟩
  else if collisions ≠ [] then some ⟨.postSplitIdentityWouldCollide, collisions⟩
  else none

/-- Rows whose identity another row has: `HAVING COUNT(*) > 1`. -/
def duplicateRowIds (rows : List (EventRow β)) : List Int :=
  rowsWith rows fun row =>
    decide (1 < (rows.filter fun other => other.identity = row.identity).length)

def streamVersions (rows : List (EventRow β)) (row : EventRow β) : List Int :=
  (rows.filter fun other => other.stream = row.stream).map EventRow.version

/-- Rows of broken streams: `HAVING MIN(version) <> 1 OR MAX(version) <> COUNT(*)`. -/
def discontinuousRowIds (rows : List (EventRow β)) : List Int :=
  rowsWith rows fun row =>
    decide ((streamVersions rows row).min? ≠ some 1 ∨
      (streamVersions rows row).max? ≠ some ((streamVersions rows row).length : Int))

/-- The post-verification of the written rows. -/
def postVerify (fault : Option Statement) (scanned : Nat) (rows : List (EventRow β)) :
    Except BackfillError (Option AbortReport) :=
  if fault = some .count then .error .failed
  else if rows.length ≠ scanned then .ok (some ⟨.rowCountChanged scanned rows.length, []⟩)
  else if fault = some .duplicates then .error .failed
  else if duplicateRowIds rows ≠ [] then
    .ok (some ⟨.postSplitIdentityIsNotUnique, duplicateRowIds rows⟩)
  else if fault = some .discontinuities then .error .failed
  else if discontinuousRowIds rows ≠ [] then
    .ok (some ⟨.streamVersionsAreNotConsecutiveFromOne, discontinuousRowIds rows⟩)
  else .ok none

/-- `backfill_aggregate_type`: the table it leaves and what it answers. -/
def backfillAggregateType (fault : Option Statement) (hashOrder : AnyOrder (List Int))
    (registeredTypes : List String) (table : EventsTable β) :
    EventsTable β × Except BackfillError BackfillReport :=
  if fault = some .scan then (table, .error .failed)
  else
    let scanned := table.rows.length
    match preflight hashOrder registeredTypes table.rows with
    | some report => (table, .ok ⟨scanned, 0, .aborted report⟩)
    | none =>
      let splits := table.rows.filterMap (splitRow registeredTypes)
      if fault = some .update then (table, .error .failed)
      else
        match table.applyUpdates splits with
        | .error e => (table, .error e)
        | .ok written =>
          match postVerify fault scanned written.rows with
          | .error e => (table, .error e)
          | .ok (some report) => (table, .ok ⟨scanned, 0, .rolledBack report⟩)
          | .ok none =>
            if fault = some .setNotNull ∨ fault = some .commit then (table, .error .failed)
            else (written, .ok ⟨scanned, splits.length, .committed⟩)

/-! ## The reverse -/

/-- A typed row, rejoined. -/
def rejoin (row : EventRow β) : Option RowUpdate :=
  match row.aggregateType with
  | some aggregateType => some ⟨row.id, aggregateType, joinId aggregateType row.aggregateId⟩
  | none => none

/-- Dropping the column takes the indexes over it with it. -/
def dropType (row : EventRow β) : EventRow β := { row with aggregateType := none }

theorem uncollided_dropType (rows : List (EventRow β)) : Uncollided (rows.map dropType) := by
  unfold Uncollided
  rw [List.pairwise_map]
  apply List.pairwise_of_forall
  rintro r s ⟨htyped, -⟩
  exact htyped rfl

/-- `revert_aggregate_type_column`. The one `UPDATE` visits the rows in any
order. -/
def revertAggregateTypeColumn (scanOrder : AnyOrder RowUpdate) (table : EventsTable β) :
    Except BackfillError (EventsTable β) :=
  match table.applyUpdates (scanOrder.order (table.rows.filterMap rejoin)) with
  | .error e => .error e
  | .ok joined =>
    .ok ⟨joined.rows.map dropType, ordered_map (fun _ => rfl) joined.ordered,
      uncollided_dropType joined.rows⟩

end EgoRs.Backfill
