import EgoRs.Operation.DurableStep
import EgoRs.Operation.MemoryStore

/-! # What a Table Stands For

A row stands for a record of the in-memory store, and a table for a map
from operation ids to records. While a purge that has chosen its
candidates is still deleting them, the rows it has yet to delete count
as gone: the purge is taken to have happened when it chose.

This file defines:
- `Row.record` and `contents`: the abstraction
- `MemoryDoes`: what the in-memory store does to abstract contents
- one lemma for each outcome that the two have in common
-/

set_option linter.unusedSectionVars false

namespace EgoRs.Durable

open Framework Memory

/-! ## Columns -/

/-- No tenant id is empty, so Stoolap's empty text means the systemwide scope
and nothing else. -/
theorem tenantColumn_some_ne (b : Backend) (t : TenantId) :
    b.tenantColumn (some t) ≠ b.tenantColumn none := by
  intro h
  cases b with
  | postgres => simp [Backend.tenantColumn] at h
  | stoolap =>
    have hempty : t.value = "" := by simpa [Backend.tenantColumn] using h
    exact absurd hempty t.value_ne_empty

theorem tenantColumn_injective (b : Backend) {tenant tenant' : Option TenantId}
    (h : b.tenantColumn tenant = b.tenantColumn tenant') : tenant = tenant' := by
  cases tenant with
  | none =>
    cases tenant' with
    | none => rfl
    | some t' => exact absurd h.symm (tenantColumn_some_ne b t')
  | some t =>
    cases tenant' with
    | none => exact absurd h (tenantColumn_some_ne b t)
    | some t' =>
      have hval : t.value = t'.value := by
        cases b <;> simpa [Backend.tenantColumn] using h
      rw [TenantId.ext_value hval]

/-- Distinct operations have distinct rows. -/
theorem rowKey_injective (b : Backend) {id id' : OperationId} (h : b.rowKey id = b.rowKey id') :
    id = id' := by
  obtain ⟨tenant, key⟩ := id
  obtain ⟨tenant', key'⟩ := id'
  simp only [Backend.rowKey, RowKey.mk.injEq] at h
  obtain ⟨htenant, hkey⟩ := h
  have hk : key = key' := by
    cases key
    cases key'
    simp_all
  have ht : tenant = tenant' := tenantColumn_injective b htenant
  rw [hk, ht]

theorem decode_encodeResponse [Base64] (b : Backend) (response : StoredServiceResponse) :
    b.decodeResponse (b.encodeResponse response) = some response := by
  cases b with
  | stoolap => simp [Backend.encodeResponse, Backend.decodeResponse, Base64.decode_encode]
  | postgres => rfl

theorem tokenFromStorage_value (b : Backend) {token : FencingToken} (hpos : 0 < token.value) :
    b.tokenFromStorage token.value = .ok token := by
  rcases tokenFromStorage_cases b token.value with ⟨hneg, _⟩ | ⟨hbig, _⟩ | ⟨_, u, hu, heq⟩
  · omega
  · have hrange := token.inRange
    omega
  · have hval : token.value = u.value := by omega
    rw [heq, FencingToken.ext_value hval]

/-! ## Rows as records -/

variable [Base64]

/-- The record a row stands for, if it can be read. -/
def Row.record (b : Backend) (row : Row) : Option Record :=
  match row.state with
  | .inProgress =>
    match b.tokenFromStorage row.fencingToken with
    | .ok token => some ⟨⟨row.fingerprint⟩, .inProgress ⟨row.ownerId⟩ token row.leaseUntil⟩
    | .error _ => none
  | .completed =>
    match row.response.bind b.decodeResponse, row.completedAt with
    | some response, some at' => some ⟨⟨row.fingerprint⟩, .completed response at'⟩
    | _, _ => none

section
variable {b : Backend} {row : Row} {record : Record}

theorem record_inProgress (hrec : row.record b = some record) (hstate : row.state = .inProgress) :
    ∃ token : FencingToken, row.fencingToken = token.value ∧
      b.tokenFromStorage row.fencingToken = .ok token ∧
      record = ⟨⟨row.fingerprint⟩, .inProgress ⟨row.ownerId⟩ token row.leaseUntil⟩ := by
  simp only [Row.record, hstate] at hrec
  rcases tokenFromStorage_cases b row.fencingToken with ⟨_, e, heq⟩ | ⟨_, e, heq⟩ |
    ⟨_, token, htoken, heq⟩
  · simp [heq] at hrec
  · simp [heq] at hrec
  · simp only [heq, Option.some.injEq] at hrec
    exact ⟨token, htoken, heq, hrec.symm⟩

theorem token_pos_of_readable (hread : ∃ record, row.record b = some record)
    (hstate : row.state = .inProgress) : 0 < row.fencingToken := by
  obtain ⟨record, hrec⟩ := hread
  obtain ⟨_, _, htoken, _⟩ := record_inProgress hrec hstate
  by_contra hneg
  simp [Backend.tokenFromStorage, Int.not_lt.mp hneg] at htoken

theorem record_completed (hrec : row.record b = some record) (hstate : row.state = .completed) :
    ∃ response at', row.response.bind b.decodeResponse = some response ∧
      row.completedAt = some at' ∧ record = ⟨⟨row.fingerprint⟩, .completed response at'⟩ := by
  simp only [Row.record, hstate] at hrec
  cases hresp : row.response.bind b.decodeResponse with
  | none => simp [hresp] at hrec
  | some response =>
    cases hat : row.completedAt with
    | none => simp [hresp, hat] at hrec
    | some at' =>
      simp only [hresp, hat, Option.some.injEq] at hrec
      exact ⟨response, at', rfl, rfl, hrec.symm⟩

theorem record_fingerprint (hrec : row.record b = some record) :
    record.fingerprint = ⟨row.fingerprint⟩ := by
  cases hstate : row.state with
  | inProgress =>
    obtain ⟨_, _, _, rfl⟩ := record_inProgress hrec hstate
    rfl
  | completed =>
    obtain ⟨_, _, _, _, rfl⟩ := record_completed hrec hstate
    rfl

/-- The `WHERE` of the mutators and the guard of the in-memory ones agree. -/
theorem heldBy_eq (fence : OwnerFence) (now : Timestamp) (hrec : row.record b = some record) :
    row.heldBy fence fence.fencingToken.value now = record.state.heldBy fence now := by
  cases hstate : row.state with
  | completed =>
    obtain ⟨_, _, _, _, rfl⟩ := record_completed hrec hstate
    simp [Row.heldBy, RecordState.heldBy, hstate]
  | inProgress =>
    obtain ⟨token, htoken, _, rfl⟩ := record_inProgress hrec hstate
    have howner : row.ownerId = fence.ownerId.value ↔ OwnerId.mk row.ownerId = fence.ownerId := by
      cases fence.ownerId
      simp
    have hsame : row.fencingToken = fence.fencingToken.value ↔ token = fence.fencingToken := by
      rw [htoken]
      constructor
      · intro h
        exact FencingToken.ext_value (by omega)
      · intro h
        rw [h]
    simp [Row.heldBy, RecordState.heldBy, hstate, howner, hsame]

theorem purgeable_eq (cutoff : Timestamp) (hrec : row.record b = some record) :
    row.purgeable cutoff = record.state.purgeable cutoff := by
  cases hstate : row.state with
  | inProgress =>
    obtain ⟨_, _, _, rfl⟩ := record_inProgress hrec hstate
    simp [Row.purgeable, RecordState.purgeable, hstate]
  | completed =>
    obtain ⟨_, at', _, hat, rfl⟩ := record_completed hrec hstate
    simp [Row.purgeable, RecordState.purgeable, hstate, hat]

end

theorem record_insertedRow (b : Backend) (req : ReserveRequest) : (insertedRow req).record b =
      some ⟨req.fingerprint, .inProgress req.ownerId .initial req.leaseUntil⟩ := by
  have htoken : b.tokenFromStorage (FencingToken.initial.value : Int) = .ok .initial :=
    tokenFromStorage_value b (by decide)
  simp only [Row.record, insertedRow, htoken]

theorem record_takenBy (b : Backend) (row : Row) (req : ReserveRequest) {next : FencingToken}
    (hstate : row.state = .inProgress) (hpos : 0 < next.value) :
    (row.takenBy req next.value).record b =
      some ⟨⟨row.fingerprint⟩, .inProgress req.ownerId next req.leaseUntil⟩ := by
  simp only [Row.record, Row.takenBy, hstate, tokenFromStorage_value b hpos]

/-! ## Contents -/

/-- What the in-memory store would hold. -/
abbrev Contents : Type := OperationId → Option Record

/-- The rows a call has yet to delete. -/
def Progress.pending : Progress → List RowKey
  | .purgeDelete _ remaining _ => remaining
  | _ => []

/-- The rows that running purges have chosen and not deleted yet. -/
def pendingKeys (calls : List CallState) : List RowKey :=
  calls.flatMap fun c => c.progress.pending

/-- What the table stands for while the rows `pending` are being deleted. -/
def contents (b : Backend) (table : Table) (pending : List RowKey) : Contents := fun id =>
  if b.rowKey id ∈ pending then none else (table.lookup (b.rowKey id)).bind (Row.record b)

/-- What a state of the store stands for. -/
def State.contents (b : Backend) (s : State) : Contents :=
  Durable.contents b s.table (pendingKeys s.calls)

section
variable {b : Backend} {table : Table} {pending : List RowKey} {id : OperationId}

theorem contents_of_absent (h : table.lookup (b.rowKey id) = none) :
    contents b table pending id = none := by
  simp [contents, h]

theorem contents_of_row {row : Row} (hrow : table.lookup (b.rowKey id) = some row)
    (hkey : b.rowKey id ∉ pending) : contents b table pending id = row.record b := by
  simp [contents, hrow, hkey]

/-- A record in the contents comes from a row nobody is deleting. -/
theorem row_of_contents {record : Record} (h : contents b table pending id = some record) :
    b.rowKey id ∉ pending ∧
      ∃ row, table.lookup (b.rowKey id) = some row ∧ row.record b = some record := by
  unfold contents at h
  by_cases hkey : b.rowKey id ∈ pending
  · simp [hkey] at h
  · rw [if_neg hkey] at h
    exact ⟨hkey, Option.bind_eq_some_iff.mp h⟩

theorem lookup_mutated_ne (row : Option Row) {key key' : RowKey} (hne : key' ≠ key) :
    (mutated table key row).lookup key' = table.lookup key' := by
  cases row with
  | none => exact AList.lookup_erase_ne hne
  | some => exact AList.lookup_insert_ne hne

theorem contents_mutated {row : Option Row} (hkey : b.rowKey id ∉ pending) :
    contents b (mutated table (b.rowKey id) row) pending =
      Function.update (contents b table pending) id (row.bind (Row.record b)) := by
  funext id'
  by_cases hid : id' = id
  · subst hid
    cases row <;> simp [contents, mutated, hkey]
  · have hne : b.rowKey id' ≠ b.rowKey id := by
      intro h
      exact hid (rowKey_injective b h)
    simp [contents, hid, lookup_mutated_ne row hne]

theorem contents_insert {row : Row} (hkey : b.rowKey id ∉ pending) :
    contents b (table.insert (b.rowKey id) row) pending =
      Function.update (contents b table pending) id (row.record b) := by
  show contents b (mutated table _ (some row)) pending = _
  exact contents_mutated hkey

def without (b : Backend) (a : Contents) (keys : List RowKey) : Contents := fun id =>
  if b.rowKey id ∈ keys then none else a id

/-- Choosing rows for deletion removes them from the contents. -/
theorem contents_pending {pending' keys : List RowKey}
    (h : ∀ key, key ∈ pending' ↔ key ∈ keys ∨ key ∈ pending) :
    contents b table pending' = without b (contents b table pending) keys := by
  funext id'
  by_cases hkeys : b.rowKey id' ∈ keys <;> simp [contents, without, h, hkeys]

theorem lookup_eraseAll (keys : List RowKey) (table : Table) (key : RowKey) :
    (eraseAll table keys).lookup key = if key ∈ keys then none else table.lookup key :=
  lookup_foldl_erase keys table key

theorem contents_eraseAll (keys : List RowKey) :
    contents b (eraseAll table keys) pending = without b (contents b table pending) keys := by
  funext id'
  by_cases hkeys : b.rowKey id' ∈ keys <;> simp [contents, without, lookup_eraseAll, hkeys]

/-- Deleting a row that already counts as gone changes nothing. -/
theorem contents_delete {key : RowKey} {pending' : List RowKey}
    (h : ∀ k, k ∈ pending ↔ k = key ∨ k ∈ pending') :
    contents b (table.erase key) pending' = contents b table pending := by
  funext id'
  by_cases hid : b.rowKey id' = key
  · subst hid
    simp [contents, h]
  · simp [contents, h, hid, AList.lookup_erase_ne hid]

end

/-! ## The in-memory store on contents -/

/-- The map holds exactly these records. -/
def Represents (records : Records) (a : Contents) : Prop :=
  ∀ id, records.lookup id = a id

/-- Executing `call` when the clock shows `now`, the in-memory store gives
`reply` and takes the contents from `a` to `a'`, for some iteration order
of its map. -/
def MemoryDoes (call : Call) (reply : Reply) (now : Timestamp) (a a' : Contents) : Prop :=
  ∀ records, Represents records a → ∃ order,
    (execute records ⟨now, call, order⟩).2 = reply ∧
      Represents (execute records ⟨now, call, order⟩).1 a'

/-- Few replies depend on the iteration order. -/
theorem memoryDoes_stored {call : Call} {reply : Reply} {now : Timestamp} {a a' : Contents}
    (h : ∀ records, Represents records a → ∃ records',
      execute records ⟨now, call, .stored⟩ = (records', reply) ∧ Represents records' a') :
    MemoryDoes call reply now a a' := by
  intro records hrep
  obtain ⟨records', hexec, hrep'⟩ := h records hrep
  refine ⟨.stored, ?_, ?_⟩
  · rw [hexec]
  · rw [hexec]
    exact hrep'

variable {records : Records}

theorem Represents.insert {a : Contents} (h : Represents records a)
    (id : OperationId) (record : Record) :
    Represents (records.insert id record) (Function.update a id (some record)) := by
  intro id'
  by_cases hid : id' = id
  · subst hid
    simp
  · rw [AList.lookup_insert_ne hid, Function.update_of_ne hid]
    exact h id'

theorem Represents.erase {a : Contents} (h : Represents records a)
    (id : OperationId) : Represents (records.erase id) (Function.update a id none) := by
  intro id'
  by_cases hid : id' = id
  · subst hid
    simp
  · rw [AList.lookup_erase_ne hid, Function.update_of_ne hid]
    exact h id'

section
variable {a : Contents} {now : Timestamp} {req : ReserveRequest}

/-- A readable row in progress is reported, never an error. -/
theorem not_disappeared_inProgressReply {b : Backend} {row : Row}
    (hread : ∃ record, row.record b = some record) (hstate : row.state = .inProgress) :
    ¬ Disappeared (inProgressReply b req row) := by
  obtain ⟨record, hread⟩ := hread
  obtain ⟨token, _, htoken, _⟩ := record_inProgress hread hstate
  unfold inProgressReply
  by_cases howner : row.ownerId = req.ownerId.value
  · simp [howner, htoken]
  · simp [howner]

/-- What a row in progress under a live lease is reported as is what the
in-memory store reports. -/
theorem memory_inProgress {b : Backend} {row : Row} (hrec : a req.operationId = row.record b)
    (hread : ∃ record, row.record b = some record) (hstate : row.state = .inProgress)
    (hfp : row.fingerprint = req.fingerprint.value) (hlive : now < row.leaseUntil) :
    MemoryDoes (.reserve req) (inProgressReply b req row) now a a := by
  obtain ⟨record, hread⟩ := hread
  obtain ⟨token, _, htoken, rfl⟩ := record_inProgress hread hstate
  have hfp' : (⟨row.fingerprint⟩ : OperationFingerprint) = req.fingerprint := by rw [hfp]
  have hexp : ¬ row.leaseUntil ≤ now := Int.not_le.mpr hlive
  refine memoryDoes_stored fun records hrep => ⟨records, ?_, hrep⟩
  have hrec' := ((hrep req.operationId).trans hrec).trans hread
  rw [hfp'] at hrec'
  by_cases howner : row.ownerId = req.ownerId.value
  · simp [execute, reserve, hrec', hexp, inProgressReply, howner, htoken]
  · have howner' : (⟨row.ownerId⟩ : OwnerId) ≠ req.ownerId := by
      intro h
      exact howner (by rw [← h])
    simp [execute, reserve, hrec', hexp, howner', inProgressReply, howner]

end

section
variable {a : Contents} {now : Timestamp} {call : Call} {fence : OwnerFence} {record : Record}

/-- The record the three mutators leave behind. -/
def afterMutation (call : Call) (fence : OwnerFence) (record : Record) (now : Timestamp) :
    Option Record :=
  match call with
  | .renew _ until' => some { record with
      state := .inProgress fence.ownerId fence.fencingToken until' }
  | .complete _ response => some ⟨record.fingerprint, .completed response now⟩
  | _ => none

/-- What a mutator leaves of a row it matches stands for what it leaves of the
record. -/
theorem record_set {b : Backend} {row : Row} (hrec : row.record b = some record)
    (hheld : record.state.heldBy fence now = true) :
    (row.set b call now).bind (Row.record b) = afterMutation call fence record now := by
  have hstate : row.state = .inProgress := by
    cases hstate : row.state with
    | inProgress => rfl
    | completed =>
      obtain ⟨_, _, _, _, rfl⟩ := record_completed hrec hstate
      simp [RecordState.heldBy] at hheld
  obtain ⟨token, _, htoken, rfl⟩ := record_inProgress hrec hstate
  simp only [RecordState.heldBy, Bool.and_eq_true, decide_eq_true_eq] at hheld
  obtain ⟨⟨howner, hsame⟩, _⟩ := hheld
  cases call with
  | renew =>
    simp [Row.set, Row.record, hstate, htoken, afterMutation, howner, hsame]
  | complete =>
    simp [Row.set, Row.record, decode_encodeResponse, afterMutation]
  | reserve | abandon | purgeCompletedBefore => rfl

/-- A mutator is `mutate` with what it makes of the record. -/
theorem execute_mutator (records : Records) (now : Timestamp) (order : IterOrder)
    (hcall : call.fence? = some fence) :
    ∃ act, execute records ⟨now, call, order⟩ = (mutate records now fence act).map id replyOf ∧
      ∀ record a, Represents records a → Represents (act record)
        (Function.update a fence.operationId (afterMutation call fence record now)) := by
  cases call with
  | reserve | purgeCompletedBefore => cases hcall
  | renew f | complete f =>
    obtain rfl : f = fence := by simpa [Call.fence?] using hcall
    exact ⟨_, rfl, fun _ _ hrep => hrep.insert _ _⟩
  | abandon f =>
    obtain rfl : f = fence := by simpa [Call.fence?] using hcall
    exact ⟨_, rfl, fun _ _ hrep => hrep.erase _⟩

theorem memory_mutated (hcall : call.fence? = some fence)
    (hrec : a fence.operationId = some record) (hheld : record.state.heldBy fence now = true) :
    MemoryDoes call .done now a
      (Function.update a fence.operationId (afterMutation call fence record now)) := by
  refine memoryDoes_stored fun records hrep => ?_
  obtain ⟨act, hexec, hact⟩ := execute_mutator records now .stored hcall
  have hrec' := (hrep fence.operationId).trans hrec
  have hdone : mutate records now fence act = (act record, .ok ()) := by
    simp [mutate, hrec', hheld]
  rw [hdone] at hexec
  exact ⟨_, hexec, hact record a hrep⟩

theorem memory_stale (hcall : call.fence? = some fence)
    (hnot : ∀ record, a fence.operationId = some record → record.state.heldBy fence now = false) :
    MemoryDoes call (.failed .staleOwner) now a a := by
  refine memoryDoes_stored fun records hrep => ?_
  obtain ⟨act, hexec, -⟩ := execute_mutator records now .stored hcall
  have hstale : mutate records now fence act = (records, .error .staleOwner) := by
    unfold mutate
    cases hrec : records.lookup fence.operationId with
    | none => rfl
    | some record => simp [hnot record ((hrep fence.operationId).symm.trans hrec)]
  rw [hstale] at hexec
  exact ⟨_, hexec, hrep⟩

end

/-! ## Purges

The in-memory store may purge exactly the rows a durable one has chosen:
its map can be iterated so that they come first. -/

section
variable {b : Backend} {table : Table} {pending : List RowKey} {cutoff : Timestamp}
  {batch : Nat} {scan : ScanOrder}

theorem purgeSelection_nodup (table : Table) (scan : ScanOrder) (cutoff : Timestamp)
    (batch : Nat) : (purgeSelection table scan cutoff batch).Nodup := by
  have hkeys : (scan.arrange table.keys).Nodup :=
    (scan.perm table.keys).nodup_iff.mpr table.keys_nodup
  exact (hkeys.filter _).sublist (List.take_sublist _ _)

theorem mem_purgeSelection {key : RowKey} (h : key ∈ purgeSelection table scan cutoff batch) :
    eligible table cutoff key = true :=
  (List.mem_filter.mp (List.mem_of_mem_take h)).2

theorem eligible_row {key : RowKey} (h : eligible table cutoff key = true) :
    ∃ row, table.lookup key = some row ∧ row.purgeable cutoff = true := by
  unfold eligible at h
  cases hrow : table.lookup key with
  | none => simp [hrow] at h
  | some row => exact ⟨row, rfl, by simpa [hrow] using h⟩

theorem purgeSelection_full (table : Table) (scan : ScanOrder) (cutoff : Timestamp) (batch : Nat) :
    (purgeSelection table scan cutoff batch).length = batch ∨
    (purgeSelection table scan cutoff batch).length ≤ batch ∧
      ∀ key, eligible table cutoff key = true → key ∈ purgeSelection table scan cutoff batch := by
  unfold purgeSelection
  rcases Nat.lt_or_ge batch ((scan.arrange table.keys).filter (eligible table cutoff)).length with
    hmore | hall
  · left
    exact List.length_take_of_le (Nat.le_of_lt hmore)
  · right
    refine ⟨List.length_take_le _ _, ?_⟩
    intro key helig
    rw [List.take_of_length_le hall, List.mem_filter]
    obtain ⟨row, hrow, _⟩ := eligible_row helig
    refine ⟨(scan.perm table.keys).mem_iff.mpr ?_, helig⟩
    exact AList.mem_keys.mp (AList.lookup_isSome.mp (by rw [hrow]; rfl))

/-- Rows have readable records under keys of operations. -/
structure Readable (b : Backend) (table : Table) : Prop where
  named : ∀ key row, table.lookup key = some row → ∃ id, b.rowKey id = key
  record : ∀ key row, table.lookup key = some row → ∃ record, row.record b = some record

/-- A row in the contents is eligible if its record is. -/
theorem eligible_eq {id : OperationId} (hr : Readable b table)
    (hrep : Represents records (contents b table pending)) (hkey : b.rowKey id ∉ pending) :
    Memory.eligible records cutoff id = eligible table cutoff (b.rowKey id) := by
  unfold Memory.eligible eligible
  rw [hrep id]
  cases hrow : table.lookup (b.rowKey id) with
  | none => rw [contents_of_absent hrow]
  | some row =>
    obtain ⟨record, hrec⟩ := hr.record _ row hrow
    rw [contents_of_row hrow hkey, hrec]
    exact (purgeable_eq cutoff hrec).symm

theorem exists_ids (hr : Readable b table) {keys : List RowKey}
    (h : ∀ key ∈ keys, eligible table cutoff key = true) :
    ∃ ids : List OperationId, ids.map b.rowKey = keys := by
  induction keys with
  | nil => exact ⟨[], rfl⟩
  | cons key _ ih =>
    obtain ⟨ids, hids⟩ := ih (fun k hk => h k (List.mem_cons_of_mem _ hk))
    obtain ⟨row, hrow, _⟩ := eligible_row (h key List.mem_cons_self)
    obtain ⟨id, hid⟩ := hr.named key row hrow
    exact ⟨id :: ids, by simp [hids, hid]⟩

/-- **A purge's selection is a purge of the in-memory store**, if no other
purge is deleting one of the selected rows. -/
theorem memory_purged (hr : Readable b table) {now : Timestamp}
    (hfree : ∀ key ∈ purgeSelection table scan cutoff batch, key ∉ pending) :
    MemoryDoes (.purgeCompletedBefore cutoff batch)
      (.purged (purgeSelection table scan cutoff batch).length) now (contents b table pending)
      (without b (contents b table pending) (purgeSelection table scan cutoff batch)) := by
  have hsel : ∀ key ∈ purgeSelection table scan cutoff batch,
      eligible table cutoff key = true := fun _ => mem_purgeSelection
  obtain ⟨ids, hids⟩ := exists_ids hr hsel
  have hmem : ∀ id, b.rowKey id ∈ purgeSelection table scan cutoff batch ↔ id ∈ ids := by
    intro id
    rw [← hids, List.mem_map]
    constructor
    · rintro ⟨id', hid', heq⟩
      rwa [← rowKey_injective b heq]
    · intro hid
      exact ⟨id, hid, rfl⟩
  have hlen : ids.length = (purgeSelection table scan cutoff batch).length := by
    rw [← hids, List.length_map]
  intro records hrep
  have hchosen : Chosen records cutoff batch ids := by
    constructor
    · have hnodup : (ids.map b.rowKey).Nodup := by
        rw [hids]
        exact purgeSelection_nodup table scan cutoff batch
      exact hnodup.of_map _
    · -- nobody else is deleting a selected row, so its record is in the contents
      intro id hid
      have hkey := (hmem id).mpr hid
      rw [eligible_eq hr hrep (hfree _ hkey)]
      exact hsel _ hkey
    · rw [hlen]
      rcases purgeSelection_full table scan cutoff batch with hfull | ⟨hle, hall⟩
      · exact .inl hfull
      · -- the batch had room for every eligible row, those of the contents among them
        refine .inr ⟨hle, ?_⟩
        intro id helig
        obtain ⟨_, _, _, hrec, _⟩ := (Memory.eligible_iff records cutoff id).mp helig
        have hkey := (row_of_contents ((hrep id).symm.trans hrec)).1
        rw [eligible_eq hr hrep hkey] at helig
        exact (hmem id).mp (hall _ helig)
  have hperm := purgeBatch_front hchosen
  refine ⟨.front ids, ?_, ?_⟩
  · show Reply.purged (purgeBatch records (.front ids) cutoff batch).length = _
    rw [hperm.length_eq, hlen]
  · intro id
    show (removeAll records (purgeBatch records (.front ids) cutoff batch)).lookup id = _
    rw [lookup_removeAll, hrep id]
    simp only [hperm.mem_iff, without, hmem]

end

end EgoRs.Durable
