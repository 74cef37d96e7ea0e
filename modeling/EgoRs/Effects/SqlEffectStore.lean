import EgoRs.Effects.EffectStore
import EgoRs.Framework.Table

/-! # Effect Stores in SQL

`StoolapEffectStore` and `PostgresEffectStore` of the effect-store crate keep
the same two tables and run the same statements on them. They differ in the
columns that say who has a row: Stoolap has none, Postgres has an owner, an
epoch and an expiry, and puts conditions on them into the statements. The
tables here are over any such columns `κ`; `ClaimRules` is what a provider
says about them, for one worker at one reading of the clock.

A refused transition reads the row again to say why. The read changes nothing
and always ends in an error, so it is part of the same step. Column
encodings (UUIDs, Base64, hex, state names) are left out.
-/

namespace EgoRs.Effects

open Framework

/-! ## Tables -/

/-- A row of `effect_state`. -/
structure EffectRow (κ : Type) where
  record : EffectRecord
  settledAt : Option Timestamp
  claim : κ

/-- A row of `effect_dedup`. -/
structure DedupRow where
  reservation : ReservationRecord
  settledAt : Option Timestamp

structure EffectTables (κ : Type) where
  states : Table EffectId (EffectRow κ)
  dedup : Table DedupScope DedupRow

/-- `limit as i64` is negative from here on. -/
def negativeFrom : Nat := 2 ^ 63

/-- What a provider says about its claim columns. -/
structure ClaimRules (κ : Type) where
  /-- The columns of a new row. -/
  fresh : κ
  /-- The condition `mark_in_flight` has on them, and what it sets. -/
  mayStart : κ → Bool
  start : κ → κ
  /-- The condition of the other transitions. -/
  mayFinish : κ → Bool
  /-- What `mark_retryable` sets. -/
  retry : κ → κ
  /-- The condition of `claim_due`, and what it sets. -/
  claimable : EffectRow κ → Bool
  stamp : κ → κ
  /-- The condition of `recover_in_flight`. -/
  recoverable : κ → Bool
  /-- The error for a row in an allowed state that is refused all the same. -/
  refused : EffectId → EffectState → EffectState → EffectStoreError
  refused_permanent : ∀ id current target message,
    refused id current target ≠ .temporarilyUnavailable message

/-- The order a SELECT finds rows in, whether NULL sorts first, and the rows it
skips because another transaction has them locked. -/
structure Scan where
  order : IterOrder
  nullsFirst : Bool
  locked : EffectId → Bool

/-- `ORDER BY next_at`. -/
def dueFirst (nullsFirst : Bool) : Option Timestamp → Option Timestamp → Bool
  | some a, some b => decide (a ≤ b)
  | none, none => true
  | none, some _ => nullsFirst
  | some _, none => !nullsFirst

theorem dueFirst_total (nullsFirst : Bool) (a b : Option Timestamp) :
    dueFirst nullsFirst a b = true ∨ dueFirst nullsFirst b a = true := by
  cases a with
  | none => cases b <;> cases nullsFirst <;> simp [dueFirst]
  | some a =>
    cases b with
    | none => cases nullsFirst <;> simp [dueFirst]
    | some b => simpa [dueFirst] using le_total a b

theorem dueFirst_trans {nullsFirst : Bool} {a b c : Option Timestamp}
    (hab : dueFirst nullsFirst a b = true) (hbc : dueFirst nullsFirst b c = true) :
    dueFirst nullsFirst a c = true := by
  cases a <;> cases b <;> cases c <;> simp_all [dueFirst]
  exact le_trans hab hbc

theorem pairwise_dueFirst {α : Type} (nullsFirst : Bool) (nextAt : α → Option Timestamp)
    (l : List α) :
    (l.insertionSort fun a b => dueFirst nullsFirst (nextAt a) (nextAt b) = true).Pairwise
      fun a b => dueFirst nullsFirst (nextAt a) (nextAt b) = true := by
  have : Std.Total fun a b => dueFirst nullsFirst (nextAt a) (nextAt b) = true :=
    ⟨fun a b => dueFirst_total nullsFirst (nextAt a) (nextAt b)⟩
  have : IsTrans α fun a b => dueFirst nullsFirst (nextAt a) (nextAt b) = true :=
    ⟨fun _ _ _ => dueFirst_trans⟩
  exact List.pairwise_insertionSort _ l

/-- `LIMIT`: an element of a sorted list is among the first `n`, or they all come
before it. -/
theorem mem_take_of_sorted {α : Type} {r : α → α → Prop} {l : List α} (hsorted : l.Pairwise r)
    {x : α} (hx : x ∈ l) (n : Nat) :
    x ∈ l.take n ∨ (l.take n).length = n ∧ ∀ y ∈ l.take n, r y x := by
  rw [← List.take_append_drop n l] at hx hsorted
  rcases List.mem_append.mp hx with htake | hdrop
  · exact .inl htake
  · right
    refine ⟨?_, ?_⟩
    · have hlt : n < l.length := by
        by_contra hge
        rw [List.drop_eq_nil_of_le (by omega)] at hdrop
        cases hdrop
      rw [List.length_take]
      omega
    · intro y hy
      exact (List.pairwise_append.mp hsorted).2.2 y hy x hdrop

def dedupRowVanishedError : EffectStoreError :=
  .temporarilyUnavailable "dedup row vanished after ON CONFLICT DO NOTHING — retry reserve"

namespace EffectTables
variable {κ : Type}

def new : EffectTables κ := ⟨∅, ∅⟩

section
variable (rules : ClaimRules κ) (tables : EffectTables κ)

/-- The row of `id` becomes `row`. -/
def put (id : EffectId) (row : EffectRow κ) : EffectTables κ :=
  { tables with states := tables.states.insert id row }

@[simp] theorem lookup_put_self (id : EffectId) (row : EffectRow κ) :
    (tables.put id row).states.lookup id = some row :=
  AList.lookup_insert _

theorem lookup_put_ne {id other : EffectId} (row : EffectRow κ) (h : other ≠ id) :
    (tables.put id row).states.lookup other = tables.states.lookup other :=
  AList.lookup_insert_ne h

/-! ## Statements on effects -/

def accept (effect : AcceptedEffect) : EffectTables κ × Except EffectStoreError Unit :=
  let row : EffectRow κ :=
    { record :=
        { tenant := effect.tenant
          description := effect.description
          state := .pending
          attempt := effect.attempt
          nextAt := none
          terminalReason := none }
      settledAt := none
      claim := rules.fresh }
  match tables.states.insertNew effect.id row with
  | (states, true) => ({ tables with states := states }, .ok ())
  | (_, false) =>
    match tables.states.lookup effect.id with
    | none => (tables, .error (.notFound effect.id))
    | some existing =>
      if existing.record.tenant = effect.tenant ∧
          existing.record.description = effect.description then (tables, .ok ())
      else
        (tables, .error (.conflict
          ("effect " ++ effect.id.uuid ++ " already accepted with different tenant/description")))

def transitionError (id : EffectId) (allowedFrom : List EffectState) (target : EffectState) :
    EffectStoreError :=
  match tables.states.lookup id with
  | none => .notFound id
  | some row =>
    if row.record.state ∈ allowedFrom then rules.refused id row.record.state target
    else .invalidTransition id row.record.state target

/-- An UPDATE of one row from an allowed state to `target`. -/
def transition (id : EffectId) (allowedFrom : List EffectState) (target : EffectState)
    (guard : κ → Bool) (set : EffectRow κ → EffectRow κ) :
    EffectTables κ × Except EffectStoreError Unit :=
  match tables.states.updateRow id
      (fun row => decide (row.record.state ∈ allowedFrom) && guard row.claim)
      (fun row => set { row with record := { row.record with state := target } }) with
  | (states, true) => ({ tables with states := states }, .ok ())
  | (_, false) => (tables, .error (tables.transitionError rules id allowedFrom target))

def markInFlight (id : EffectId) : EffectTables κ × Except EffectStoreError Unit :=
  tables.transition rules id [.pending, .retryableFailed] .inFlight rules.mayStart
    fun row => { row with claim := rules.start row.claim }

/-- `mark_succeeded`; `wall` is the database's own clock. -/
def markSucceeded (wall : Timestamp) (id : EffectId) :
    EffectTables κ × Except EffectStoreError Unit :=
  tables.transition rules id [.inFlight] .succeeded rules.mayFinish
    fun row => { row with settledAt := some wall }

def markRetryable (id : EffectId) (attempt : Nat) (nextAt : Timestamp) :
    EffectTables κ × Except EffectStoreError Unit :=
  tables.transition rules id [.inFlight] .retryableFailed rules.mayFinish fun row =>
    { row with
      record := { row.record with attempt := attempt, nextAt := some nextAt }
      claim := rules.retry row.claim }

def markTerminal (wall : Timestamp) (id : EffectId) (reason : TerminalReason) :
    EffectTables κ × Except EffectStoreError Unit :=
  tables.transition rules id [.inFlight, .retryableFailed] .terminalFailed rules.mayFinish
    fun row =>
    { row with
      record := { row.record with terminalReason := some reason }
      settledAt := some wall }

/-- The rows `claim_due` selects. -/
def selectDue (limit : Nat) (scan : Scan) : List EffectId :=
  let nextAt (id : EffectId) : Option Timestamp :=
    (tables.states.lookup id).bind fun row => row.record.nextAt
  (((scan.order.arrange tables.states.keys).filter fun id =>
      (tables.states.lookup id).any rules.claimable && !scan.locked id).insertionSort
    fun a b => dueFirst scan.nullsFirst (nextAt a) (nextAt b) = true).take limit

def claimDue (now : Timestamp) (limit : Nat) (scan : Scan) : EffectTables κ × List StoredEffect :=
  let due := tables.selectDue rules limit scan
  let states := tables.states.updateWhere (fun id _ => decide (id ∈ due)) fun row =>
    { row with claim := rules.stamp row.claim }
  ({ tables with states := states },
    due.filterMap fun id => (tables.states.lookup id).map fun row => row.record.stored id now)

def recoverInFlight (now : Timestamp) : EffectTables κ :=
  let states := tables.states.updateWhere
    (fun _ row => decide (row.record.state = .inFlight) && rules.recoverable row.claim)
    fun row => { row with record := { row.record with state := .pending, nextAt := some now } }
  { tables with states := states }

/-! ## Statements on reservations -/

/-- The INSERT of `reserve`. -/
def reserveInsert (scope : DedupScope) (effectId : EffectId) (fingerprint : EffectFingerprint) :
    EffectTables κ × Bool :=
  let (dedup, inserted) := tables.dedup.insertNew scope ⟨⟨effectId, fingerprint, false⟩, none⟩
  ({ tables with dedup := dedup }, inserted)

/-- The SELECT of `reserve`, after a conflict. -/
def reserveSelect (scope : DedupScope) (effectId : EffectId) (fingerprint : EffectFingerprint) :
    Except EffectStoreError DedupOutcome :=
  match tables.dedup.lookup scope with
  | none => .error dedupRowVanishedError
  | some ⟨existing, _⟩ =>
    if existing.fingerprint ≠ fingerprint then .ok .conflict
    else if existing.effectId = effectId then
      .ok (if existing.succeeded then .ownedSucceeded else .ownedInProgress)
    else .ok (if existing.succeeded then .otherSucceeded else .otherInProgress)

def commitSuccess (wall : Timestamp) (scope : DedupScope) : EffectTables κ :=
  let dedup := tables.dedup.updateRow scope (fun _ => true) fun row =>
    { row with
      reservation := { row.reservation with succeeded := true }
      settledAt := some wall }
  { tables with dedup := dedup.1 }

def release (scope : DedupScope) : EffectTables κ :=
  { tables with dedup := tables.dedup.erase scope }

end

/-! ## What the statements do -/

section
variable {rules : ClaimRules κ} {tables : EffectTables κ} {id : EffectId}

/-- **A transition goes through or is refused for good.** -/
theorem transition_cases (rules : ClaimRules κ) (tables : EffectTables κ) (id : EffectId)
    (allowedFrom : List EffectState) (target : EffectState) (guard : κ → Bool)
    (set : EffectRow κ → EffectRow κ) :
    (∃ row, tables.states.lookup id = some row ∧ row.record.state ∈ allowedFrom ∧
        guard row.claim = true ∧ tables.transition rules id allowedFrom target guard set =
          (tables.put id (set { row with record := { row.record with state := target } }),
            .ok ())) ∨
      ∃ e, tables.transition rules id allowedFrom target guard set = (tables, .error e) ∧
        (∀ message, e ≠ .temporarilyUnavailable message) ∧
        ∀ row, tables.states.lookup id = some row → row.record.state ∈ allowedFrom →
          guard row.claim = false := by
  by_cases hmatch : ∃ row, tables.states.lookup id = some row ∧ row.record.state ∈ allowedFrom ∧
      guard row.claim = true
  · obtain ⟨row, hat, hstate, hguard⟩ := hmatch
    refine .inl ⟨row, hat, hstate, hguard, ?_⟩
    unfold transition
    rw [Table.updateRow_of_match _ hat (by simp [hstate, hguard])]
    rfl
  · have hno : ∀ row, tables.states.lookup id = some row → row.record.state ∈ allowedFrom →
        guard row.claim = false := by
      intro row hat hstate
      by_contra hguard
      exact hmatch ⟨row, hat, hstate, by simpa using hguard⟩
    refine .inr ⟨tables.transitionError rules id allowedFrom target, ?_, ?_, hno⟩
    · unfold transition
      rw [Table.updateRow_of_not_match]
      intro row hat
      by_cases hstate : row.record.state ∈ allowedFrom
      · simp [hno row hat hstate]
      · simp [hstate]
    · intro message
      unfold transitionError
      split
      · simp
      · split
        · exact rules.refused_permanent _ _ _ message
        · simp

/-- **`accept` writes a new row or nothing.** -/
theorem accept_cases (rules : ClaimRules κ) (tables : EffectTables κ) (effect : AcceptedEffect) :
    (tables.states.lookup effect.id = none ∧
        ∃ row : EffectRow κ, row.record.state = .pending ∧ row.record.nextAt = none ∧
          row.claim = rules.fresh ∧ row.record.tenant = effect.tenant ∧
          row.record.description = effect.description ∧
          tables.accept rules effect = (tables.put effect.id row, .ok ())) ∨
      (tables.accept rules effect).1 = tables ∧ ((tables.accept rules effect).2 = .ok () → ∃ row,
          tables.states.lookup effect.id = some row ∧ row.record.tenant = effect.tenant ∧
            row.record.description = effect.description) := by
  cases hat : tables.states.lookup effect.id with
  | none =>
    refine .inl ⟨rfl, ⟨⟨effect.tenant, effect.description, .pending, effect.attempt, none, none⟩,
      none, rules.fresh⟩, rfl, rfl, rfl, rfl, rfl, ?_⟩
    simp only [accept, Table.insertNew_of_none hat]
    rfl
  | some existing =>
    right
    by_cases hsame : existing.record.tenant = effect.tenant ∧
        existing.record.description = effect.description
    · simp only [accept, Table.insertNew_of_some hat, hat, if_pos hsame]
      exact ⟨trivial, fun _ => ⟨existing, rfl, hsame⟩⟩
    · simp only [accept, Table.insertNew_of_some hat, hat, if_neg hsame]
      exact ⟨trivial, fun h => by cases h⟩

def stateOf (tables : EffectTables κ) (id : EffectId) : Option EffectState :=
  (tables.states.lookup id).map fun row => row.record.state

variable {limit : Nat} {scan : Scan}

/-- What `claim_due` selects are rows it may claim. -/
theorem mem_selectDue (h : id ∈ tables.selectDue rules limit scan) :
    ∃ row, tables.states.lookup id = some row ∧ rules.claimable row = true := by
  have hmem := List.mem_of_mem_take h
  rw [List.mem_insertionSort, List.mem_filter, Bool.and_eq_true] at hmem
  obtain ⟨-, hclaimable, -⟩ := hmem
  cases hat : tables.states.lookup id with
  | none =>
    rw [hat] at hclaimable
    cases hclaimable
  | some row =>
    rw [hat] at hclaimable
    exact ⟨row, rfl, hclaimable⟩

def nextAtOf (tables : EffectTables κ) (id : EffectId) : Option Timestamp :=
  (tables.states.lookup id).bind fun row => row.record.nextAt

/-- **A row that may be claimed is selected**, or as many as may be are, none of them
due later. -/
theorem selectDue_of_claimable (rules : ClaimRules κ) (limit : Nat) (scan : Scan)
    {row : EffectRow κ}
    (hat : tables.states.lookup id = some row) (hclaimable : rules.claimable row = true)
    (hfree : scan.locked id = false) : id ∈ tables.selectDue rules limit scan ∨
      (tables.selectDue rules limit scan).length = limit ∧
        ∀ other ∈ tables.selectDue rules limit scan,
          dueFirst scan.nullsFirst (tables.nextAtOf other) (tables.nextAtOf id) = true := by
  have hmem : id ∈ (scan.order.arrange tables.states.keys).filter fun id =>
      (tables.states.lookup id).any rules.claimable && !scan.locked id := by
    rw [List.mem_filter, (scan.order.perm _).mem_iff]
    refine ⟨?_, by simp [hat, hclaimable, hfree]⟩
    exact AList.lookup_isSome.mp (by rw [hat]; rfl)
  show id ∈ List.take limit _ ∨ (List.take limit _).length = limit ∧ _
  rw [← List.mem_insertionSort
    fun a b => dueFirst scan.nullsFirst (tables.nextAtOf a) (tables.nextAtOf b) = true] at hmem
  exact mem_take_of_sorted (pairwise_dueFirst scan.nullsFirst tables.nextAtOf _) hmem limit

/-- What `claim_due` returns are copies of these rows. -/
theorem mem_claimDue {now : Timestamp} {copy : StoredEffect}
    (h : copy ∈ (tables.claimDue rules now limit scan).2) :
    copy.id ∈ tables.selectDue rules limit scan ∧
      ∃ row, tables.states.lookup copy.id = some row ∧ rules.claimable row = true ∧
        copy = row.record.stored copy.id now := by
  obtain ⟨id, hid, hcopy⟩ := List.mem_filterMap.mp h
  obtain ⟨row, hat, hclaimable⟩ := mem_selectDue hid
  rw [hat] at hcopy
  obtain rfl := Option.some.inj hcopy
  exact ⟨hid, row, hat, hclaimable, rfl⟩

theorem claimDue_ids (rules : ClaimRules κ) (tables : EffectTables κ) (now : Timestamp)
    (limit : Nat) (scan : Scan) : (tables.claimDue rules now limit scan).2.map StoredEffect.id =
      tables.selectDue rules limit scan := by
  have hid : ∀ id ∈ tables.selectDue rules limit scan,
      ((tables.states.lookup id).map fun row => row.record.stored id now).map StoredEffect.id =
        some id := by
    intro id h
    obtain ⟨row, hat, -⟩ := mem_selectDue h
    rw [hat]
    rfl
  show List.map StoredEffect.id (List.filterMap _ _) = _
  rw [List.map_filterMap, List.filterMap_congr hid, List.filterMap_some]

theorem claimDue_of_selected (rules : ClaimRules κ) (now : Timestamp)
    (h : id ∈ tables.selectDue rules limit scan) :
    ∃ copy ∈ (tables.claimDue rules now limit scan).2, copy.id = id := by
  rw [← claimDue_ids rules tables now limit scan] at h
  exact List.mem_map.mp h

theorem lookup_claimDue (rules : ClaimRules κ) (tables : EffectTables κ) (now : Timestamp)
    (limit : Nat) (scan : Scan) (id : EffectId) :
    (tables.claimDue rules now limit scan).1.states.lookup id =
      (tables.states.lookup id).map fun row =>
        if id ∈ tables.selectDue rules limit scan then
          { row with claim := rules.stamp row.claim }
        else row := by
  have h := Table.lookup_updateWhere (t := tables.states) (k := id)
    (fun id _ => decide (id ∈ tables.selectDue rules limit scan))
    fun row => { row with claim := rules.stamp row.claim }
  simpa [claimDue] using h

end

end EffectTables

end EgoRs.Effects
