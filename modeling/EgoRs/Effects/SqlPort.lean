import EgoRs.Effects.Port
import EgoRs.Effects.SqlEffectStore

/-! # Calls on an Effect Store in SQL

The calls of the two ports on tables with claim columns, one call after
another, and when they do what the in-memory store does: whenever the claim
columns let through what the state of the row allows.
-/

namespace EgoRs.Effects

open Framework

variable {κ : Type}

/-! ## The tables behind the ports -/

/-- The clock reading that goes into the statements of a call: the caller's for
`claim_due` and `recover_in_flight`, the store's own for the others. -/
def PortInput.reading (input : PortInput) : Timestamp :=
  match input.call with
  | .claimDue now _ => now
  | .recoverInFlight now => now
  | _ => input.env.clock

namespace EffectTables

/-- `reserve`: the INSERT and, after a conflict, the SELECT. -/
def reserve (tables : EffectTables κ) (scope : DedupScope) (effectId : EffectId)
    (fingerprint : EffectFingerprint) : EffectTables κ × Except EffectStoreError DedupOutcome :=
  match tables.reserveInsert scope effectId fingerprint with
  | (tables', true) => (tables', .ok .fresh)
  | (tables', false) => (tables', tables'.reserveSelect scope effectId fingerprint)

/-- The rows `recover_in_flight` affects. -/
def recoveredRows (rules : ClaimRules κ) (tables : EffectTables κ) : Nat :=
  tables.states.entries.countP fun e =>
    decide (e.2.record.state = .inFlight) && rules.recoverable e.2.claim

/-- A call on the tables. Nobody else is there to lock a row. -/
def serve (rules : Timestamp → ClaimRules κ)
    (negativeLimit : Environment → Except EffectStoreError (List StoredEffect))
    (tables : EffectTables κ) (input : PortInput) : EffectTables κ × PortAnswer :=
  let rules := rules input.reading
  match input.call with
  | .accept effect => answering .done (tables.accept rules effect)
  | .markInFlight id => answering .done (tables.markInFlight rules id)
  | .markSucceeded id => answering .done (tables.markSucceeded rules input.env.wall id)
  | .markRetryable id attempt nextAt =>
    answering .done (tables.markRetryable rules id attempt nextAt)
  | .markTerminal id reason =>
    answering .done (tables.markTerminal rules input.env.wall id reason)
  | .claimDue now limit =>
    if limit < negativeFrom then
      let scan : Scan := ⟨input.env.order, input.env.nullsFirst, fun _ => false⟩
      answering (fun copies => .claimed (.ok copies)) (tables.claimDue rules now limit scan)
    else (tables, .claimed (negativeLimit input.env))
  | .recoverInFlight now =>
    (tables.recoverInFlight rules now, .recovered (.ok (tables.recoveredRows rules)))
  | .reserve scope effectId fingerprint =>
    answering .reserved (tables.reserve scope effectId fingerprint)
  | .commitSuccess scope => (tables.commitSuccess input.env.wall scope, .done (.ok ()))
  | .release scope => (tables.release scope, .done (.ok ()))

end EffectTables

/-- Tables with these rules behind the ports. -/
def sqlPort (rules : Timestamp → ClaimRules κ)
    (negativeLimit : Environment → Except EffectStoreError (List StoredEffect)) :
    Machine (EffectTables κ) PortInput PortAnswer where
  init := .new
  step := EffectTables.serve rules negativeLimit

abbrev SqlEvent (κ : Type) : Type := Transition (EffectTables κ) PortInput PortAnswer

/-! ## The same contents -/

/-- The effects and the reservations are the same. -/
structure SameContents (store : InMemoryEffectStore) (tables : EffectTables κ) : Prop where
  states : ∀ id, (tables.states.lookup id).map EffectRow.record = store.states.lookup id
  dedup : ∀ scope, (tables.dedup.lookup scope).map DedupRow.reservation = store.dedup.lookup scope

theorem sameContents_new : SameContents .new (EffectTables.new : EffectTables κ) :=
  ⟨fun _ => rfl, fun _ => rfl⟩

section
variable {store : InMemoryEffectStore} {tables : EffectTables κ} (h : SameContents store tables)
include h

theorem SameContents.row {id : EffectId} {record : EffectRecord}
    (hat : store.states.lookup id = some record) :
    ∃ row, tables.states.lookup id = some row ∧ row.record = record := by
  have hrow := h.states id
  rw [hat] at hrow
  exact Option.map_eq_some_iff.mp hrow

theorem SameContents.record {id : EffectId} {row : EffectRow κ}
    (hat : tables.states.lookup id = some row) : store.states.lookup id = some row.record := by
  rw [← h.states id, hat]
  rfl

theorem SameContents.none_iff {id : EffectId} :
    tables.states.lookup id = none ↔ store.states.lookup id = none := by
  rw [← h.states id, Option.map_eq_none_iff]

/-- The record of one effect is replaced on both sides. -/
theorem SameContents.put (id : EffectId) {record : EffectRecord} {row : EffectRow κ}
    (hrow : row.record = record) : SameContents (store.put id record) (tables.put id row) where
  states other := by
    by_cases ho : other = id
    · subst ho
      rw [tables.lookup_put_self, store.lookup_put_self, Option.map_some, hrow]
    · rw [tables.lookup_put_ne row ho, store.lookup_put_ne record ho]
      exact h.states other
  dedup := h.dedup

theorem SameContents.putReservation (scope : DedupScope) (row : DedupRow) :
    SameContents (store.putReservation scope row.reservation)
      { tables with dedup := tables.dedup.insert scope row } where
  states := h.states
  dedup other := by
    by_cases ho : other = scope
    · subst ho
      simp [InMemoryEffectStore.putReservation]
    · have hother := h.dedup other
      simpa [InMemoryEffectStore.putReservation, AList.lookup_insert_ne ho] using hother

theorem SameContents.keys : tables.states.keys.Perm store.states.keys := by
  rw [List.perm_ext_iff_of_nodup tables.states.keys_nodup store.states.keys_nodup]
  intro id
  show id ∈ tables.states ↔ id ∈ store.states
  rw [← AList.lookup_isSome, ← AList.lookup_isSome, ← h.states id, Option.isSome_map]

end

/-- One call on both sides: the same contents after it, and the same answer. -/
def Agree {α : Type} (m : InMemoryEffectStore × α) (q : EffectTables κ × α) : Prop :=
  SameContents m.1 q.1 ∧ q.2 = m.2

theorem Agree.answering {α : Type} {m : InMemoryEffectStore × α} {q : EffectTables κ × α}
    (h : Agree m q) (answer : α → PortAnswer) :
    Agree (answering answer m) (Effects.answering answer q) :=
  ⟨h.1, congrArg answer h.2⟩

/-! ## Calls that the claim columns do not stop -/

/-- The claim columns let through what the state of the row allows. -/
def Unhindered (rules : ClaimRules κ) (tables : EffectTables κ) : PortCall → Prop
  | .markInFlight id => ∀ row, tables.states.lookup id = some row →
      row.record.state ∈ [.pending, .retryableFailed] → rules.mayStart row.claim = true
  | .markSucceeded id => ∀ row, tables.states.lookup id = some row →
      row.record.state ∈ [.inFlight] → rules.mayFinish row.claim = true
  | .markRetryable id _ _ => ∀ row, tables.states.lookup id = some row →
      row.record.state ∈ [.inFlight] → rules.mayFinish row.claim = true
  | .markTerminal id _ => ∀ row, tables.states.lookup id = some row →
      row.record.state ∈ [.inFlight, .retryableFailed] → rules.mayFinish row.claim = true
  | .claimDue now _ => ∀ id row, tables.states.lookup id = some row →
      rules.claimable row = row.record.due now
  | .recoverInFlight _ => ∀ id row, tables.states.lookup id = some row →
      row.record.state = .inFlight → rules.recoverable row.claim = true
  | _ => True

section
variable {store : InMemoryEffectStore} {tables : EffectTables κ} {rules : ClaimRules κ}

/-- A transition that the claim columns let through whenever the state allows
it. -/
theorem transition_agrees (h : SameContents store tables) (id : EffectId)
    (allowedFrom : List EffectState) (target : EffectState) {guard : κ → Bool}
    {set : EffectRow κ → EffectRow κ} {update : EffectRecord → EffectRecord}
    (hset : ∀ row, (set row).record = update row.record)
    (hguard : ∀ row, tables.states.lookup id = some row → row.record.state ∈ allowedFrom →
      guard row.claim = true) : Agree (store.mark id allowedFrom target update)
      (tables.transition rules id allowedFrom target guard set) := by
  rcases mark_cases store id allowedFrom target update with
    ⟨record, hat, hstate, heq⟩ | ⟨-, -, hno⟩
  · obtain ⟨row, hrow, rfl⟩ := h.row hat
    rcases EffectTables.transition_cases rules tables id allowedFrom target guard set with
      ⟨row', hat', _, _, hsql⟩ | ⟨_, _, _, hrefused⟩
    · rw [hrow] at hat'
      cases hat'
      rw [heq, hsql]
      exact ⟨h.put id (hset _), rfl⟩
    · have hopen := hguard row hrow hstate
      rw [hrefused row hrow hstate] at hopen
      cases hopen
  · -- both say why, from the same state
    have hmiss : ∀ row, tables.states.lookup id = some row →
        (decide (row.record.state ∈ allowedFrom) && guard row.claim) = false := by
      intro row hrow
      simp [hno row.record (h.record hrow)]
    unfold InMemoryEffectStore.mark InMemoryEffectStore.transition EffectTables.transition
      EffectTables.transitionError
    rw [Table.updateRow_of_not_match _ hmiss]
    cases hat : store.states.lookup id with
    | none =>
      rw [h.none_iff.mpr hat]
      exact ⟨h, rfl⟩
    | some =>
      obtain ⟨row, hrow, rfl⟩ := h.row hat
      simp only [hrow, if_neg (hno row.record hat)]
      exact ⟨h, rfl⟩

theorem accept_agrees (h : SameContents store tables) (effect : AcceptedEffect) :
    Agree (store.accept effect) (tables.accept rules effect) := by
  unfold InMemoryEffectStore.accept EffectTables.accept
  cases hat : store.states.lookup effect.id with
  | none =>
    have hnone := h.none_iff.mpr hat
    simp only [Table.insertNew_of_none hnone]
    exact ⟨h.put effect.id rfl, rfl⟩
  | some =>
    obtain ⟨row, hrow, rfl⟩ := h.row hat
    simp only [Table.insertNew_of_some hrow, hrow]
    split_ifs
    · exact ⟨h, rfl⟩
    · exact ⟨h, rfl⟩

theorem take_filterMap {α β : Type} {f : α → Option β} {l : List α}
    (hf : ∀ a ∈ l, (f a).isSome = true) (n : Nat) :
    (l.filterMap f).take n = (l.take n).filterMap f := by
  induction l generalizing n with
  | nil => simp
  | cons a _ ih =>
    obtain ⟨b, hb⟩ := Option.isSome_iff_exists.mp (hf a (List.mem_cons_self ..))
    have hrest := fun m => ih (fun x hx => hf x (List.mem_cons_of_mem _ hx)) m
    cases n with
    | zero => simp
    | succ n => simp [hb, hrest n]

variable (h : SameContents store tables)
include h

/-- What the SELECT finds are copies of all effects that are due. -/
theorem claimDue_agrees {now : Timestamp}
    (hclaimable : ∀ id row, tables.states.lookup id = some row →
      rules.claimable row = row.record.due now)
    (limit : Nat) (order : IterOrder) (nullsFirst : Bool) :
    SameContents store (tables.claimDue rules now limit ⟨order, nullsFirst, fun _ => false⟩).1 ∧
      Selects limit (store.allDue now)
        (tables.claimDue rules now limit ⟨order, nullsFirst, fun _ => false⟩).2 := by
  refine ⟨⟨?_, h.dedup⟩, ?_⟩
  · intro id
    rw [EffectTables.lookup_claimDue, ← h.states id]
    cases tables.states.lookup id with
    | none => rfl
    | some =>
      rw [Option.map_some, Option.map_some, Option.map_some]
      split_ifs <;> rfl
  · -- the copy of a row, and of a row that is due
    let copy : EffectId → Option StoredEffect := fun id =>
      (tables.states.lookup id).map fun row => row.record.stored id now
    let due : EffectId → Bool := fun id =>
      (tables.states.lookup id).any rules.claimable && !(fun _ => false) id
    let sorted := ((order.arrange tables.states.keys).filter due).insertionSort
      fun a b => dueFirst nullsFirst (tables.nextAtOf a) (tables.nextAtOf b) = true
    let dueCopy : EffectId → Option StoredEffect := fun id =>
      (store.states.lookup id).bind fun record =>
        if record.due now then some (record.stored id now) else none
    have hcopies : ∀ id, (if due id = true then copy id else none) = dueCopy id := by
      intro id
      cases hrow : tables.states.lookup id with
      | none => simp [due, copy, dueCopy, hrow, h.none_iff.mp hrow]
      | some row => simp [due, copy, dueCopy, hrow, h.record hrow, hclaimable id row hrow]
    refine ⟨sorted.filterMap copy, ?_, ?_⟩
    · have hperm : (sorted.filterMap copy).Perm
          (((order.arrange tables.states.keys).filter due).filterMap copy) :=
        (List.perm_insertionSort _ _).filterMap copy
      have hfilter : ((order.arrange tables.states.keys).filter due).filterMap copy =
          (order.arrange tables.states.keys).filterMap fun id =>
            if due id = true then copy id else none := by
        rw [List.filterMap_filter]
      have hall : ((order.arrange tables.states.keys).filterMap fun id =>
          if due id = true then copy id else none).Perm (store.allDue now) := by
        have hkeys := (order.perm tables.states.keys).trans h.keys
        have hdue : store.allDue now = store.states.keys.filterMap dueCopy := by
          apply List.filterMap_congr
          intro id _
          show _ = (store.states.lookup id).bind _
          cases store.states.lookup id <;> rfl
        rw [List.filterMap_congr fun id _ => hcopies id, hdue]
        exact hkeys.filterMap _
      rw [hfilter] at hperm
      exact hperm.trans hall
    · have hsome : ∀ id ∈ sorted, (copy id).isSome = true := by
        intro id hid
        rw [List.mem_insertionSort, List.mem_filter] at hid
        cases hrow : tables.states.lookup id with
        | none => simp [due, hrow] at hid
        | some => simp [copy, hrow]
      exact take_filterMap hsome limit

theorem recoverInFlight_agrees {now : Timestamp}
    (hrecoverable : ∀ id row, tables.states.lookup id = some row → row.record.state = .inFlight →
      rules.recoverable row.claim = true) : Agree (store.recoverInFlight now)
      (tables.recoverInFlight rules now, .ok (tables.recoveredRows rules)) := by
  refine ⟨⟨?_, h.dedup⟩, ?_⟩
  · intro id
    have hsql : (tables.recoverInFlight rules now).states.lookup id = _ :=
      Table.lookup_updateWhere _ _
    have hmemory : (store.recoverInFlight now).1.states.lookup id = _ := lookup_mapValues _ _ _
    rw [hsql, hmemory, ← h.states id]
    cases hrow : tables.states.lookup id with
    | none => rfl
    | some row =>
      simp only [Option.map_some, InMemoryEffectStore.recoveredRecord]
      by_cases hflight : row.record.state = .inFlight
      · simp [hflight, hrecoverable id row hrow hflight]
      · simp [hflight]
  · -- both count the effects in flight
    have hentries : (mapValues EffectRow.record tables.states).entries.Perm
        store.states.entries := by
      apply List.lookup_ext (AList.nodupKeys _) (AList.nodupKeys _)
      intro id record
      have hsame : (mapValues EffectRow.record tables.states).lookup id =
          store.states.lookup id := by
        rw [lookup_mapValues, h.states id]
      exact Eq.to_iff (congrArg (record ∈ ·) hsame)
    have hcount := hentries.countP_eq fun e => decide (e.2.state = .inFlight)
    have hrows : tables.recoveredRows rules =
        (mapValues EffectRow.record tables.states).entries.countP
          fun e => decide (e.2.state = .inFlight) := by
      unfold EffectTables.recoveredRows
      show _ = (tables.states.entries.map _).countP _
      rw [List.countP_map]
      apply List.countP_congr
      intro e he
      have hrow : tables.states.lookup e.1 = some e.2 := AList.mem_lookup_iff.mpr he
      by_cases hflight : e.2.record.state = .inFlight
      · simp [hflight, hrecoverable e.1 e.2 hrow hflight]
      · simp [hflight]
    rw [hrows, hcount]
    rfl

theorem reserve_agrees (scope : DedupScope) (effectId : EffectId)
    (fingerprint : EffectFingerprint) : Agree (store.reserve scope effectId fingerprint)
      (tables.reserve scope effectId fingerprint) := by
  have hscope := h.dedup scope
  unfold InMemoryEffectStore.reserve EffectTables.reserve EffectTables.reserveInsert
  cases hrow : tables.dedup.lookup scope with
  | none =>
    rw [hrow, Option.map_none] at hscope
    rw [← hscope, Table.insertNew_of_none hrow]
    exact ⟨h.putReservation scope ⟨_, _⟩, rfl⟩
  | some row =>
    obtain ⟨existing, settledAt⟩ := row
    rw [hrow, Option.map_some] at hscope
    rw [← hscope, Table.insertNew_of_some hrow]
    dsimp only
    unfold EffectTables.reserveSelect
    rw [hrow]
    dsimp only
    refine ⟨?_, ?_⟩
    · split_ifs <;> exact ⟨h.states, h.dedup⟩
    · split_ifs <;> rfl

theorem commitSuccess_agrees (wall : Timestamp) (scope : DedupScope) :
    Agree (store.commitSuccess scope) (tables.commitSuccess wall scope, .ok ()) := by
  have hscope := h.dedup scope
  unfold InMemoryEffectStore.commitSuccess EffectTables.commitSuccess
  cases hrow : tables.dedup.lookup scope with
  | none =>
    rw [hrow, Option.map_none] at hscope
    rw [← hscope, Table.updateRow_of_not_match _ (by simp [hrow])]
    exact ⟨⟨h.states, h.dedup⟩, rfl⟩
  | some =>
    rw [hrow, Option.map_some] at hscope
    rw [← hscope, Table.updateRow_of_match _ hrow rfl]
    exact ⟨h.putReservation scope ⟨_, _⟩, rfl⟩

theorem release_agrees (scope : DedupScope) :
    SameContents (store.release scope).1 (tables.release scope) where
  states := h.states
  dedup other := by
    by_cases ho : other = scope
    · subst ho
      simp [InMemoryEffectStore.release, EffectTables.release]
    · have hother := h.dedup other
      simpa [InMemoryEffectStore.release, EffectTables.release, AList.lookup_erase_ne ho]
        using hother

end

/-! ## The same answers -/

/-- The two stores answer alike: the same, or, to `claim_due`, with a choice of
their own from the same effects. A `LIMIT` that `i64` cannot hold is not
compared. -/
def AnswersAgree (t : MemoryEvent) (u : SqlEvent κ) : Prop :=
  match t.input.call with
  | .claimDue now limit => limit < negativeFrom → ∃ chosen chosen',
      t.output = .claimed (.ok chosen) ∧ u.output = .claimed (.ok chosen') ∧
        Selects limit (t.pre.allDue now) chosen ∧ Selects limit (t.pre.allDue now) chosen'
  | _ => u.output = t.output

/-- One call with what each of the two stores meets. -/
structure PairedCall where
  call : PortCall
  memory : Environment
  sql : Environment

abbrev PairedCall.memoryInput (c : PairedCall) : PortInput := ⟨c.call, c.memory⟩

abbrev PairedCall.sqlInput (c : PairedCall) : PortInput := ⟨c.call, c.sql⟩

section
variable (rules : Timestamp → ClaimRules κ)
  (negativeLimit : Environment → Except EffectStoreError (List StoredEffect))

/-- The claim columns do not stop this call. -/
abbrev unhindered (u : SqlEvent κ) : Prop :=
  Unhindered (rules u.input.reading) u.pre u.input.call

/-- **One call** that the claim columns do not stop. -/
theorem serve_agrees {store : InMemoryEffectStore} {tables : EffectTables κ}
    (h : SameContents store tables) (c : PairedCall)
    (hfree : unhindered rules ((sqlPort rules negativeLimit).fire tables c.sqlInput)) :
    SameContents (store.serve c.memoryInput).1 (tables.serve rules negativeLimit c.sqlInput).1 ∧
      AnswersAgree (memoryPort.fire store c.memoryInput)
        ((sqlPort rules negativeLimit).fire tables c.sqlInput) := by
  obtain ⟨call, memory, sql⟩ := c
  cases call with
  | accept effect => exact (accept_agrees h effect).answering .done
  | markInFlight id | markSucceeded id | markRetryable id | markTerminal id =>
    exact (transition_agrees h id _ _ (fun _ => rfl) hfree).answering .done
  | claimDue now limit =>
    obtain ⟨hsame, hchosen⟩ := claimDue_agrees h hfree limit sql.order sql.nullsFirst
    have hmemory := selects_claimDue store now limit memory.order
    refine ⟨?_, ?_⟩
    · show SameContents store
        (if limit < negativeFrom then _ else _ : EffectTables κ × PortAnswer).1
      split_ifs
      · exact hsame
      · exact h
    · intro hlimit
      refine ⟨_, _, rfl, ?_, hmemory, hchosen⟩
      show (if limit < negativeFrom then _ else _ : EffectTables κ × PortAnswer).2 = _
      rw [if_pos hlimit]
      rfl
  | recoverInFlight => exact (recoverInFlight_agrees h hfree).answering .recovered
  | reserve scope effectId fingerprint =>
    exact (reserve_agrees h scope effectId fingerprint).answering .reserved
  | commitSuccess scope => exact (commitSuccess_agrees h sql.wall scope).answering .done
  | release scope => exact ⟨release_agrees h scope, rfl⟩

/-- **All calls**, if the claim columns stop none of them: call by call the
answers agree and the contents are the same. -/
theorem runs_agree {store : InMemoryEffectStore} {tables : EffectTables κ}
    (h : SameContents store tables) (calls : List PairedCall)
    (hfree : ∀ u ∈ (sqlPort rules negativeLimit).trace tables (calls.map PairedCall.sqlInput),
      unhindered rules u) : List.Forall₂ (fun t u => AnswersAgree t u ∧ SameContents t.post u.post)
      (memoryPort.trace store (calls.map PairedCall.memoryInput))
      ((sqlPort rules negativeLimit).trace tables (calls.map PairedCall.sqlInput)) := by
  induction calls generalizing store tables with
  | nil => exact .nil
  | cons c _ ih =>
    obtain ⟨hsame, hanswer⟩ := serve_agrees rules negativeLimit h c
      (hfree _ (List.mem_cons_self ..))
    refine .cons ⟨hanswer, hsame⟩ ?_
    exact ih hsame fun u hu => hfree u (List.mem_cons_of_mem _ hu)

end

end EgoRs.Effects
