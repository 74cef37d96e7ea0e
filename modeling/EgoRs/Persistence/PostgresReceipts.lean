import EgoRs.Persistence.PostgresLinear
import EgoRs.Persistence.ReceiptRanges

/-! # Receipts in Postgres

A receipt is a row of the unit's transaction, so it is committed with the
events or not at all, and the index allows one for a key. But a receipt
that is there already is as good as a new one to `confirm_receipt` when
the fingerprints agree, whatever range it carries and whatever the unit
has appended.
-/

namespace EgoRs.Postgres

open Framework EventStore

variable {E : Type}

/-! ## Stored receipts -/

def ReceiptRow.key (row : ReceiptRow) : ReceiptKey :=
  ⟨row.aggregateType, row.aggregateId, row.tenantId, row.operationKey⟩

theorem ReceiptRow.isUnder_iff {row : ReceiptRow} {key : ReceiptKey} :
    row.isUnder key = true ↔ row.key = key := by
  obtain ⟨aggregateType, aggregateId, tenant, operationKey⟩ := key
  simp [ReceiptRow.isUnder, ReceiptRow.key, isNotDistinctFrom_iff, and_assoc]

/-- The two partial indexes on `operation_receipts` together allow one row for
each key. -/
theorem indexKey_receipt_inj {a b : ReceiptRow} :
    (Row.receipt a : Row E).indexKey = (Row.receipt b : Row E).indexKey ↔ a.key = b.key := by
  obtain ⟨tenant, aggregateType, aggregateId, operationKey, fingerprint, kind, f, t⟩ := a
  obtain ⟨tenant', aggregateType', aggregateId', operationKey', fingerprint', kind', f', t'⟩ := b
  cases tenant <;> cases tenant' <;>
    simp [Row.indexKey, ReceiptRow.key, and_left_comm]

theorem tenant_receiptRow (receipt : OperationReceipt) :
    (receiptRow receipt).tenant = .ok receipt.tenant := by
  unfold ReceiptRow.tenant receiptRow
  cases receipt.tenant with
  | none => rfl
  | some t => simp [TenantId.new, t.nonblank]

/-- A receipt that passed the CHECK constraint is read back. -/
theorem outcome_receiptRow {receipt : OperationReceipt}
    (hc : (receiptRow receipt).consistent = true) :
    (receiptRow receipt).outcome = .ok receipt.outcome := by
  unfold ReceiptRow.consistent receiptRow at hc
  unfold ReceiptRow.outcome receiptRow
  cases hout : receipt.outcome with
  | noEvents => rfl
  | events versionFrom versionTo =>
    have hle : versionFrom ≤ versionTo := by simpa [hout] using hc
    have hnotEmpty : ¬ versionTo = versionFrom - 1 := by omega
    have hnotInverted : ¬ versionTo < versionFrom := by omega
    simp [aggregateOutcomeEvents, hnotEmpty, hnotInverted]

theorem parse_value (key : OperationKey) : OperationKey.parse key.value = .ok key := by
  simp [OperationKey.parse, key.nonblank, key.short]

/-- What `find_receipt` answers for the key of `receipt`. -/
def findReceiptOf (rows : List (Row E)) (receipt : OperationReceipt) :
    Except PersistenceError (Option OperationReceipt) :=
  findReceipt rows receipt.aggregateType receipt.aggregateId
    (receipt.tenant.map TenantId.value) receipt.operationKey.value

theorem findSome_receiptUnder {rows : List (Row E)} {row : ReceiptRow}
    (hkeyed : (rows.map Row.indexKey).Nodup) (hmem : Row.receipt row ∈ rows) :
    rows.findSome? (Row.receiptUnder row.key) = some row := by
  have hself : Row.receiptUnder row.key (Row.receipt row : Row E) = some row := by
    simp [Row.receiptUnder, ReceiptRow.isUnder_iff.mpr rfl]
  cases hf : rows.findSome? (Row.receiptUnder row.key) with
  | none =>
    have hnone := List.findSome?_eq_none_iff.mp hf _ hmem
    rw [hself] at hnone
    cases hnone
  | some =>
    obtain ⟨x, hx, hunder⟩ := List.exists_of_findSome?_eq_some hf
    cases x with
    | event => cases hunder
    | receipt x =>
      simp only [Row.receiptUnder, Option.ite_none_right_eq_some, Option.some.injEq] at hunder
      obtain ⟨hunder, rfl⟩ := hunder
      have hkey : (Row.receipt x : Row E).indexKey = (Row.receipt row : Row E).indexKey :=
        indexKey_receipt_inj.mpr (ReceiptRow.isUnder_iff.mp hunder)
      have hsame := List.inj_on_of_nodup_map hkeyed hx hmem hkey
      rw [Row.receipt.inj hsame]

/-- **A committed receipt is found**, as it was confirmed. -/
theorem findReceiptOf_eq {rows : List (Row E)} {receipt : OperationReceipt}
    (hkeyed : (rows.map Row.indexKey).Nodup) (hmem : Row.receipt (receiptRow receipt) ∈ rows)
    (hc : (receiptRow receipt).consistent = true) :
    findReceiptOf rows receipt = .ok (some receipt) := by
  have hrow := findSome_receiptUnder hkeyed hmem
  have htenant : resolveTenant (receipt.tenant.map TenantId.value) =
      .ok (receipt.tenant.map TenantId.value) := by
    unfold resolveTenant
    cases receipt.tenant with
    | none => rfl
    | some t => simp [t.value_ne_empty]
  have hkey : (receiptRow receipt).key = ⟨receipt.aggregateType, receipt.aggregateId,
      receipt.tenant.map TenantId.value, receipt.operationKey.value⟩ := rfl
  rw [hkey] at hrow
  have hread : (receiptRow receipt).read receipt.aggregateType receipt.aggregateId
      receipt.operationKey.value = .ok receipt := by
    unfold ReceiptRow.read
    rw [outcome_receiptRow hc, tenant_receiptRow, parse_value]
    rfl
  unfold findReceiptOf findReceipt
  simp only [htenant, bind, Except.bind, hrow, hread]
  rfl

/-! ## The promise -/

/-- The append with events to `stream` that session `i` is told of in `t`, if it
is told of one. -/
def acknowledged (i : Nat) (stream : StreamKey) (t : Event E) : Option (AppendCall E) :=
  match t.output with
  | some (j, .appended (.ok _)) =>
    if j = i then
      ((t.pre.sessions[i]?).bind fun session => session.activity.call).filter fun call =>
        decide (call.stream = stream) && !call.args.events.isEmpty
    else none
  | _ => none

/-- The appends with events that unit `i` was told of, in order. -/
def appendsBy (h : History E) (i : Nat) (stream : StreamKey) : List (AppendCall E) :=
  h.filterMap (acknowledged i stream)

/-- The events unit `i` has appended to `stream`. -/
def unitEvents (h : History E) (i : Nat) (stream : StreamKey) : List (StoredEvent E) :=
  (appendsBy h i stream).flatMap fun call => call.args.events

def unitExpected (h : History E) (i : Nat) (stream : StreamKey) : Option Int :=
  (appendsBy h i stream).head?.map fun call => call.args.expectedVersion

/-- The receipt a session is confirming. -/
def Activity.receipt : Activity E → Option OperationReceipt
  | .confirming receipt => some receipt
  | .comparing receipt => some receipt
  | _ => none

/-- In `t` unit `i` is told that `r` is confirmed. -/
def Confirms (t : Event E) (i : Nat) (r : OperationReceipt) : Prop :=
  t.output = some (i, .confirmed (.ok ())) ∧
    ∃ session, t.pre.sessions[i]? = some session ∧ session.activity.receipt = some r

/-- Unit `i` confirmed `r` somewhere in `h`. -/
def ConfirmedIn (h : History E) (i : Nat) (r : OperationReceipt) : Prop := ∃ t ∈ h, Confirms t i r

/-- Unit `i` was committed in `h`. -/
def CommittedIn (h : History E) (i : Nat) : Prop :=
  ∃ t ∈ h, t.output = some (i, .committed (.ok ()))

def State.stream (s : State E) (stream : StreamKey) : List (StoredEvent E) :=
  (eventsOf stream s.db.committed).map EventRow.stored

/-- **What a committed receipt promises** in the run `h` that ends in `s`. -/
structure ReceiptsDescribe (h : History E) (s : State E) : Prop where
  /-- It is the one that is found, and its range is the positions of the events
      its unit appended. -/
  describes : ∀ i r, ConfirmedIn h i r → CommittedIn h i → unitEvents h i (receiptStream r) ≠ [] →
    findReceiptOf s.db.committed r = .ok (some r) ∧
      Describes (s.stream (receiptStream r)) (unitEvents h i (receiptStream r)) r.outcome
  /-- One operation key is good for one unit that appends to the stream. -/
  once : ∀ i j r r', i ≠ j → ConfirmedIn h i r → CommittedIn h i →
    unitEvents h i (receiptStream r) ≠ [] → ConfirmedIn h j r' → CommittedIn h j →
    unitEvents h j (receiptStream r') ≠ [] → receiptKey r ≠ receiptKey r'

/-- The steps that keep the promise. -/
structure KeepsReceipts (h : History E) (t : Event E) : Prop where
  /-- When a receipt's `INSERT` runs there is none under its key. -/
  confirms : ∀ i session r, t.input = .advance i → t.pre.sessions[i]? = some session →
    session.activity = .confirming r →
    t.pre.db.taken Row.indexKey i (Row.receipt (receiptRow r) : Row E).indexKey = false
  /-- `commit` is called while the transaction lives. -/
  live : commitsLive t = true
  /-- When `commit` is called, the receipt names the versions the unit's appends
      answered. -/
  names : ∀ i r, t.input = .call i .commit → ConfirmedIn h i r →
    namesRange r.outcome (unitExpected h i (receiptStream r))
      (unitEvents h i (receiptStream r)).length = true

/-- No statement of `confirm_receipt`, and no call of `commit`. -/
def confirmsNothing (t : Event E) : Bool :=
  match t.input with
  | .advance i => (t.pre.sessions[i]?).all fun session => session.activity.receipt.isNone
  | .call _ .commit => false
  | _ => true

theorem KeepsReceipts.of_other {h : History E} {t : Event E} (hother : confirmsNothing t = true) :
    KeepsReceipts h t where
  confirms := by
    intro i session r hin hat hact
    simp [confirmsNothing, hin, hat, hact, Activity.receipt] at hother
  live := by
    unfold commitsLive
    split
    · rename_i hin
      simp [confirmsNothing, hin] at hother
    · rfl
  names := by
    intro i r hin
    simp [confirmsNothing, hin] at hother

/-! ## Histories, one step longer -/

section
variable {h : History E} {t : Event E} {i : Nat} {r : OperationReceipt}

theorem appendsBy_snoc (stream : StreamKey) :
    appendsBy (h ++ [t]) i stream = appendsBy h i stream ++ (acknowledged i stream t).toList := by
  unfold appendsBy
  rw [List.filterMap_append]
  cases ha : acknowledged i stream t <;> simp [ha]

theorem confirmedIn_snoc : ConfirmedIn (h ++ [t]) i r ↔ ConfirmedIn h i r ∨ Confirms t i r :=
  exists_mem_snoc

theorem committedIn_snoc :
    CommittedIn (h ++ [t]) i ↔ CommittedIn h i ∨ t.output = some (i, .committed (.ok ())) :=
  exists_mem_snoc

/-- A step that answers nothing to session `i` adds nothing about it. -/
structure SilentFor (t : Event E) (i : Nat) : Prop where
  append : ∀ newVersion, t.output ≠ some (i, .appended (.ok newVersion))
  confirm : t.output ≠ some (i, .confirmed (.ok ()))
  commit : t.output ≠ some (i, .committed (.ok ()))

section
variable (hs : SilentFor t i) (stream : StreamKey)
include hs stream

theorem SilentFor.acknowledged_eq : acknowledged i stream t = none := by
  unfold acknowledged
  split
  · rename_i j newVersion hout
    have hne : j ≠ i := by
      intro hji
      subst hji
      exact hs.append newVersion hout
    rw [if_neg hne]
  · rfl

theorem SilentFor.appendsBy_eq : appendsBy (h ++ [t]) i stream = appendsBy h i stream := by
  rw [appendsBy_snoc, hs.acknowledged_eq stream]
  simp

theorem SilentFor.unitEvents_eq : unitEvents (h ++ [t]) i stream = unitEvents h i stream := by
  unfold unitEvents
  rw [hs.appendsBy_eq]

theorem SilentFor.unitExpected_eq : unitExpected (h ++ [t]) i stream = unitExpected h i stream := by
  unfold unitExpected
  rw [hs.appendsBy_eq]

end

theorem SilentFor.confirmedIn_iff (hs : SilentFor t i) :
    ConfirmedIn (h ++ [t]) i r ↔ ConfirmedIn h i r := by
  rw [confirmedIn_snoc]
  constructor
  · rintro (hold | hnow)
    · exact hold
    · exact absurd hnow.1 hs.confirm
  · exact .inl

theorem SilentFor.committedIn_iff (hs : SilentFor t i) :
    CommittedIn (h ++ [t]) i ↔ CommittedIn h i := by
  rw [committedIn_snoc]
  constructor
  · rintro (hold | hnow)
    · exact hold
    · exact absurd hnow hs.commit
  · exact .inl

end

/-! ## A unit of work that goes on -/

def Activity.over : Activity E → Bool
  | .closing => true
  | .done => true
  | _ => false

/-- A unit of work that may still be committed. -/
structure Session.Running (session : Session E) : Prop where
  isUnit : session.direct = false
  live : session.aborted = false
  goesOn : session.activity.over = false

/-- The rows of a batch that is not acknowledged yet. -/
def Activity.partialBatch (stream : StreamKey) : Activity E → List (StoredEvent E)
  | .inserting call _ k => if call.stream = stream then call.args.events.take k else []
  | _ => []

/-- **What a unit has is what it was told it has**: its rows on a stream are the
appends that were acknowledged, laid end to end after the committed events,
and its receipts are in its transaction. -/
structure UnitInv (h : History E) (db : Db (Row E)) (i : Nat) (session : Session E) : Prop where
  rows : ∀ stream, (eventsOf stream (db.own i)).map EventRow.stored =
    unitEvents h i stream ++ session.activity.partialBatch stream
  laid : ∀ stream, LaidOut (fun call : AppendCall E => call.args.events)
    (fun call => call.args.expectedVersion) (count stream db) (appendsBy h i stream)
  confirmed : ∀ r, ConfirmedIn h i r →
    Row.receipt (receiptRow r) ∈ db.own i ∧ (receiptRow r).consistent = true
  named : session.activity = .publishing → ∀ r, ConfirmedIn h i r →
    namesRange r.outcome (unitExpected h i (receiptStream r))
      (unitEvents h i (receiptStream r)).length = true

section
variable {db : Db (Row E)} {i : Nat} {session : Session E} {cause : Cause E} {o : Outcome E}

/-- The append with events to `stream` that a move acknowledges. -/
def ackOf (session : Session E) (answer : Option Answer) (stream : StreamKey) :
    Option (AppendCall E) :=
  match answer with
  | some (.appended (.ok _)) =>
    session.activity.call.filter fun call =>
      decide (call.stream = stream) && !call.args.events.isEmpty
  | _ => none

/-- A unit that may still be committed after a move might be before it. -/
theorem Moves.running (hm : Moves db i session cause o) (hlt : i < db.pending.length)
    (hr : o.2.1.Running) : session.Running := by
  have hdone : o.2.1.activity ≠ .done := by
    intro h
    have hover := hr.goesOn
    rw [h] at hover
    cases hover
  obtain ⟨hlive, hnotDone, _⟩ := hm.own_grows hlt hr.live hdone
  refine ⟨hm.direct_eq ▸ hr.isUnit, hlive, ?_⟩
  by_contra hover
  have hclosing : session.activity = .closing := by
    cases hact : session.activity <;> simp_all [Activity.over]
  have hgoes := hr.goesOn
  have habort := hr.live
  cases hm <;> simp_all [Activity.over, Session.at', Session.abort, Activity.droppable]

variable {call : AppendCall E} {stream : StreamKey}

theorem ackOf_checked {newVersion : Int} (hcall : session.activity.call = some call) :
    (ackOf session (some (.appended (.ok newVersion))) stream).toList.flatMap
        (fun c => c.args.events) =
      if call.stream = stream then call.args.events else [] := by
  unfold ackOf
  rw [hcall]
  by_cases hs : call.stream = stream
  · cases hev : call.args.events <;> simp [Option.filter, hs, hev]
  · simp [hs]

variable {told : List (StoredEvent E)}

/-- A batch that goes on has its rows in hand, or is acknowledged. -/
theorem Proceeds.unit_rows {current : Int} {k : Nat}
    (ho : Proceeds db session call current k o) (hr : o.2.1.Running)
    (hcall : session.activity.call = some call)
    (hrows : (eventsOf stream (db.own i)).map EventRow.stored =
      told ++ if call.stream = stream then call.args.events.take k else []) :
    (eventsOf stream (o.1.own i)).map EventRow.stored =
      told ++ (ackOf session o.2.2 stream).toList.flatMap (fun call => call.args.events) ++
        o.2.1.activity.partialBatch stream := by
  cases ho with
  | more =>
    rw [hrows]
    simp [ackOf, Session.at', Activity.partialBatch]
  | committing _ direct =>
    have hunit : session.direct = false := hr.isUnit
    rw [direct] at hunit
    cases hunit
  | answered full =>
    rw [hrows, ackOf_checked hcall, List.take_of_length_le full]
    simp [Session.at', Activity.partialBatch]

/-- **A unit's rows grow by what it is told of**, or by one more row of the
batch it is in. -/
theorem Moves.unit_rows (hm : Moves db i session cause o) (hlt : i < db.pending.length)
    (hr : o.2.1.Running) (hrows : (eventsOf stream (db.own i)).map EventRow.stored =
      told ++ session.activity.partialBatch stream) :
    (eventsOf stream (o.1.own i)).map EventRow.stored =
      told ++ (ackOf session o.2.2 stream).toList.flatMap (fun call => call.args.events) ++
        o.2.1.activity.partialBatch stream := by
  have hanswered : session.answered.activity.partialBatch stream = [] := by
    obtain h | h := session.answered_activity <;> rw [h] <;> rfl
  have hlive := hr.live
  have hgoes := hr.goesOn
  cases hm with
  | waits | unresolved => simpa [ackOf] using hrows
  | refused _ at' | reread _ at' | failedReread _ _ at' =>
    rw [at'] at hrows
    simp only [ackOf, hanswered]
    simpa [Activity.partialBatch] using hrows
  | checked call current at' _ _ _ goes =>
    refine goes.unit_rows hr (by rw [at']; rfl) ?_
    rw [at'] at hrows
    simpa [Activity.partialBatch] using hrows
  | inserted call current k stored at' event _ _ goes =>
    refine goes.unit_rows hr (by rw [at']; rfl) ?_
    -- the rows on the stream, with the new one if it is the call's
    rw [Db.own_insert_self hlt, eventsOf_append, List.map_append, hrows, at',
      AppendCall.row_eq, eventsOf_event, AppendCall.eventRow_stream]
    by_cases hs : call.stream = stream
    · rw [if_pos hs, if_pos hs]
      simp only [Activity.partialBatch, hs, if_true, List.map_cons, List.map_nil,
        List.append_assoc]
      congr 1
      rw [List.take_add_one, event]
      rfl
    · simp [hs, Activity.partialBatch]
  | confirmed _ at' =>
    rw [at'] at hrows
    rw [Db.own_insert_self hlt, eventsOf_append, eventsOf_receipt, List.append_nil]
    simpa [ackOf, Session.at', Activity.partialBatch] using hrows
  | collided | failed => cases hlive
  | begun at' | opened _ at' | called _ at' | calledConfirm _ at' | calledCommit at'
  | suppressed _ at' | compared _ _ at' =>
    rw [at'] at hrows
    simpa [ackOf, Session.at', Activity.partialBatch] using hrows
  | _ => cases hgoes

/-- An append that is acknowledged expected the end of what the unit had. -/
theorem Moves.unit_expected (hm : Moves db i session cause o) (hn : Numbering db)
    (hlt : i < db.pending.length) (hi : SessionInv db i session) (hr : o.2.1.Running)
    (hrows : (eventsOf stream (db.own i)).map EventRow.stored =
      told ++ session.activity.partialBatch stream)
    (hack : ackOf session o.2.2 stream = some call) :
    call.args.expectedVersion = count stream o.1 + told.length := by
  have hafter := hm.unit_rows hlt hr hrows
  -- only an append that was told of acknowledges anything
  obtain ⟨newVersion, hans⟩ : ∃ newVersion, o.2.2 = some (.appended (.ok newVersion)) := by
    unfold ackOf at hack
    split at hack
    · rename_i newVersion hout
      exact ⟨newVersion, hout⟩
    · cases hack
  have hcall : session.activity.call = some call ∧ call.stream = stream ∧
      call.args.events ≠ [] := by
    rw [hans] at hack
    unfold ackOf at hack
    rw [Option.filter_eq_some_iff] at hack
    simpa using hack
  obtain ⟨hcall, rfl, hne⟩ := hcall
  have hpos := List.length_pos_of_ne_nil hne
  obtain ⟨-, hidle, hb⟩ | ⟨hdone, -⟩ := hm.completes hn hlt hi hcall hans
  · rw [hidle, hans, ackOf_checked hcall, if_pos rfl] at hafter
    have hlen := congrArg List.length hafter
    simp only [Activity.partialBatch, List.append_nil, List.length_append, List.length_map] at hlen
    have hversions : (versionsOf call.stream (o.1.own i)).length =
        told.length + call.args.events.length := by
      unfold versionsOf
      rw [List.length_map, hlen]
    obtain ⟨-, hnone, -⟩ | ⟨-, heq⟩ := hb.position
    · omega
    · rw [hversions] at heq
      omega
  · have hgoes := hr.goesOn
    rw [hdone] at hgoes
    cases hgoes

theorem Moves.confirmed_row (hm : Moves db i session cause o)
    (hquiet : ∀ r, session.activity ≠ .comparing r) (hans : o.2.2 = some (.confirmed (.ok ())))
    {r : OperationReceipt} (hr : session.activity.receipt = some r) :
    o.1 = db.insert i (.receipt (receiptRow r)) ∧ (receiptRow r).consistent = true ∧
      db.heldByOther Row.indexKey i (Row.receipt (receiptRow r) : Row E).indexKey = false ∧
      db.taken Row.indexKey i (Row.receipt (receiptRow r) : Row E).indexKey = false := by
  cases hm with
  | confirmed receipt at' _ consistent free new =>
    obtain rfl : receipt = r := by
      rw [at'] at hr
      exact Option.some.inj hr
    exact ⟨rfl, consistent, free, new⟩
  | compared receipt _ at' => exact absurd at' (hquiet receipt)
  | checked _ _ at' | inserted _ _ _ _ at' =>
    rw [at'] at hr
    cases hr
  | failed _ _ _ answers | failedBegin _ _ _ answers
  | failedCommit _ answers =>
    obtain ⟨text, rfl⟩ | ⟨text, rfl⟩ := answers <;> simp at hans
  | _ => simp at hans

end

end EgoRs.Postgres
