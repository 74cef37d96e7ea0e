import EgoRs.Persistence.EventStore

/-! # Runs of the Event Store

Any number of callers use one in-memory store, directly and through units
of work. Each method holds the store's lock for its whole body, so a run
is a sequence of requests in the order the lock was taken.
-/

namespace EgoRs.EventStore

open Framework

variable {E : Type}

/-! ## State -/

structure RunState (E : Type) where
  committed : Committed E
  /-- One entry for every `begin`, in order; `none` once the unit of work has
      been committed or dropped. -/
  units : List (Option (UnitOfWork E))

namespace RunState

/-- The unit of work `u`, while its caller still has it. -/
def unit (s : RunState E) (u : Nat) : Option (UnitOfWork E) := s.units[u]?.join

def setUnit (s : RunState E) (u : Nat) (unit : Option (UnitOfWork E)) : RunState E :=
  { s with units := s.units.set u unit }

def stream (s : RunState E) (k : StreamKey) : List (StoredEvent E) :=
  streamAt s.committed.streams k

@[simp] theorem setUnit_committed (s : RunState E) (u : Nat) (unit : Option (UnitOfWork E)) :
    (s.setUnit u unit).committed = s.committed := rfl

@[simp] theorem setUnit_stream (s : RunState E) (u : Nat) (unit : Option (UnitOfWork E)) :
    (s.setUnit u unit).stream = s.stream := rfl

variable {s : RunState E} {u v : Nat} {unit : UnitOfWork E} {x : Option (UnitOfWork E)}

theorem getElem?_of_unit (h : s.unit u = some unit) : s.units[u]? = some (some unit) := by
  unfold RunState.unit at h
  cases hu : s.units[u]? with
  | none => simp [hu] at h
  | some => simpa [hu] using h

theorem lt_of_unit (h : s.unit u = some unit) : u < s.units.length :=
  (List.getElem?_eq_some_iff.mp (getElem?_of_unit h)).1

theorem unit_setUnit (h : s.unit u = some unit) : (s.setUnit u x).unit u = x := by
  have hlt := lt_of_unit h
  simp [RunState.unit, setUnit, hlt]

theorem unit_setUnit_ne (h : v ≠ u) : (s.setUnit u x).unit v = s.unit v := by
  simp [RunState.unit, setUnit, List.getElem?_set_ne (Ne.symm h)]

theorem setUnit_self (h : s.unit u = some unit) : s.setUnit u (some unit) = s := by
  obtain ⟨hlt, hget⟩ := List.getElem?_eq_some_iff.mp (getElem?_of_unit h)
  have hset : s.units.set u (some unit) = s.units := by
    rw [← hget]
    exact List.set_getElem_self hlt
  unfold setUnit
  rw [hset]

end RunState

/-! ## Requests -/

/-- A call on the store or on one of the open units of work. -/
inductive Request (E : Type) where
  | append (args : AppendArgs E)
  | load (aggregateType aggregateId : String) (tenantId : Option String)
  | listAggregateIds (tenantId : Option String)
  | findReceipt (aggregateType aggregateId : String) (tenantId : Option String)
      (operationKey : String)
  | begin
  | unitAppend (u : Nat) (args : AppendArgs E)
  | confirmReceipt (u : Nat) (receipt : OperationReceipt)
  | commit (u : Nat)
  | drop (u : Nat)

inductive Answer (E : Type) where
  | version (result : Except PersistenceError Int)
  | events (result : Except PersistenceError (List (StoredEvent E)))
  | ids (result : Except PersistenceError (List (String × String)))
  | receipt (result : Except PersistenceError (Option OperationReceipt))
  | unit (u : Nat)
  | confirmed (result : Except PersistenceError Unit)
  | committed (result : Except PersistenceError Unit)
  | dropped
  /-- The unit of work is gone; the compiler rejects such a call. -/
  | consumed
  deriving DecidableEq

def RunState.step (s : RunState E) : Request E → RunState E × Answer E
  | .append args =>
    let (committed, result) := EventStore.append s.committed args
    ({ s with committed := committed }, .version result)
  | .load aggregateType aggregateId tenantId =>
    (s, .events (EventStore.load s.committed aggregateType aggregateId tenantId))
  | .listAggregateIds tenantId => (s, .ids (EventStore.listAggregateIds s.committed tenantId))
  | .findReceipt aggregateType aggregateId tenantId operationKey =>
    (s, .receipt
      (EventStore.findReceipt s.committed aggregateType aggregateId tenantId operationKey))
  | .begin => ({ s with units := s.units ++ [some .fresh] }, .unit s.units.length)
  | .unitAppend u args =>
    match s.unit u with
    | none => (s, .consumed)
    | some unit =>
      let (unit', result) := unit.append s.committed args
      (s.setUnit u (some unit'), .version result)
  | .confirmReceipt u receipt =>
    match s.unit u with
    | none => (s, .consumed)
    | some unit =>
      let (unit', result) := unit.confirmReceipt s.committed receipt
      (s.setUnit u (some unit'), .confirmed result)
  | .commit u =>
    match s.unit u with
    | none => (s, .consumed)
    | some unit =>
      let (committed, result) := unit.commit s.committed
      ({ s.setUnit u none with committed := committed }, .committed result)
  | .drop u =>
    match s.unit u with
    | none => (s, .consumed)
    | some _ => (s.setUnit u none, .dropped)

/-- The event store as a machine: an empty store and no unit of work. -/
def store (E : Type) : Machine (RunState E) (Request E) (Answer E) where
  init := ⟨⟨∅, ∅⟩, []⟩
  step := RunState.step

/-- A step of a run, with the states around it. -/
abbrev Event (E : Type) : Type := Transition (RunState E) (Request E) (Answer E)

abbrev History (E : Type) : Type := List (Event E)

/-! ## What a request can do -/

/-- Every way a request can end, with what it leaves behind. -/
inductive Moves (s : RunState E) : Request E → Answer E → RunState E → Prop where
  /-- A direct append found the version it expected. -/
  | appended (args : AppendArgs E) (k : StreamKey) (n : Int) (s' : RunState E)
      (key : args.key = .ok k)
      (version : ((s.stream k).length : Int) = args.expectedVersion)
      (stream : s'.stream k = s.stream k ++ args.events)
      (others : ∀ k', k' ≠ k → s'.stream k' = s.stream k')
      (receipts : s'.committed.receipts = s.committed.receipts)
      (units : s'.units = s.units) :
      Moves s (.append args) (.version (.ok n)) s'
  /-- A direct append was refused. The streams hold what they held, though an
      empty one may have come into being. -/
  | appendRefused (args : AppendArgs E) (e : PersistenceError) (s' : RunState E)
      (stream : s'.stream = s.stream)
      (receipts : s'.committed.receipts = s.committed.receipts)
      (units : s'.units = s.units) :
      Moves s (.append args) (.version (.error e)) s'
  | loaded (aggregateType aggregateId tenantId) (result) :
      Moves s (.load aggregateType aggregateId tenantId) (.events result) s
  | listed (tenantId) (result) : Moves s (.listAggregateIds tenantId) (.ids result) s
  | foundReceipt (aggregateType aggregateId tenantId operationKey) (result) :
      Moves s (.findReceipt aggregateType aggregateId tenantId operationKey) (.receipt result) s
  | begun : Moves s .begin (.unit s.units.length) { s with units := s.units ++ [some .fresh] }
  /-- A unit's append found committed plus staged events at the version it
      expected. -/
  | staged (u : Nat) (unit : UnitOfWork E) (args : AppendArgs E) (k : StreamKey) (n : Int)
      (opened : s.unit u = some unit)
      (key : args.key = .ok k)
      (version : ((s.stream k).length + (streamAt unit.staged k).length : Int)
        = args.expectedVersion) :
      Moves s (.unitAppend u args) (.version (.ok n))
        (s.setUnit u (some { unit with staged := extend unit.staged k args.events }))
  | stageRefused (u : Nat) (args : AppendArgs E) (e : PersistenceError) :
      Moves s (.unitAppend u args) (.version (.error e)) s
  /-- A receipt passed both reconciliations. -/
  | confirmed (u : Nat) (unit : UnitOfWork E) (receipt : OperationReceipt)
      (opened : s.unit u = some unit)
      (reconciled : unit.reconciles s.committed receipt = .ok ()) :
      Moves s (.confirmReceipt u receipt) (.confirmed (.ok ()))
        (s.setUnit u (some { unit with
          stagedReceipts := unit.stagedReceipts.insert (receiptKey receipt) receipt }))
  | confirmRefused (u : Nat) (receipt : OperationReceipt) (e : PersistenceError) :
      Moves s (.confirmReceipt u receipt) (.confirmed (.error e)) s
  | committed (u : Nat) (unit : UnitOfWork E) (opened : s.unit u = some unit) :
      Moves s (.commit u) (.committed (.ok ()))
        { s.setUnit u none with committed := (unit.commit s.committed).1 }
  | dropped (u : Nat) (unit : UnitOfWork E) (opened : s.unit u = some unit) :
      Moves s (.drop u) .dropped (s.setUnit u none)
  /-- A call on a unit of work that is gone. -/
  | consumed (req : Request E) : Moves s req .consumed s

theorem moves_append (s : RunState E) (args : AppendArgs E) :
    Moves s (.append args) (s.step (.append args)).2 (s.step (.append args)).1 := by
  simp only [RunState.step, append]
  cases hk : args.key with
  | error e => exact .appendRefused args e _ rfl rfl rfl
  | ok k =>
    by_cases hv : ((streamAt s.committed.streams k).length : Int) = args.expectedVersion
    · simp only [streamAt_open, hv, ne_eq, not_true_eq_false, if_false]
      refine .appended args k _ _ hk hv ?_ ?_ rfl rfl
      · simp [RunState.stream]
      · intro k' hk'
        simp [RunState.stream, streamAt_extend_ne hk']
    · simp only [streamAt_open, hv, ne_eq, not_false_eq_true, if_true]
      refine .appendRefused args _ _ ?_ rfl rfl
      funext k'
      simp [RunState.stream]

theorem moves_unitAppend (s : RunState E) (u : Nat) (args : AppendArgs E) :
    Moves s (.unitAppend u args) (s.step (.unitAppend u args)).2
      (s.step (.unitAppend u args)).1 := by
  simp only [RunState.step]
  cases hu : s.unit u with
  | none => exact .consumed _
  | some unit =>
    cases hk : args.key with
    | error e =>
      simp only [UnitOfWork.append, hk, RunState.setUnit_self hu]
      exact .stageRefused u args e
    | ok k =>
      by_cases hv : ((streamAt s.committed.streams k).length +
          (streamAt unit.staged k).length : Int)
          = args.expectedVersion
      · simp only [UnitOfWork.append, hk, hv, ne_eq, not_true_eq_false, if_false]
        exact .staged u unit args k _ hu hk hv
      · simp only [UnitOfWork.append, hk, hv, ne_eq, not_false_eq_true, if_true,
          RunState.setUnit_self hu]
        exact .stageRefused u args _

theorem moves_confirmReceipt (s : RunState E) (u : Nat) (receipt : OperationReceipt) :
    Moves s (.confirmReceipt u receipt) (s.step (.confirmReceipt u receipt)).2
      (s.step (.confirmReceipt u receipt)).1 := by
  simp only [RunState.step]
  cases hu : s.unit u with
  | none => exact .consumed _
  | some unit =>
    simp only [UnitOfWork.confirmReceipt]
    cases hr : unit.reconciles s.committed receipt with
    | error e =>
      simp only [RunState.setUnit_self hu]
      exact .confirmRefused u receipt e
    | ok => exact .confirmed u unit receipt hu hr

/-- **A step of the store is one of the moves.** -/
theorem moves_step (s : RunState E) (req : Request E) :
    Moves s req (s.step req).2 (s.step req).1 := by
  cases req with
  | append args => exact moves_append s args
  | load => exact .loaded ..
  | listAggregateIds => exact .listed ..
  | findReceipt => exact .foundReceipt ..
  | begin => exact .begun
  | unitAppend u args => exact moves_unitAppend s u args
  | confirmReceipt u receipt => exact moves_confirmReceipt s u receipt
  | commit u =>
    simp only [RunState.step]
    cases hu : s.unit u with
    | none => exact .consumed _
    | some unit => exact .committed u unit hu
  | drop u =>
    simp only [RunState.step]
    cases hu : s.unit u with
    | none => exact .consumed _
    | some unit => exact .dropped u unit hu

/-! ## What a request does to one unit of work -/

/-- The request, so answered, staged an append in unit `u`. -/
def StagesIn (u : Nat) (req : Request E) (ans : Answer E) : Prop :=
  ∃ args n, req = .unitAppend u args ∧ ans = .version (.ok n)

/-- The request, so answered, confirmed a receipt in unit `u`. -/
def ConfirmsIn (u : Nat) (req : Request E) (ans : Answer E) : Prop :=
  ∃ receipt, req = .confirmReceipt u receipt ∧ ans = .confirmed (.ok ())

/-- How the unit `u`, open as `unit'` after a request, came to be so. -/
inductive UnitChange (s : RunState E) (req : Request E) (ans : Answer E) (u : Nat)
    (unit' : UnitOfWork E) : Prop where
  | kept (opened : s.unit u = some unit') (stages : ¬ StagesIn u req ans)
      (confirms : ¬ ConfirmsIn u req ans)
  | begun (new : s.units.length ≤ u) (fresh : unit' = .fresh)
      (stages : ¬ StagesIn u req ans) (confirms : ¬ ConfirmsIn u req ans)
  | staged (unit : UnitOfWork E) (args : AppendArgs E) (k : StreamKey) (n : Int)
      (opened : s.unit u = some unit) (request : req = .unitAppend u args)
      (answer : ans = .version (.ok n)) (key : args.key = .ok k)
      (unit_eq : unit' = { unit with staged := extend unit.staged k args.events })
  | confirmed (unit : UnitOfWork E) (receipt : OperationReceipt)
      (opened : s.unit u = some unit) (request : req = .confirmReceipt u receipt)
      (answer : ans = .confirmed (.ok ()))
      (reconciled : unit.reconciles s.committed receipt = .ok ())
      (unit_eq : unit' = { unit with
        stagedReceipts := unit.stagedReceipts.insert (receiptKey receipt) receipt })

section
variable {s s' : RunState E} {req : Request E} {ans : Answer E} {u : Nat}
  {unit' : UnitOfWork E}

/-- The unit a `begin` opens is the only new one. -/
theorem unit_begun
    (hu : RunState.unit { s with units := s.units ++ [some .fresh] } u = some unit') :
    s.unit u = some unit' ∨ (s.units.length ≤ u ∧ unit' = .fresh) := by
  unfold RunState.unit at hu ⊢
  by_cases hlt : u < s.units.length
  · left
    rwa [List.getElem?_append_left hlt] at hu
  · right
    have hle : s.units.length ≤ u := by omega
    rw [List.getElem?_append_right hle] at hu
    refine ⟨hle, ?_⟩
    rcases Nat.eq_zero_or_pos (u - s.units.length) with h0 | hpos
    · simpa [h0] using hu.symm
    · have hnone : ([some (UnitOfWork.fresh : UnitOfWork E)])[u - s.units.length]? = none := by
        simp only [List.getElem?_eq_none_iff, List.length_singleton]
        omega
      simp [hnone] at hu

/-- A unit that is open after another one was replaced was open before. -/
theorem unit_of_setUnit {v : Nat} {unit : UnitOfWork E} {x : Option (UnitOfWork E)}
    (hv : s.unit v = some unit) (hu : (s.setUnit v x).unit u = some unit') :
    (u = v ∧ x = some unit') ∨ (u ≠ v ∧ s.unit u = some unit') := by
  by_cases huv : u = v
  · subst huv
    rw [RunState.unit_setUnit hv] at hu
    exact .inl ⟨rfl, hu⟩
  · rw [RunState.unit_setUnit_ne huv] at hu
    exact .inr ⟨huv, hu⟩

/-- **A step changes a unit of work in one of four ways.** -/
theorem Moves.unitChange (hm : Moves s req ans s') (hu : s'.unit u = some unit') :
    UnitChange s req ans u unit' := by
  cases hm with
  | appended _ _ _ _ _ _ _ _ _ units
  | appendRefused _ _ _ _ _ units =>
    rw [RunState.unit, units] at hu
    exact .kept hu (by simp [StagesIn]) (by simp [ConfirmsIn])
  | begun =>
    rcases unit_begun hu with hold | ⟨hle, hfresh⟩
    · exact .kept hold (by simp [StagesIn]) (by simp [ConfirmsIn])
    · exact .begun hle hfresh (by simp [StagesIn]) (by simp [ConfirmsIn])
  | staged _ unit args k n opened key =>
    rcases unit_of_setUnit opened hu with ⟨rfl, hx⟩ | ⟨hne, hold⟩
    · exact .staged unit args k n opened rfl rfl key (Option.some.inj hx).symm
    · exact .kept hold (by simp [StagesIn, Ne.symm hne]) (by simp [ConfirmsIn])
  | confirmed _ unit receipt opened reconciled =>
    rcases unit_of_setUnit opened hu with ⟨rfl, hx⟩ | ⟨hne, hold⟩
    · exact .confirmed unit receipt opened rfl rfl reconciled (Option.some.inj hx).symm
    · exact .kept hold (by simp [StagesIn]) (by simp [ConfirmsIn, Ne.symm hne])
  | committed v _ opened =>
    have hu' : (s.setUnit v none).unit u = some unit' := hu
    rcases unit_of_setUnit opened hu' with ⟨_, hx⟩ | ⟨_, hold⟩
    · cases hx
    · exact .kept hold (by simp [StagesIn]) (by simp [ConfirmsIn])
  | dropped _ _ opened =>
    rcases unit_of_setUnit opened hu with ⟨_, hx⟩ | ⟨_, hold⟩
    · cases hx
    · exact .kept hold (by simp [StagesIn]) (by simp [ConfirmsIn])
  | _ => exact .kept hu (by simp [StagesIn]) (by simp [ConfirmsIn])

theorem Moves.units_length_le (hm : Moves s req ans s') : s.units.length ≤ s'.units.length := by
  cases hm with
  | appended _ _ _ _ _ _ _ _ _ units
  | appendRefused _ _ _ _ _ units => rw [units]
  | _ => simp [RunState.setUnit]

end

end EgoRs.EventStore
