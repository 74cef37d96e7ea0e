import EgoRs.Framework.AssocMap
import EgoRs.Framework.Machine
import EgoRs.Operation.Reservation

/-! # The In-Memory Reservation Store

`InMemoryOperationReservationStore` of
`persistence-memory/src/operation/reservation.rs`. Every method takes the
one mutex, reads the clock inside it and answers, so a run of the store
is a sequence of calls each with its own clock reading, and the store is
a `Machine`.

The map is an association list with distinct keys. A `HashMap` is
iterated in an order nobody promises, which only `purge_completed_before`
can observe: the order is part of that call's input.

`Step` says once what a call can do to the map; what is proved about runs
is proved from it and not from the functions.
-/

namespace EgoRs.Memory

open Framework

/-! ## Records -/

inductive RecordState where
  /-- A lease is held, or was and has expired. -/
  | inProgress (ownerId : OwnerId) (fencingToken : FencingToken) (leaseUntil : Timestamp)
  /-- Completed, with the response to replay. -/
  | completed (response : StoredServiceResponse) (completedAt : Timestamp)
  deriving DecidableEq

structure Record where
  fingerprint : OperationFingerprint
  state : RecordState
  deriving DecidableEq

/-- `HashMap<OperationId, Record>`. -/
abbrev Records : Type := AList (fun _ : OperationId => Record)

/-- An iteration order of the map's keys. -/
structure IterOrder where
  arrange : List OperationId → List OperationId
  perm : ∀ l, (arrange l).Perm l

def IterOrder.stored : IterOrder := ⟨id, fun _ => .refl _⟩

/-! ## The five methods -/

section
variable (records : Records) (now : Timestamp)

def reserve (req : ReserveRequest) : Records × Except ReservationError ReservationOutcome :=
  let id := req.operationId
  match records.lookup id with
  | none =>
    (records.insert id
        { fingerprint := req.fingerprint
          state := .inProgress req.ownerId .initial req.leaseUntil },
      .ok (.fresh
        { operationId := id, ownerId := req.ownerId
          fencingToken := .initial, leaseUntil := req.leaseUntil }))
  | some record =>
    -- before anything else, whatever the lease or the completion says
    if record.fingerprint ≠ req.fingerprint then (records, .ok .conflict)
    else
      match record.state with
      | .inProgress ownerId fencingToken leaseUntil =>
        if leaseUntil ≤ now then
          match fencingToken.next with
          | none => (records, .error .fencingExhausted)
          | some newToken =>
            (records.insert id
                { fingerprint := record.fingerprint
                  state := .inProgress req.ownerId newToken req.leaseUntil },
              .ok (.takenOver
                { operationId := id, ownerId := req.ownerId
                  fencingToken := newToken, leaseUntil := req.leaseUntil }))
        else if ownerId = req.ownerId then
          (records, .ok (.ownedInProgress
            { operationId := id, ownerId := ownerId
              fencingToken := fencingToken, leaseUntil := leaseUntil }))
        else (records, .ok .otherInProgress)
      | .completed response _ => (records, .ok (.succeeded response))

/-- The guard of the three mutators: in progress under exactly this owner and
token, with the lease still live. -/
def RecordState.heldBy (fence : OwnerFence) (now : Timestamp) : RecordState → Bool
  | .inProgress ownerId fencingToken leaseUntil =>
    decide (ownerId = fence.ownerId) && decide (fencingToken = fence.fencingToken) &&
      decide (now < leaseUntil)
  | .completed _ _ => false

/-- The shape the three mutators share: `act` on the record when the fence
holds it, else `StaleOwner` and nothing. -/
def mutate (fence : OwnerFence) (act : Record → Records) : Records × Except ReservationError Unit :=
  match records.lookup fence.operationId with
  | some record =>
    if record.state.heldBy fence now then (act record, .ok ()) else (records, .error .staleOwner)
  | none => (records, .error .staleOwner)

def renew (fence : OwnerFence) (until' : Timestamp) : Records × Except ReservationError Unit :=
  mutate records now fence fun record =>
    records.insert fence.operationId
      { record with state := .inProgress fence.ownerId fence.fencingToken until' }

def complete (fence : OwnerFence) (response : StoredServiceResponse) :
    Records × Except ReservationError Unit :=
  mutate records now fence fun record =>
    records.insert fence.operationId
      { fingerprint := record.fingerprint, state := .completed response now }

def abandon (fence : OwnerFence) : Records × Except ReservationError Unit :=
  mutate records now fence fun _ => records.erase fence.operationId

/-- Completed strictly before `cutoff`. -/
def RecordState.purgeable (cutoff : Timestamp) : RecordState → Bool
  | .completed _ completedAt => decide (completedAt < cutoff)
  | .inProgress _ _ _ => false

/-- Whether the map holds a purgeable record under `id`. -/
def eligible (cutoff : Timestamp) (id : OperationId) : Bool :=
  match records.lookup id with
  | some record => record.state.purgeable cutoff
  | none => false

/-- The first `batch` eligible ids, in iteration order. -/
def purgeBatch (order : IterOrder) (cutoff : Timestamp) (batch : Nat) : List OperationId :=
  ((order.arrange records.keys).filter (eligible records cutoff)).take batch

/-- `for id in &eligible { records.remove(id) }`. -/
def removeAll (ids : List OperationId) : Records :=
  ids.foldl (fun m id => m.erase id) records

def purgeCompletedBefore (order : IterOrder) (cutoff : Timestamp) (batch : Nat) : Records × Nat :=
  let ids := purgeBatch records order cutoff batch
  (removeAll records ids, ids.length)

end

/-! ## The machine -/

/-- One call, with the clock reading taken under the lock and the iteration
order of the map at that moment. -/
structure Input where
  now : Timestamp
  call : Call
  order : IterOrder := IterOrder.stored

def replyOf : Except ReservationError Unit → Reply
  | .ok () => .done
  | .error e => .failed e

def execute (records : Records) (i : Input) : Records × Reply :=
  match i.call with
  | .reserve req =>
    match reserve records i.now req with
    | (records', .ok o) => (records', .outcome o)
    | (records', .error e) => (records', .failed e)
  | .renew fence until' => (renew records i.now fence until').map id replyOf
  | .complete fence response => (complete records i.now fence response).map id replyOf
  | .abandon fence => (abandon records i.now fence).map id replyOf
  | .purgeCompletedBefore cutoff batch =>
    (purgeCompletedBefore records i.order cutoff batch).map id .purged

def store : Machine Records Input Reply where
  init := ∅
  step := execute

abbrev History : Type := List (Transition Records Input Reply)

def ClockMonotone (h : History) : Prop :=
  (h.map fun t => t.input.now).Pairwise (· ≤ ·)

instance (h : History) : Decidable (ClockMonotone h) :=
  inferInstanceAs (Decidable (List.Pairwise _ _))

/-! ## What a call can do -/

theorem lookup_removeAll (ids : List OperationId) (records : Records) (a : OperationId) :
    (removeAll records ids).lookup a = if a ∈ ids then none else records.lookup a :=
  lookup_foldl_erase ids records a

section
variable (records : Records) (now : Timestamp)

/-- The effect of one call on the map and its reply, one constructor for each
way through the code. -/
inductive Step : Call → Records → Reply → Prop where
  | fresh (req : ReserveRequest) (habs : records.lookup req.operationId = none) :
      Step (.reserve req) (records.insert req.operationId
          ⟨req.fingerprint, .inProgress req.ownerId .initial req.leaseUntil⟩)
        (.outcome (.fresh ⟨req.operationId, req.ownerId, .initial, req.leaseUntil⟩))
  | conflict (req : ReserveRequest) (record : Record)
      (hrec : records.lookup req.operationId = some record)
      (hfp : record.fingerprint ≠ req.fingerprint) :
      Step (.reserve req) records (.outcome .conflict)
  | exhausted (req : ReserveRequest) (owner : OwnerId) (token : FencingToken) (lease : Timestamp)
      (hrec : records.lookup req.operationId =
        some ⟨req.fingerprint, .inProgress owner token lease⟩)
      (hexp : lease ≤ now) (hnext : token.next = none) :
      Step (.reserve req) records (.failed .fencingExhausted)
  | takenOver (req : ReserveRequest) (owner : OwnerId) (token token' : FencingToken)
      (lease : Timestamp)
      (hrec : records.lookup req.operationId =
        some ⟨req.fingerprint, .inProgress owner token lease⟩)
      (hexp : lease ≤ now) (hnext : token.next = some token') : Step (.reserve req)
        (records.insert req.operationId
          ⟨req.fingerprint, .inProgress req.ownerId token' req.leaseUntil⟩)
        (.outcome (.takenOver ⟨req.operationId, req.ownerId, token', req.leaseUntil⟩))
  | owned (req : ReserveRequest) (token : FencingToken) (lease : Timestamp)
      (hrec : records.lookup req.operationId =
        some ⟨req.fingerprint, .inProgress req.ownerId token lease⟩)
      (hlive : now < lease) : Step (.reserve req) records
        (.outcome (.ownedInProgress ⟨req.operationId, req.ownerId, token, lease⟩))
  | other (req : ReserveRequest) (owner : OwnerId) (token : FencingToken) (lease : Timestamp)
      (hrec : records.lookup req.operationId =
        some ⟨req.fingerprint, .inProgress owner token lease⟩)
      (hlive : now < lease) (howner : owner ≠ req.ownerId) :
      Step (.reserve req) records (.outcome .otherInProgress)
  | succeeded (req : ReserveRequest) (response : StoredServiceResponse) (at' : Timestamp)
      (hrec : records.lookup req.operationId = some ⟨req.fingerprint, .completed response at'⟩) :
      Step (.reserve req) records (.outcome (.succeeded response))
  | renewed (fence : OwnerFence) (until' : Timestamp) (fp : OperationFingerprint)
      (lease : Timestamp)
      (hrec : records.lookup fence.operationId =
        some ⟨fp, .inProgress fence.ownerId fence.fencingToken lease⟩)
      (hlive : now < lease) : Step (.renew fence until')
        (records.insert fence.operationId
          ⟨fp, .inProgress fence.ownerId fence.fencingToken until'⟩) .done
  | completed (fence : OwnerFence) (response : StoredServiceResponse)
      (fp : OperationFingerprint) (lease : Timestamp)
      (hrec : records.lookup fence.operationId =
        some ⟨fp, .inProgress fence.ownerId fence.fencingToken lease⟩)
      (hlive : now < lease) : Step (.complete fence response)
        (records.insert fence.operationId ⟨fp, .completed response now⟩) .done
  | abandoned (fence : OwnerFence) (fp : OperationFingerprint) (lease : Timestamp)
      (hrec : records.lookup fence.operationId =
        some ⟨fp, .inProgress fence.ownerId fence.fencingToken lease⟩)
      (hlive : now < lease) : Step (.abandon fence) (records.erase fence.operationId) .done
  | stale (call : Call) (fence : OwnerFence) (hcall : call.fence? = some fence)
      (hnot : ∀ fp lease, records.lookup fence.operationId =
        some ⟨fp, .inProgress fence.ownerId fence.fencingToken lease⟩ → lease ≤ now) :
      Step call records (.failed .staleOwner)
  | purged (cutoff : Timestamp) (batch : Nat) (ids : List OperationId)
      (hnodup : ids.Nodup) (hlen : ids.length ≤ batch)
      (helig : ∀ id ∈ ids, ∃ fp response at',
        records.lookup id = some ⟨fp, .completed response at'⟩ ∧ at' < cutoff) :
      Step (.purgeCompletedBefore cutoff batch) (removeAll records ids) (.purged ids.length)

end

theorem heldBy_iff (fence : OwnerFence) (now : Timestamp) (record : Record) :
    record.state.heldBy fence now = true ↔ ∃ lease, record = ⟨record.fingerprint,
        .inProgress fence.ownerId fence.fencingToken lease⟩ ∧ now < lease := by
  obtain ⟨fp, state⟩ := record
  cases state with
  | completed => simp [RecordState.heldBy]
  | inProgress _ _ lease =>
    simp only [RecordState.heldBy, Bool.and_eq_true, decide_eq_true_eq]
    constructor
    · rintro ⟨⟨rfl, rfl⟩, hlive⟩
      exact ⟨lease, rfl, hlive⟩
    · rintro ⟨lease', heq, hlive⟩
      simp only [Record.mk.injEq, RecordState.inProgress.injEq, true_and] at heq
      obtain ⟨rfl, rfl, rfl⟩ := heq
      exact ⟨⟨rfl, rfl⟩, hlive⟩

/-- A mutator either found the fence holding the record, with the lease live,
and acted, or it changed nothing. -/
theorem mutate_cases (records : Records) (now : Timestamp) (fence : OwnerFence)
    (act : Record → Records) : (∃ fp lease, records.lookup fence.operationId =
          some ⟨fp, .inProgress fence.ownerId fence.fencingToken lease⟩ ∧ now < lease ∧
        mutate records now fence act =
          (act ⟨fp, .inProgress fence.ownerId fence.fencingToken lease⟩, .ok ())) ∨
    ((∀ fp lease, records.lookup fence.operationId =
          some ⟨fp, .inProgress fence.ownerId fence.fencingToken lease⟩ → lease ≤ now) ∧
        mutate records now fence act = (records, .error .staleOwner)) := by
  unfold mutate
  cases hrec : records.lookup fence.operationId with
  | none =>
    right
    exact ⟨by simp, rfl⟩
  | some record =>
    by_cases hheld : record.state.heldBy fence now = true
    · left
      obtain ⟨lease, heq, hlive⟩ := (heldBy_iff fence now record).mp hheld
      refine ⟨record.fingerprint, lease, by rw [← heq], hlive, ?_⟩
      simp only [hheld, if_true]
      rw [← heq]
    · right
      refine ⟨?_, by simp [hheld]⟩
      intro fp lease heq
      by_contra hlt
      apply hheld
      rw [heldBy_iff]
      simp only [Option.some.injEq] at heq
      exact ⟨lease, by rw [heq], Int.not_le.mp hlt⟩

theorem eligible_iff (records : Records) (cutoff : Timestamp) (id : OperationId) :
    eligible records cutoff id = true ↔
      ∃ fp response at', records.lookup id = some ⟨fp, .completed response at'⟩ ∧ at' < cutoff := by
  unfold eligible
  cases hrec : records.lookup id with
  | none => simp
  | some record =>
    obtain ⟨fp, state⟩ := record
    cases state with
    | inProgress => simp [RecordState.purgeable]
    | completed response at' =>
      simp only [RecordState.purgeable, decide_eq_true_eq, Option.some.injEq, Record.mk.injEq,
        RecordState.completed.injEq]
      constructor
      · intro hlt
        exact ⟨fp, response, at', ⟨rfl, rfl, rfl⟩, hlt⟩
      · rintro ⟨_, _, _, ⟨_, _, rfl⟩, hlt⟩
        exact hlt

theorem purgeBatch_nodup (records : Records) (order : IterOrder) (cutoff : Timestamp)
    (batch : Nat) : (purgeBatch records order cutoff batch).Nodup := by
  unfold purgeBatch
  have hkeys : (order.arrange records.keys).Nodup :=
    (order.perm records.keys).nodup_iff.mpr records.keys_nodup
  exact ((hkeys.filter _).sublist (List.take_sublist _ _))

variable {records : Records} {cutoff : Timestamp}

theorem mem_purgeBatch {order : IterOrder} {batch : Nat} {id : OperationId}
    (h : id ∈ purgeBatch records order cutoff batch) : eligible records cutoff id = true :=
  (List.mem_filter.mp (List.mem_of_mem_take h)).2

theorem reserve_step (records : Records) (now : Timestamp) (req : ReserveRequest)
    (order : IterOrder) :
    Step records now (.reserve req) (execute records ⟨now, .reserve req, order⟩).1
      (execute records ⟨now, .reserve req, order⟩).2 := by
  simp only [execute, reserve]
  cases hrec : records.lookup req.operationId with
  | none => exact .fresh req hrec
  | some record =>
    obtain ⟨fp, state⟩ := record
    by_cases hfp : fp = req.fingerprint
    · subst hfp
      simp only [ne_eq, not_true_eq_false, if_false]
      cases state with
      | completed response at' => exact .succeeded req response at' hrec
      | inProgress owner token lease =>
        by_cases hexp : lease ≤ now
        · simp only [hexp, if_true]
          cases hnext : token.next with
          | none => exact .exhausted req owner token lease hrec hexp hnext
          | some token' => exact .takenOver req owner token token' lease hrec hexp hnext
        · have hlive : now < lease := Int.not_le.mp hexp
          simp only [hexp, if_false]
          by_cases howner : owner = req.ownerId
          · subst howner
            simp only [if_true]
            exact .owned req token lease hrec hlive
          · simp only [howner, if_false]
            exact .other req owner token lease hrec hlive howner
    · simp only [ne_eq, hfp, not_false_eq_true, if_true]
      exact .conflict req ⟨fp, state⟩ hrec hfp

/-- Every call the store executes is one of the `Step`s. -/
theorem execute_step (records : Records) (i : Input) :
    Step records i.now i.call (execute records i).1 (execute records i).2 := by
  obtain ⟨now, call, order⟩ := i
  cases call with
  | reserve req => exact reserve_step records now req order
  | renew fence until' =>
    simp only [execute, renew]
    rcases mutate_cases records now fence _ with ⟨fp, lease, hrec, hlive, heq⟩ | ⟨hnot, heq⟩
    · rw [heq]
      exact .renewed fence until' fp lease hrec hlive
    · rw [heq]
      exact .stale _ fence rfl hnot
  | complete fence response =>
    simp only [execute, complete]
    rcases mutate_cases records now fence _ with ⟨fp, lease, hrec, hlive, heq⟩ | ⟨hnot, heq⟩
    · rw [heq]
      exact .completed fence response fp lease hrec hlive
    · rw [heq]
      exact .stale _ fence rfl hnot
  | abandon fence =>
    simp only [execute, abandon]
    rcases mutate_cases records now fence _ with ⟨fp, lease, hrec, hlive, heq⟩ | ⟨hnot, heq⟩
    · rw [heq]
      exact .abandoned fence fp lease hrec hlive
    · rw [heq]
      exact .stale _ fence rfl hnot
  | purgeCompletedBefore cutoff batch =>
    refine .purged cutoff batch (purgeBatch records order cutoff batch)
      (purgeBatch_nodup records order cutoff batch) ?_ ?_
    · exact List.length_take_le _ _
    · intro id hid
      exact (eligible_iff records cutoff id).mp (mem_purgeBatch hid)

/-- The `Step` of a transition in a history of the store. -/
theorem step_of_fire {t : Transition Records Input Reply} (h : t = store.fire t.pre t.input) :
    Step t.pre t.input.now t.input.call t.post t.output := by
  rw [h]
  exact execute_step t.pre t.input

/-! ## Which batches a purge may take

Any full batch of eligible ids, since the map may be iterated in any order. -/

/-- The order that takes the ids of `ids` first. -/
def IterOrder.front (ids : List OperationId) : IterOrder where
  arrange := fun l => l.filter (· ∈ ids) ++ l.filter (fun id => !decide (id ∈ ids))
  perm := fun l => l.filter_append_perm (fun id => decide (id ∈ ids))

/-- Chosen ids: eligible ones, as many as the batch allows. -/
structure Chosen (records : Records) (cutoff : Timestamp) (batch : Nat)
    (ids : List OperationId) : Prop where
  nodup : ids.Nodup
  allowed : ∀ id ∈ ids, eligible records cutoff id = true
  /-- The batch is full, or nothing eligible is left. -/
  full : ids.length = batch ∨
    ids.length ≤ batch ∧ ∀ id, eligible records cutoff id = true → id ∈ ids

theorem mem_keys_of_eligible {id : OperationId} (h : eligible records cutoff id = true) :
    id ∈ records.keys := by
  obtain ⟨_, _, _, hrec, _⟩ := (eligible_iff records cutoff id).mp h
  exact AList.mem_keys.mp (AList.lookup_isSome.mp (by rw [hrec]; rfl))

/-- Iterated in that order, the map yields the chosen ids as its batch. -/
theorem purgeBatch_front {batch : Nat} {ids : List OperationId}
    (hc : Chosen records cutoff batch ids) :
    (purgeBatch records (.front ids) cutoff batch).Perm ids := by
  have hsame : (records.keys.filter (· ∈ ids)).Perm ids := by
    rw [List.perm_ext_iff_of_nodup (records.keys_nodup.filter _) hc.nodup]
    intro id
    simp only [List.mem_filter, decide_eq_true_eq]
    exact ⟨And.right, fun hid => ⟨mem_keys_of_eligible (hc.allowed id hid), hid⟩⟩
  have hfront : (records.keys.filter (· ∈ ids)).filter (eligible records cutoff) =
      records.keys.filter (· ∈ ids) := by
    rw [List.filter_eq_self]
    intro id hid
    exact hc.allowed id (by simpa using (List.mem_filter.mp hid).2)
  have hbatch : purgeBatch records (.front ids) cutoff batch =
      records.keys.filter (· ∈ ids) := by
    unfold purgeBatch IterOrder.front
    simp only [List.filter_append, hfront]
    rcases hc.full with hlen | ⟨hlen, hall⟩
    · exact List.take_left' (hsame.length_eq.trans hlen)
    · -- nothing eligible is left behind the chosen ids
      have hrest : (records.keys.filter fun id => !decide (id ∈ ids)).filter
          (eligible records cutoff) = [] := by
        rw [List.filter_eq_nil_iff]
        intro id hid helig
        have hnot := (List.mem_filter.mp hid).2
        simp [hall id helig] at hnot
      rw [hrest, List.append_nil]
      exact List.take_of_length_le (by rw [hsame.length_eq]; exact hlen)
  rw [hbatch]
  exact hsame

end EgoRs.Memory
