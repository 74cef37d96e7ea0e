import EgoRs.Effects.EffectStore
import EgoRs.Framework.Machine

/-! # Calls on an Effect Store

The two ports of `runtime/src/effects/store.rs`, `EffectStateStore` and
`EffectDedupStore`, as calls and answers, and what a sequence of calls on
`InMemoryEffectStore` does to its effects over its whole life.
-/

namespace EgoRs.Effects

open Framework

/-! ## The ports -/

/-- A call on one of the two ports. -/
inductive PortCall where
  | accept (effect : AcceptedEffect)
  | markInFlight (id : EffectId)
  | markSucceeded (id : EffectId)
  | markRetryable (id : EffectId) (attempt : Nat) (nextAt : Timestamp)
  | markTerminal (id : EffectId) (reason : TerminalReason)
  | claimDue (now : Timestamp) (limit : Nat)
  | recoverInFlight (now : Timestamp)
  | reserve (scope : DedupScope) (effectId : EffectId) (fingerprint : EffectFingerprint)
  | commitSuccess (scope : DedupScope)
  | release (scope : DedupScope)

inductive PortAnswer where
  | done (result : Except EffectStoreError Unit)
  | claimed (result : Except EffectStoreError (List StoredEffect))
  | recovered (result : Except EffectStoreError Nat)
  | reserved (result : Except EffectStoreError DedupOutcome)

def PortAnswer.isErr : PortAnswer → Bool
  | .done (.error _) | .claimed (.error _) | .recovered (.error _) | .reserved (.error _) => true
  | _ => false

/-- What a store returned, as an answer of the ports. -/
def answering {σ α : Type} (answer : α → PortAnswer) (result : σ × α) : σ × PortAnswer :=
  (result.1, answer result.2)

/-- What a store meets besides the call: the order it finds its effects in, how
it sorts NULL and what it makes of a negative LIMIT, the wall clock, and the
reading of its own clock. -/
structure Environment where
  order : IterOrder
  nullsFirst : Bool
  negativeLimit : Except EffectStoreError (List StoredEffect)
  wall : Timestamp
  clock : Timestamp

structure PortInput where
  call : PortCall
  env : Environment

/-! ## The in-memory store as a machine -/

namespace InMemoryEffectStore

/-- An effect that was in flight, after `recover_in_flight`. -/
def recoveredRecord (now : Timestamp) (record : EffectRecord) : EffectRecord :=
  if record.state = .inFlight then { record with state := .pending, nextAt := some now } else record

def recoverInFlight (store : InMemoryEffectStore) (now : Timestamp) :
    InMemoryEffectStore × Except EffectStoreError Nat :=
  ({ store with states := mapValues (recoveredRecord now) store.states },
    .ok (store.states.entries.countP fun e => decide (e.2.state = .inFlight)))

def serve (store : InMemoryEffectStore) (input : PortInput) : InMemoryEffectStore × PortAnswer :=
  match input.call with
  | .accept effect => answering .done (store.accept effect)
  | .markInFlight id => answering .done (store.markInFlight id)
  | .markSucceeded id => answering .done (store.markSucceeded id)
  | .markRetryable id attempt nextAt => answering .done (store.markRetryable id attempt nextAt)
  | .markTerminal id reason => answering .done (store.markTerminal id reason)
  | .claimDue now limit => (store, .claimed (.ok (store.claimDue now limit input.env.order)))
  | .recoverInFlight now => answering .recovered (store.recoverInFlight now)
  | .reserve scope effectId fingerprint =>
    answering .reserved (store.reserve scope effectId fingerprint)
  | .commitSuccess scope => answering .done (store.commitSuccess scope)
  | .release scope => answering .done (store.release scope)

end InMemoryEffectStore

/-- `InMemoryEffectStore` behind the ports. -/
def memoryPort : Machine InMemoryEffectStore PortInput PortAnswer where
  init := .new
  step := InMemoryEffectStore.serve

abbrev MemoryEvent : Type := Transition InMemoryEffectStore PortInput PortAnswer

abbrev MemoryHistory : Type := List MemoryEvent

/-! ## The life of an effect -/

/-- An effect that is never delivered again. -/
def EffectRecord.settled (record : EffectRecord) : Bool :=
  decide (record.state = .succeeded ∨ record.state = .terminalFailed)

/-- What may become of a record: it keeps what it was accepted with, and once
it is settled it keeps everything. -/
structure EffectRecord.Ages (record record' : EffectRecord) : Prop where
  tenant : record'.tenant = record.tenant
  description : record'.description = record.description
  absorbing : record.settled = true → record' = record

namespace EffectRecord.Ages
variable {a b c : EffectRecord}

theorem refl (a : EffectRecord) : a.Ages a := ⟨rfl, rfl, fun _ => rfl⟩

theorem trans (h : a.Ages b) (h' : b.Ages c) : a.Ages c where
  tenant := h'.tenant.trans h.tenant
  description := h'.description.trans h.description
  absorbing hs := by
    have hb := h.absorbing hs
    subst hb
    exact h'.absorbing hs

end EffectRecord.Ages

def StatesAge (store store' : InMemoryEffectStore) : Prop :=
  ∀ id record, store.states.lookup id = some record →
    ∃ record', store'.states.lookup id = some record' ∧ record.Ages record'

theorem StatesAge.refl (store : InMemoryEffectStore) : StatesAge store store :=
  fun _ record h => ⟨record, h, .refl record⟩

theorem StatesAge.trans {a b c : InMemoryEffectStore} (h : StatesAge a b) (h' : StatesAge b c) :
    StatesAge a c := by
  intro id record hat
  obtain ⟨record', hat', hages⟩ := h id record hat
  obtain ⟨record'', hat'', hages'⟩ := h' id record' hat'
  exact ⟨record'', hat'', hages.trans hages'⟩

variable {store store' : InMemoryEffectStore}

theorem statesAge_of_states (h : store'.states = store.states) : StatesAge store store' := by
  intro id record hat
  exact ⟨record, by rw [h]; exact hat, .refl record⟩

theorem statesAge_put {id : EffectId} {old new : EffectRecord}
    (hat : store.states.lookup id = some old) (hages : old.Ages new) :
    StatesAge store (store.put id new) := by
  intro other record hother
  by_cases ho : other = id
  · subst ho
    rw [hat] at hother
    cases hother
    exact ⟨new, store.lookup_put_self other new, hages⟩
  · rw [store.lookup_put_ne new ho]
    exact ⟨record, hother, .refl record⟩

section
open InMemoryEffectStore
variable (store : InMemoryEffectStore)

/-- A transition goes through, from an allowed state, or is refused and changes
nothing. -/
theorem mark_cases (id : EffectId) (allowedFrom : List EffectState) (target : EffectState)
    (update : EffectRecord → EffectRecord) :
    (∃ record, store.states.lookup id = some record ∧ record.state ∈ allowedFrom ∧
        store.mark id allowedFrom target update =
          (store.put id (update { record with state := target }), .ok ())) ∨
      ∃ e, store.mark id allowedFrom target update = (store, .error e) ∧
        ∀ record, store.states.lookup id = some record → record.state ∉ allowedFrom := by
  by_cases hallowed : ∃ record, store.states.lookup id = some record ∧ record.state ∈ allowedFrom
  · obtain ⟨record, hat, hstate⟩ := hallowed
    exact .inl ⟨record, hat, hstate, mark_of_allowed target update hat hstate⟩
  · have hno : ∀ record, store.states.lookup id = some record → record.state ∉ allowedFrom := by
      intro record hat hstate
      exact hallowed ⟨record, hat, hstate⟩
    obtain ⟨e, heq, _⟩ := mark_of_not_allowed target update hno
    exact .inr ⟨e, heq, hno⟩

variable {allowedFrom : List EffectState} {update : EffectRecord → EffectRecord}

theorem mark_ages (id : EffectId) (target : EffectState) (hopen : .succeeded ∉ allowedFrom)
    (hopen' : .terminalFailed ∉ allowedFrom)
    (hkeeps : ∀ record, (update record).tenant = record.tenant ∧
      (update record).description = record.description) :
    StatesAge store (store.mark id allowedFrom target update).1 := by
  rcases mark_cases store id allowedFrom target update with ⟨record, hat, hstate, heq⟩ | ⟨e, heq, _⟩
  · rw [heq]
    refine statesAge_put hat ⟨(hkeeps _).1, (hkeeps _).2, ?_⟩
    -- an effect in one of these states is not settled
    intro hsettled
    rcases of_decide_eq_true hsettled with hs | hs
    · rw [hs] at hstate
      exact absurd hstate hopen
    · rw [hs] at hstate
      exact absurd hstate hopen'
  · rw [heq]
    exact .refl store

/-- `accept` enters a new effect, or changes nothing. -/
theorem memory_accept_cases (effect : AcceptedEffect) : (store.states.lookup effect.id = none ∧
        store.accept effect =
          (store.put effect.id ⟨effect.tenant, effect.description, .pending, effect.attempt, none,
            none⟩, .ok ())) ∨
      ∃ record, store.states.lookup effect.id = some record ∧ (store.accept effect).1 = store ∧
        ((store.accept effect).2 = .ok () ↔
          record.tenant = effect.tenant ∧ record.description = effect.description) := by
  unfold InMemoryEffectStore.accept
  cases hat : store.states.lookup effect.id with
  | none => exact .inl ⟨rfl, rfl⟩
  | some record =>
    right
    refine ⟨record, rfl, ?_, ?_⟩
    · dsimp only
      split_ifs <;> rfl
    · dsimp only
      split_ifs with hsame
      · simpa using hsame
      · simpa using hsame

theorem accept_ages (effect : AcceptedEffect) : StatesAge store (store.accept effect).1 := by
  rcases memory_accept_cases store effect with ⟨hnone, heq⟩ | ⟨_, _, hkeep, _⟩
  · rw [heq]
    intro id record hat
    have hne : id ≠ effect.id := by
      rintro rfl
      rw [hnone] at hat
      cases hat
    rw [store.lookup_put_ne _ hne]
    exact ⟨record, hat, .refl record⟩
  · rw [hkeep]
    exact .refl store

theorem recoverInFlight_ages (now : Timestamp) : StatesAge store (store.recoverInFlight now).1 := by
  intro id record hat
  have hafter : (store.recoverInFlight now).1.states.lookup id =
      some (recoveredRecord now record) := by
    show (mapValues (recoveredRecord now) store.states).lookup id = _
    rw [lookup_mapValues, hat]
    rfl
  refine ⟨_, hafter, ?_⟩
  unfold recoveredRecord
  split_ifs with hflight
  · refine ⟨rfl, rfl, ?_⟩
    intro hsettled
    simp [EffectRecord.settled, hflight] at hsettled
  · exact .refl record

theorem reserve_states (scope : DedupScope) (effectId : EffectId)
    (fingerprint : EffectFingerprint) :
    (store.reserve scope effectId fingerprint).1.states = store.states := by
  unfold InMemoryEffectStore.reserve
  cases store.dedup.lookup scope with
  | none => rfl
  | some =>
    dsimp only
    split_ifs <;> rfl

theorem serve_ages (input : PortInput) : StatesAge store (store.serve input).1 := by
  unfold InMemoryEffectStore.serve
  cases input.call with
  | accept effect => exact accept_ages store effect
  | markInFlight id | markSucceeded id | markRetryable id | markTerminal id =>
    exact mark_ages store id _ (by decide) (by decide) fun _ => ⟨rfl, rfl⟩
  | claimDue => exact .refl store
  | recoverInFlight now => exact recoverInFlight_ages store now
  | reserve scope effectId fingerprint =>
    exact statesAge_of_states (reserve_states store scope effectId fingerprint)
  | commitSuccess scope =>
    apply statesAge_of_states
    show (store.commitSuccess scope).1.states = store.states
    unfold InMemoryEffectStore.commitSuccess
    split <;> rfl
  | release => exact statesAge_of_states rfl

theorem mark_err {id : EffectId} {target : EffectState}
    (h : (PortAnswer.done (store.mark id allowedFrom target update).2).isErr = true) :
    (store.mark id allowedFrom target update).1 = store := by
  rcases mark_cases store id allowedFrom target update with ⟨_, _, _, heq⟩ | ⟨_, heq, _⟩
  · rw [heq] at h
    cases h
  · rw [heq]

/-- A call that returns an error changes nothing. -/
theorem serve_err {input : PortInput} (h : (store.serve input).2.isErr = true) :
    (store.serve input).1 = store := by
  obtain ⟨call, env⟩ := input
  cases call with
  | accept effect =>
    have herr : (PortAnswer.done (store.accept effect).2).isErr = true := h
    rcases memory_accept_cases store effect with ⟨_, heq⟩ | ⟨_, _, hkeep, _⟩
    · rw [heq] at herr
      cases herr
    · exact hkeep
  | markInFlight | markSucceeded | markRetryable | markTerminal => exact mark_err store h
  | claimDue => rfl
  | recoverInFlight | release => cases h
  | reserve scope effectId fingerprint =>
    show (store.reserve scope effectId fingerprint).1 = store
    have herr : (PortAnswer.reserved (store.reserve scope effectId fingerprint).2).isErr = true := h
    unfold InMemoryEffectStore.reserve at herr ⊢
    cases hat : store.dedup.lookup scope with
    | none =>
      rw [hat] at herr
      cases herr
    | some =>
      dsimp only
      split_ifs <;> rfl
  | commitSuccess scope =>
    have herr : (PortAnswer.done (store.commitSuccess scope).2).isErr = true := h
    unfold InMemoryEffectStore.commitSuccess at herr
    split at herr <;> cases herr

end

/-! ## What is claimed -/

def InMemoryEffectStore.allDue (store : InMemoryEffectStore) (now : Timestamp) :
    List StoredEffect :=
  store.states.keys.filterMap fun id =>
    match store.states.lookup id with
    | some record => if record.due now then some (record.stored id now) else none
    | none => none

/-- As many of `all` as fit below `limit`, in any order and each once. -/
def Selects (limit : Nat) (all chosen : List StoredEffect) : Prop :=
  ∃ arranged : List StoredEffect, arranged.Perm all ∧ arranged.take limit = chosen

theorem selects_claimDue (store : InMemoryEffectStore) (now : Timestamp) (limit : Nat)
    (order : IterOrder) : Selects limit (store.allDue now) (store.claimDue now limit order) :=
  ⟨_, (order.perm store.states.keys).filterMap _, rfl⟩

variable {all chosen : List StoredEffect}

theorem Selects.length_le {limit : Nat} (h : Selects limit all chosen) : chosen.length ≤ limit := by
  obtain ⟨arranged, _, rfl⟩ := h
  exact List.length_take_le limit arranged

/-- Where the limit is not reached, everything is chosen. -/
theorem Selects.perm {limit : Nat} (h : Selects limit all chosen)
    (hlimit : all.length ≤ limit) : chosen.Perm all := by
  obtain ⟨arranged, hperm, rfl⟩ := h
  rw [List.take_of_length_le (by rw [hperm.length_eq]; exact hlimit)]
  exact hperm

/-! ## Whole runs -/

/-- An `accept` that returned `Ok` leaves the effect in the store. -/
theorem accepted_present {effect : AcceptedEffect} (hok : (store.accept effect).2 = .ok ()) :
    ∃ record, (store.accept effect).1.states.lookup effect.id = some record ∧
      record.tenant = effect.tenant ∧ record.description = effect.description := by
  rcases memory_accept_cases store effect with ⟨_, heq⟩ | ⟨record, hat, hkeep, hiff⟩
  · rw [heq]
    exact ⟨_, store.lookup_put_self effect.id _, rfl, rfl⟩
  · rw [hkeep]
    exact ⟨record, hat, hiff.mp hok⟩

/-! ## A mail -/

def acceptedMail : AcceptedEffect := ⟨⟨"a"⟩, sampleTenant, 0, sampleMail⟩

/-- A store that finds its effects in their own order, at this time. -/
def environmentAt (clock : Timestamp) : Environment :=
  ⟨.stored, true, .error (.backend "LIMIT must not be negative"), clock, clock⟩

end EgoRs.Effects
