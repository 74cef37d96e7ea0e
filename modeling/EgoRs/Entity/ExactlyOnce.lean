import EgoRs.Entity.CommandStep

/-! # Exactly-Once Execution

A command that carries an operation identity is executed at most once for
its entity, over every run of the runtime: any commands for any entities,
any failing store calls, any crash, passivation or recovery in between.

`Completes` says when an execution counts, `ExactlyOnce` what is then
guaranteed: no second execution under the key, an answer from the receipt
for every later command, and a receipt whose range is where the events
stand.

The actor looks a receipt up under the entity's tenant string and files it
under `TenantId::new` of that string. The two agree unless the string is
blank without being empty, and exactly then the guarantee fails.
-/

namespace EgoRs.Entity

open Framework EventStore

variable {E S : Type}

/-! ## The guarantee -/

/-- `t` executed a command of `entity` to the end: its events are in the
stream, or it had none and the caller was told so. The reply may be lost
or be an error of what follows the commit. -/
def Completes (entity : EntityTriple) (identity : OperationIdentity) (events : List E)
    (t : RuntimeEvent E S) : Prop :=
  ∃ command, t.input = .command entity command ∧ command.identity = some identity ∧
    command.handled = .ok events ∧
    ((events ≠ [] ∧ t.post.facade.eventStore.streamOf entity =
        t.pre.facade.eventStore.streamOf entity ++ storedEvents events) ∨
      (events = [] ∧ ∃ outcome state, t.output = .replied outcome ∧
        outcome.reply = .noEvents state))

/-- The actor of `entity` takes the command and can read the receipts. -/
def Answerable (entity : EntityTriple) (command : Command E S) (s : RuntimeState E S) : Prop :=
  ∃ current version, s.actors entity = some ⟨some current, version, .active⟩ ∧
    command.faults.findReceipt = none

/-- `events` stand at the stream positions `a` to `b`. -/
def EventsAt (store : InMemoryEventStore E) (entity : EntityTriple) (a b : Int)
    (events : List E) : Prop :=
  ∃ before after, store.streamOf entity = before ++ storedEvents events ++ after ∧
    a = before.length + store.versionOffsets.at entity.aggregateType entity.entityId + 1 ∧
    b = before.length + store.versionOffsets.at entity.aggregateType entity.entityId +
      events.length

/-- A command is answered without the handler and without effects; where the
receipt can be read, from the receipt. -/
def AnsweredFromReceipt (entity : EntityTriple) (receipt : OperationReceipt)
    (command : Command E S) (later : OperationIdentity) (u : RuntimeEvent E S) : Prop :=
  ∃ outcome, u.output = .replied outcome ∧ outcome.handlerCalled = false ∧
    outcome.acceptedEffects = [] ∧
    (Answerable entity command u.pre →
      (later.fingerprint = receipt.fingerprint → outcome.reply = .replayed receipt.outcome) ∧
      (later.fingerprint ≠ receipt.fingerprint →
        outcome.reply = .error (.operationConflict later.key.value)))

def receiptOfRun (entity : EntityTriple) (identity : OperationIdentity) (events : List E)
    (t : RuntimeEvent E S) : OperationReceipt :=
  receiptFor entity identity (outcomeAt t.pre.facade.eventStore entity events)

/-- **Exactly-once execution** for `entity`, in the run `h` that led to `s`. -/
structure ExactlyOnce (entity : EntityTriple) (h : RuntimeHistory E S) (s : RuntimeState E S) :
    Prop where
  /-- No two executions under one key. -/
  once : h.Pairwise fun t u => ∀ identity events identity' events',
    Completes entity identity events t → Completes entity identity' events' u →
    identity.key ≠ identity'.key
  /-- A later command under the key is replayed or refused. -/
  answered : h.Pairwise fun t u => ∀ identity events command later,
    Completes entity identity events t → u.input = .command entity command →
    command.identity = some later → later.key = identity.key →
    AnsweredFromReceipt entity (receiptOfRun entity identity events t) command later u
  /-- A receipt with a range is there exactly when the events of an execution
      under its key are at that range. -/
  receipts : ∀ key a b,
    (∃ receipt, s.facade.eventStore.receiptOf entity key = some receipt ∧
      receipt.outcome = .events a b) ↔
    ∃ t ∈ h, ∃ identity events, Completes entity identity events t ∧ identity.key = key ∧
      outcomeAt t.pre.facade.eventStore entity events = .events a b ∧
      EventsAt s.facade.eventStore entity a b events

/-! ## One step -/

/-- What one step of the runtime does to the event store. -/
inductive Fires (s : RuntimeState E S) :
    RuntimeInput E S → RuntimeOutput E S → RuntimeState E S → Prop where
  /-- No command. -/
  | idle (input : RuntimeInput E S) (output : RuntimeOutput E S) (post : RuntimeState E S)
      (same : post.facade.eventStore = s.facade.eventStore)
      (noCommand : ∀ entity command, input ≠ .command entity command) :
      Fires s input output post
  /-- There is no actor that takes commands. -/
  | unheard (entity : EntityTriple) (command : Command E S) (e : EntityError)
      (absent : ∀ current version,
        s.actors entity ≠ some ⟨some current, version, .active⟩) :
      Fires s (.command entity command) (.replied (.refused (.error e))) s
  | taken (entity : EntityTriple) (command : Command E S) (actor : Actor S)
      (present : s.actors entity = some actor) (active : actor.lifecycle = .active)
      (outcome : Outcome E S) (post : RuntimeState E S)
      (answer : outcome = (executeCommand entity s.facade actor command).2.2)
      (stored : post.facade = (executeCommand entity s.facade actor command).1) :
      Fires s (.command entity command) (.replied outcome) post

theorem fires_step (s : RuntimeState E S) (input : RuntimeInput E S) :
    Fires s input (s.step input).2 (s.step input).1 := by
  cases input with
  | start | crash => exact .idle _ _ _ rfl (by simp)
  | passivate =>
    refine .idle _ _ _ ?_ (by simp)
    simp only [RuntimeState.step]
    split <;> rfl
  | command entity command =>
    simp only [RuntimeState.step]
    cases ha : s.actors entity with
    | none =>
      refine .unheard entity command _ ?_
      intro current version h
      rw [ha] at h
      cases h
    | some actor =>
      by_cases hl : actor.lifecycle = .active
      · simp only [hl, if_true]
        exact .taken entity command actor ha hl _ _ rfl rfl
      · simp only [hl, if_false, drained]
        have habsent : ∀ current version,
            s.actors entity ≠ some ⟨some current, version, .active⟩ := by
          intro current version h
          rw [ha] at h
          cases h
          exact hl rfl
        cases actor.state with
        | none | some => exact .unheard entity command _ habsent

/-! ### The gate -/

section
variable {entity : EntityTriple} {facade : PersistenceFacade E} {command : Command E S}
  {identity : OperationIdentity}

/-- The gate answers with an error or from a receipt. -/
theorem gate_reply {reply : Reply E S} (h : gate entity facade command = some reply) :
    (∃ e, reply = .error e) ∨ ∃ outcome, reply = .replayed outcome := by
  unfold gate at h
  cases hid : command.identity with
  | none => simp [hid] at h
  | some identity =>
    simp only [hid] at h
    cases hf : findReceiptFor entity facade identity.key command.faults with
    | error =>
      simp only [hf, Option.some.injEq] at h
      exact .inl ⟨_, h.symm⟩
    | ok found =>
      cases found with
      | none => simp [hf] at h
      | some =>
        simp only [hf] at h
        split_ifs at h
        · exact .inr ⟨_, (Option.some.inj h).symm⟩
        · exact .inl ⟨_, (Option.some.inj h).symm⟩

/-- A command that passes the gate has no receipt where the gate looked. -/
theorem receiptOf_of_gate (hid : command.identity = some identity)
    (h : gate entity facade command = none) :
    entity.tenantId ≠ "" ∧ facade.eventStore.receiptOf entity identity.key = none := by
  unfold gate findReceiptFor at h
  simp only [hid] at h
  cases hf : command.faults.findReceipt with
  | some => simp [hf] at h
  | none =>
    simp only [hf] at h
    by_cases ht : entity.tenantId = ""
    · simp [findReceipt_eq, if_pos ht] at h
    · refine ⟨ht, ?_⟩
      rw [findReceipt_eq, if_neg ht] at h
      cases hr : facade.eventStore.receiptOf entity identity.key with
      | none => rfl
      | some =>
        simp only [hr] at h
        split_ifs at h

end

/-! ### Executions and their receipts -/

section
variable {entity : EntityTriple} {s post : RuntimeState E S} {input : RuntimeInput E S}
  {output : RuntimeOutput E S} {identity : OperationIdentity} {events : List E}

theorem storedEvents_ne_nil (h : events ≠ []) : storedEvents events ≠ [] := by
  simpa [storedEvents] using h

/-- An execution that counts passed the gate and wrote its receipt. -/
theorem executed_of_completes (hfires : Fires s input output post)
    (hc : Completes entity identity events ⟨s, input, output, post⟩) :
    entity.tenantId ≠ "" ∧ s.facade.eventStore.receiptOf entity identity.key = none ∧
      Executed entity identity events s.facade.eventStore post.facade.eventStore := by
  obtain ⟨command, hinput, hid, hhandled, hdone⟩ := hc
  obtain rfl : input = .command entity command := hinput
  change (_ ∧ post.facade.eventStore.streamOf entity = s.facade.eventStore.streamOf entity ++ _) ∨
    (_ ∧ ∃ outcome state, output = .replied outcome ∧ _) at hdone
  -- where nothing was written and the reply is not `NoEvents`, nothing completed
  have nothing : ∀ outcome, output = .replied outcome → post.facade = s.facade →
      (∀ state, outcome.reply ≠ .noEvents state) → False := by
    intro outcome houtput hsame hreply
    rcases hdone with ⟨hne, hown⟩ | ⟨-, outcome', state, houtput', hreply'⟩
    · rw [hsame, List.self_eq_append_right] at hown
      exact storedEvents_ne_nil hne hown
    · obtain rfl : outcome = outcome' := by simpa [houtput] using houtput'
      exact hreply state hreply'
  cases hfires with
  | idle _ _ _ _ noCommand => exact absurd rfl (noCommand entity command)
  | unheard =>
    exact (nothing _ rfl rfl (by simp [Outcome.refused])).elim
  | taken _ _ actor _ _ outcome _ answer stored =>
    have hhandles := executeCommand_handles entity s.facade actor command
    rw [← answer, ← stored] at hhandles
    cases hhandles with
    | refused _ same answered error =>
      refine (nothing _ rfl same ?_).elim
      intro state
      rw [answered]
      rcases error with ⟨e, rfl⟩ | hgate
      · simp [Outcome.refused]
      · rcases gate_reply hgate with ⟨e, rfl⟩ | ⟨o, rfl⟩ <;> simp [Outcome.refused]
    | failed same _ answered =>
      obtain ⟨e, he⟩ := answered
      exact (nothing _ rfl same (by simp [he])).elim
    | ran events' passed handled change written =>
      obtain rfl : events' = events := by simpa [hhandled] using handled.symm
      obtain ⟨ht, hnone⟩ := receiptOf_of_gate hid passed
      refine ⟨ht, hnone, ?_⟩
      rcases hdone with ⟨hne, hown⟩ | ⟨-, outcome', state, houtput, hreply⟩
      · rw [hid] at change
        cases change with
        | quiet _ _ unchanged =>
          rw [unchanged.streams, List.self_eq_append_right] at hown
          exact absurd hown (storedEvents_ne_nil hne)
        | executed _ _ executed => exact executed
      · obtain rfl : outcome = outcome' := by simpa using houtput
        rcases written with ⟨e, he⟩ | hexec
        · simp [hreply] at he
        · exact hexec identity hid

/-- Streams only grow and keep their offsets. -/
theorem streamOf_step (hfires : Fires s input output post) (entity : EntityTriple) :
    s.facade.eventStore.streamOf entity <+: post.facade.eventStore.streamOf entity ∧
      post.facade.eventStore.versionOffsets = s.facade.eventStore.versionOffsets := by
  cases hfires with
  | idle _ _ _ same => simp [same]
  | unheard => simp
  | taken e command actor _ _ _ _ answer stored =>
    have hhandles := executeCommand_handles e s.facade actor command
    rw [← answer, ← stored] at hhandles
    cases hhandles with
    | refused _ same | failed same => simp [same]
    | ran events _ _ change =>
      have grows : Extended e events s.facade.eventStore post.facade.eventStore →
          s.facade.eventStore.streamOf entity <+: post.facade.eventStore.streamOf entity ∧
          post.facade.eventStore.versionOffsets = s.facade.eventStore.versionOffsets := by
        intro hext
        refine ⟨?_, hext.offsets⟩
        by_cases he : entity = e
        · subst he
          rw [hext.own]
          exact List.prefix_append _ _
        · simp [hext.others entity he]
      generalize command.identity = carried at change
      cases change with
      | quiet _ _ unchanged =>
        refine ⟨?_, unchanged.offsets⟩
        simp [unchanged.streams]
      | appended _ extended => exact grows extended
      | executed _ _ executed => exact grows executed.extended

/-! ### Where receipts are filed -/

theorem tenantId_new_map (value : String) :
    (TenantId.new value).map TenantId.value =
      if isBlank value = false then some value else none := by
  unfold TenantId.new
  split_ifs <;> rfl

/-- An entity whose tenant is not blank files its receipts where it looks for
them. -/
theorem receiptKey_receiptFor (h : isBlank entity.tenantId = false) (outcome : AggregateOutcome) :
    EventStore.receiptKey (receiptFor entity identity outcome) =
      entity.receiptKey identity.key := by
  simp [EventStore.receiptKey, receiptFor, EntityTriple.receiptKey, tenantId_new_map, h]

/-- An entity with a blank tenant files them in the systemwide scope. -/
theorem receiptKey_receiptFor_blank (h : isBlank entity.tenantId = true)
    (identity : OperationIdentity) (outcome : AggregateOutcome) :
    (EventStore.receiptKey (receiptFor entity identity outcome)).tenant = none := by
  simp [EventStore.receiptKey, receiptFor, tenantId_new_map, h]

theorem operationKey_ext {k l : OperationKey} (h : k.value = l.value) : k = l := by
  cases k
  cases l
  simpa using h

/-- Only an entity itself files where it looks. -/
theorem receiptKey_receiptFor_inj {other : EntityTriple} {outcome : AggregateOutcome}
    {key : OperationKey}
    (h : EventStore.receiptKey (receiptFor other identity outcome) = entity.receiptKey key) :
    other = entity ∧ identity.key = key := by
  cases hb : isBlank other.tenantId with
  | true =>
    have hnone := receiptKey_receiptFor_blank hb identity outcome
    rw [h] at hnone
    cases hnone
  | false =>
    rw [receiptKey_receiptFor hb] at h
    obtain ⟨he, hk⟩ := receiptKey_inj h
    exact ⟨he, operationKey_ext hk⟩

/-- A receipt the entity sees either was there or is that of the command just
executed. -/
theorem receiptOf_step (hfires : Fires s input output post) (entity : EntityTriple)
    (key : OperationKey) :
    post.facade.eventStore.receiptOf entity key = s.facade.eventStore.receiptOf entity key ∨
      ∃ command identity events, input = .command entity command ∧
        command.identity = some identity ∧ command.handled = .ok events ∧ identity.key = key ∧
        s.facade.eventStore.receiptOf entity key = none ∧
        post.facade.eventStore.receiptOf entity key =
          some (receiptFor entity identity (outcomeAt s.facade.eventStore entity events)) ∧
        Executed entity identity events s.facade.eventStore post.facade.eventStore := by
  cases hfires with
  | idle _ _ _ same => exact .inl (by rw [same])
  | unheard => exact .inl rfl
  | taken e command actor _ _ _ _ answer stored =>
    have hhandles := executeCommand_handles e s.facade actor command
    rw [← answer, ← stored] at hhandles
    cases hhandles with
    | refused _ same | failed same => exact .inl (by rw [same])
    | ran events passed handled change =>
      generalize hid : command.identity = carried at change
      cases change with
      | quiet _ _ unchanged =>
        left
        unfold InMemoryEventStore.receiptOf
        rw [unchanged.receipts]
      | appended _ _ receipts =>
        left
        unfold InMemoryEventStore.receiptOf
        rw [receipts]
      | executed identity _ executed =>
        by_cases hk : EventStore.receiptKey (receiptFor e identity
            (outcomeAt s.facade.eventStore e events)) = entity.receiptKey key
        · obtain ⟨rfl, rfl⟩ := receiptKey_receiptFor_inj hk
          have hnone := (receiptOf_of_gate hid passed).2
          have hfiled := executed.receipt
          rw [hk] at hfiled
          exact .inr ⟨command, identity, events, rfl, hid, handled, rfl, hnone, hfiled, executed⟩
        · exact .inl (executed.otherReceipts _ (Ne.symm hk))

/-- A command under a key whose receipt the entity sees is answered from the
receipt. -/
theorem answered_of_receipt {receipt : OperationReceipt} {command : Command E S}
    {later : OperationIdentity} (hfires : Fires s (.command entity command) output post)
    (ht : entity.tenantId ≠ "") (hid : command.identity = some later)
    (hr : s.facade.eventStore.receiptOf entity later.key = some receipt) :
    AnsweredFromReceipt entity receipt command later
      ⟨s, .command entity command, output, post⟩ := by
  have hpassed : gate entity s.facade command ≠ none := by
    intro hgate
    have hnone := (receiptOf_of_gate hid hgate).2
    rw [hr] at hnone
    cases hnone
  cases hfires with
  | idle _ _ _ _ noCommand => exact absurd rfl (noCommand entity command)
  | unheard _ _ _ absent =>
    refine ⟨_, rfl, rfl, rfl, ?_⟩
    rintro ⟨current, version, hactor, -⟩
    exact absurd hactor (absent current version)
  | taken _ _ actor present _ outcome _ answer =>
    have hhandles := executeCommand_handles entity s.facade actor command
    rw [← answer] at hhandles
    cases hhandles with
    | refused _ _ answered =>
      refine ⟨outcome, rfl, by rw [answered]; rfl, by rw [answered]; rfl, ?_⟩
      rintro ⟨current, version, hactor, hfault⟩
      obtain rfl : actor = ⟨some current, version, .active⟩ := by
        have h := present.symm.trans hactor
        exact Option.some.inj h
      have hgate : gate entity s.facade command =
          if receipt.fingerprint = later.fingerprint then some (.replayed receipt.outcome)
          else some (.error (.operationConflict later.key.value)) := by
        unfold gate findReceiptFor
        simp only [hid, hfault, findReceipt_eq, if_neg ht, hr]
      constructor
      · intro hsame
        rw [if_pos hsame.symm] at hgate
        rw [answer, executeCommand_of_gate rfl hgate]
        rfl
      · intro hother
        rw [if_neg (Ne.symm hother)] at hgate
        rw [answer, executeCommand_of_gate rfl hgate]
        rfl
    | failed _ passed | ran _ passed => exact absurd passed hpassed

end

/-! ## Whole runs -/

section
variable {entity : EntityTriple} {offsets : VersionOffsets} {pre post : InMemoryEventStore E}
  {events : List E} {s : RuntimeState E S} {h : RuntimeHistory E S}

/-- Events just appended are where their receipt says. -/
theorem eventsAt_of_extended {a b : Int} (hext : Extended entity events pre post)
    (hrange : outcomeAt pre entity events = .events a b) : EventsAt post entity a b events := by
  cases events with
  | nil => simp [outcomeAt] at hrange
  | cons _ events =>
    simp only [outcomeAt, AggregateOutcome.events.injEq] at hrange
    refine ⟨pre.streamOf entity, [], by simp [hext.own], ?_, ?_⟩
    · rw [hext.offsets, ← hrange.1]
      rfl
    · rw [hext.offsets, ← hrange.2]
      rfl

/-- The store and the executions so far agree. -/
structure Recorded (entity : EntityTriple) (h : RuntimeHistory E S) (s : RuntimeState E S) :
    Prop where
  recorded : ∀ t ∈ h, ∀ identity events, Completes entity identity events t →
    entity.tenantId ≠ "" ∧
      s.facade.eventStore.receiptOf entity identity.key =
        some (receiptOfRun entity identity events t)
  origin : ∀ key receipt a b, s.facade.eventStore.receiptOf entity key = some receipt →
    receipt.outcome = .events a b →
    ∃ t ∈ h, ∃ identity events, Completes entity identity events t ∧ identity.key = key ∧
      outcomeAt t.pre.facade.eventStore entity events = .events a b
  kept : ∀ t ∈ h, ∀ identity events a b, Completes entity identity events t →
    outcomeAt t.pre.facade.eventStore entity events = .events a b →
    EventsAt s.facade.eventStore entity a b events

theorem recorded_step (input : RuntimeInput E S)
    (htenant : entity.tenantId = "" ∨ isBlank entity.tenantId = false)
    (hrec : Recorded entity h s) :
    Recorded entity (h ++ [(runtime E S offsets).fire s input]) (s.step input).1 := by
  have hfires := fires_step s input
  constructor
  case recorded =>
    intro t ht identity events hc
    obtain hold | rfl := mem_snoc ht
    · obtain ⟨hne, hr⟩ := hrec.recorded t hold identity events hc
      refine ⟨hne, ?_⟩
      -- a step that executes a command under a key finds no receipt for it
      obtain hsame | ⟨_, _, _, _, _, _, _, hnone, _, _⟩ := receiptOf_step hfires entity identity.key
      · exact hsame.trans hr
      · rw [hr] at hnone
        cases hnone
    · obtain ⟨hne, -, hexec⟩ := executed_of_completes hfires hc
      have hreceipt := hexec.receipt
      rw [receiptKey_receiptFor (htenant.resolve_left hne)] at hreceipt
      exact ⟨hne, hreceipt⟩
  case origin =>
    intro key receipt a b hr hrange
    rcases receiptOf_step hfires entity key with
      hsame | ⟨command, identity, events, hinput, hid, hhandled, hkey, -, hfiled, hexec⟩
    · rw [hsame] at hr
      obtain ⟨t, ht, identity, events, hc, hkey, hout⟩ := hrec.origin key receipt a b hr hrange
      exact ⟨t, List.mem_append_left _ ht, identity, events, hc, hkey, hout⟩
    · have hout : outcomeAt s.facade.eventStore entity events = .events a b := by
        have heq := hfiled.symm.trans hr
        rw [← hrange, ← Option.some.inj heq]
        rfl
      have hne : events ≠ [] := by
        rintro rfl
        simp [outcomeAt] at hout
      refine ⟨_, List.mem_append_right _ (List.mem_singleton.mpr rfl), identity, events, ?_, hkey,
        hout⟩
      exact ⟨command, hinput, hid, hhandled, .inl ⟨hne, hexec.extended.own⟩⟩
  case kept =>
    intro t ht identity events a b hc hrange
    obtain hold | rfl := mem_snoc ht
    · obtain ⟨⟨more, hmore⟩, hoff⟩ := streamOf_step hfires entity
      obtain ⟨before, after, hstream, ha, hb⟩ := hrec.kept t hold identity events a b hc hrange
      refine ⟨before, after ++ more, ?_, hoff ▸ ha, hoff ▸ hb⟩
      rw [← hmore, hstream]
      simp
    · obtain ⟨-, -, hexec⟩ := executed_of_completes hfires hc
      exact eventsAt_of_extended hexec.extended hrange

theorem recorded_run (htenant : entity.tenantId = "" ∨ isBlank entity.tenantId = false)
    (he : (runtime E S offsets).Run h s) : Recorded entity h s := by
  refine he.invariant ?_ ?_
  · refine ⟨by simp, ?_, by simp⟩
    intro key receipt a b hr
    simp [runtime, InMemoryEventStore.receiptOf] at hr
  · intro h t input _ hrec
    exact recorded_step input htenant hrec

/-- The run so far keeps its promises when one more step is made. -/
theorem exactlyOnce_step (input : RuntimeInput E S) (hrec : Recorded entity h s)
    (hrec' : Recorded entity (h ++ [(runtime E S offsets).fire s input]) (s.step input).1)
    (hold : ExactlyOnce entity h s) :
    ExactlyOnce entity (h ++ [(runtime E S offsets).fire s input]) (s.step input).1 where
  once := by
    refine List.pairwise_append.mpr ⟨hold.once, List.pairwise_singleton _ _, ?_⟩
    intro t ht u hu identity events identity' events' hct hcu hkey
    obtain rfl := List.mem_singleton.mp hu
    obtain ⟨-, hr⟩ := hrec.recorded t ht identity events hct
    obtain ⟨-, hnone, -⟩ := executed_of_completes (fires_step s input) hcu
    rw [← hkey, hr] at hnone
    cases hnone
  answered := by
    refine List.pairwise_append.mpr ⟨hold.answered, List.pairwise_singleton _ _, ?_⟩
    intro t ht u hu identity events command later hct hinput hid hkey
    obtain rfl := List.mem_singleton.mp hu
    obtain rfl : input = .command entity command := hinput
    obtain ⟨hne, hr⟩ := hrec.recorded t ht identity events hct
    rw [← hkey] at hr
    exact answered_of_receipt (fires_step s _) hne hid hr
  receipts := by
    intro key a b
    constructor
    · rintro ⟨receipt, hr, hrange⟩
      obtain ⟨t, ht, identity, events, hc, hkey, hout⟩ := hrec'.origin key receipt a b hr hrange
      exact ⟨t, ht, identity, events, hc, hkey, hout, hrec'.kept t ht identity events a b hc hout⟩
    · rintro ⟨t, ht, identity, events, hc, rfl, hout, -⟩
      obtain ⟨-, hr⟩ := hrec'.recorded t ht identity events hc
      exact ⟨_, hr, hout⟩

theorem exactlyOnce_run (htenant : entity.tenantId = "" ∨ isBlank entity.tenantId = false)
    (he : (runtime E S offsets).Run h s) : ExactlyOnce entity h s := by
  refine he.invariant ?_ ?_
  · refine ⟨.nil, .nil, ?_⟩
    intro key a b
    simp [runtime, InMemoryEventStore.receiptOf]
  · intro h t input he hold
    have hrec := recorded_run htenant he
    exact exactlyOnce_step input hrec (recorded_step input htenant hrec) hold

end

/-! ## Blank tenants -/

section
variable {entity : EntityTriple} {identity : OperationIdentity}

/-- A command with nothing to store and no store call that fails. -/
def plainCommand (identity : OperationIdentity) (state : S) (events : List E) : Command E S where
  identity := some identity
  handled := .ok events
  applied := .ok state
  faults := .clear
  snapshot := fun _ _ => none
  effects := []
  acceptor := none

/-- The actor is up, sees no receipt for the key, and whatever is filed where
its own receipt would go has the same fingerprint. -/
structure Repeatable (entity : EntityTriple) (identity : OperationIdentity) (state : S)
    (s : RuntimeState E S) : Prop where
  actor : s.actors entity = some ⟨some state, 0, .active⟩
  unseen : s.facade.eventStore.receiptOf entity identity.key = none
  filed : ∀ found, s.facade.eventStore.state.receipts.lookup
    (EventStore.receiptKey (receiptFor entity identity .noEvents)) = some found →
    found.fingerprint = identity.fingerprint

/-- A receipt without events is written if what is filed in its place allows
it. -/
theorem persistReceipt_ok {facade : PersistenceFacade E} (version : Nat)
    (hfiled : ∀ found, facade.eventStore.state.receipts.lookup
      (EventStore.receiptKey (receiptFor entity identity .noEvents)) = some found →
      found.fingerprint = identity.fingerprint) :
    ∃ facade', facade.persistEventsWithReceipt entity.aggregateType entity.entityId
      (some entity.tenantId) version [] (receiptFor entity identity .noEvents) .clear
      = (facade', .ok version) := by
  have hreconciles : facade.eventStore.begin.work.reconciles facade.eventStore.state
      (receiptFor entity identity .noEvents) = .ok () := by
    have hcommitted : reconcile (facade.eventStore.state.receipts.lookup
        (EventStore.receiptKey (receiptFor entity identity .noEvents)))
        (receiptFor entity identity .noEvents) = .ok () :=
      reconcile_ok_iff.mpr hfiled
    unfold UnitOfWork.reconciles
    rw [hcommitted]
    simp [InMemoryEventStore.begin, UnitOfWork.fresh, reconcile]
    rfl
  unfold PersistenceFacade.persistEventsWithReceipt PersistenceFacade.stageEvents
    StagingUnitOfWork.confirmReceipt UnitOfWork.confirmReceipt
  simp only [StoreFaults.clear, List.map_nil, List.isEmpty_nil, if_true, hreconciles,
    PersistenceFacade.settle]
  exact ⟨_, rfl⟩

/-- With a blank tenant a command without events runs, and can run again. -/
theorem repeatable_step (offsets : VersionOffsets) {state : S} {s : RuntimeState E S}
    (hne : entity.tenantId ≠ "") (hblank : isBlank entity.tenantId = true)
    (hs : Repeatable entity identity state s) :
    Repeatable entity identity state (s.step (.command entity (plainCommand identity state []))).1 ∧
      Completes entity identity []
        ((runtime E S offsets).fire s (.command entity (plainCommand identity state []))) := by
  have hgate : gate entity s.facade (plainCommand identity state [] : Command E S) = none := by
    unfold gate findReceiptFor plainCommand
    simp only [StoreFaults.clear, findReceipt_eq, if_neg hne, hs.unseen]
  obtain ⟨facade', hwrite⟩ := persistReceipt_ok 0 hs.filed
  have hexec : Executed entity identity [] s.facade.eventStore facade'.eventStore := by
    rcases persistEventsWithReceipt_change (by simp) hwrite with ⟨-, e, he⟩ | ⟨-, hexec, -⟩
    · cases he
    · exact hexec
  have hrun : executeCommand entity s.facade ⟨some state, 0, .active⟩
      (plainCommand identity state []) =
        (facade', ⟨some state, 0, .active⟩, ⟨.noEvents state, true, []⟩) := by
    unfold executeCommand
    simp only [hgate]
    unfold plainCommand executeNoEvents
    simp only [hwrite]
  have hstep : s.step (.command entity (plainCommand identity state [])) =
      ({ s with facade := facade' }.setActor entity (some ⟨some state, 0, .active⟩),
        .replied ⟨.noEvents state, true, []⟩) := by
    simp [RuntimeState.step, hs.actor, hrun]
  refine ⟨?_, ?_⟩
  · rw [hstep]
    refine ⟨by simp [RuntimeState.setActor], ?_, ?_⟩
    · -- the receipt is filed elsewhere
      have hother : entity.receiptKey identity.key ≠ EventStore.receiptKey
          (receiptFor entity identity (outcomeAt s.facade.eventStore entity [])) := by
        intro heq
        have hnone := receiptKey_receiptFor_blank hblank identity
          (outcomeAt s.facade.eventStore entity [])
        rw [← heq] at hnone
        cases hnone
      exact (hexec.otherReceipts _ hother).trans hs.unseen
    · intro found hfound
      have hsame := hexec.receipt.symm.trans hfound
      rw [← Option.some.inj hsame]
      rfl
  · refine ⟨_, rfl, rfl, rfl, .inr ⟨rfl, ⟨.noEvents state, true, []⟩, state, ?_, rfl⟩⟩
    simp [runtime, hstep]

theorem repeatable_start (E : Type) (offsets : VersionOffsets) (identity : OperationIdentity)
    (state : S) (hne : entity.tenantId ≠ "") : Repeatable entity identity state
      (((runtime E S offsets).init).step
        (.start entity ⟨state, fun s _ => .ok s⟩ (fun _ => none) none)).1 := by
  refine ⟨?_, ?_, ?_⟩
  · have hload : (runtime E S offsets).init.facade.loadForRecovery entity.aggregateType
        entity.entityId (some entity.tenantId) = .ok (none, []) := by
      simp [runtime, PersistenceFacade.loadForRecovery, InMemoryEventStore.load, EventStore.load,
        resolveTenant, hne, recoveryOf, InMemorySnapshotStore.loadSnapshot]
      rfl
    simp [RuntimeState.step, RuntimeState.setActor, recoverState, hload,
      rebuildStateFromPersistence, startState]
  · simp [RuntimeState.step, RuntimeState.setActor, runtime, InMemoryEventStore.receiptOf]
  · intro found hfound
    simp [RuntimeState.step, RuntimeState.setActor, runtime] at hfound

/-- With a blank tenant, one command under one key executes twice. -/
theorem not_exactlyOnce_of_blank [Inhabited S] (E : Type) (offsets : VersionOffsets)
    (identity : OperationIdentity) (hne : entity.tenantId ≠ "")
    (hblank : isBlank entity.tenantId = true) : ∃ h s, (runtime E S offsets).Run h s ∧
      ¬ ExactlyOnce entity h s := by
  let start : RuntimeInput E S :=
    .start entity ⟨default, fun s _ => .ok s⟩ (fun _ => none) none
  let again : RuntimeInput E S := .command entity (plainCommand identity default [])
  refine ⟨_, _, (runtime E S offsets).exec_trace _ [start, again, again], ?_⟩
  intro honce
  have h₀ := repeatable_start E offsets identity (default : S) hne
  obtain ⟨h₁, hfirst⟩ := repeatable_step offsets hne hblank h₀
  obtain ⟨-, hsecond⟩ := repeatable_step offsets hne hblank h₁
  have hpair := honce.once
  simp only [Machine.trace, List.pairwise_cons] at hpair
  exact hpair.2.1 _ (List.mem_singleton.mpr rfl) identity [] identity [] hfirst hsecond rfl

end

/-! ## The result -/

def sampleIdentity : OperationIdentity := ⟨⟨"op-1", by decide, by decide⟩, ⟨"f"⟩⟩

/-- **Exactly-once execution** holds for an entity in every run if and only if
its tenant string is empty, when nothing is ever executed, or not blank,
when the receipt is filed where the next command looks for it. -/
theorem exactlyOnce_iff [Inhabited S] (offsets : VersionOffsets) (entity : EntityTriple) :
    (∀ h s, (runtime E S offsets).Exec (runtime E S offsets).init h s → ExactlyOnce entity h s) ↔
      entity.tenantId = "" ∨ isBlank entity.tenantId = false := by
  constructor
  · intro hall
    by_contra hcond
    obtain ⟨hne, hblank⟩ := not_or.mp hcond
    obtain ⟨h, s, he, hnot⟩ := not_exactlyOnce_of_blank (S := S) E offsets sampleIdentity hne
      (by simpa using hblank)
    exact hnot (hall h s he)
  · intro htenant h s he
    exact exactlyOnce_run htenant he

def blankTenantEntity : EntityTriple := ⟨" ", "order", "o-1"⟩

def blankTenantRun : RuntimeHistory Nat Nat :=
  (runtime Nat Nat ∅).trace (runtime Nat Nat ∅).init
    [.start blankTenantEntity ⟨0, fun s _ => .ok s⟩ (fun _ => none) none,
      .command blankTenantEntity (plainCommand sampleIdentity 0 [7]),
      .command blankTenantEntity (plainCommand sampleIdentity 0 [7])]

/-- The same command twice, and its event is in the stream twice. -/
theorem blankTenant_executes_twice :
    (∃ s, (runtime Nat Nat ∅).Exec (runtime Nat Nat ∅).init blankTenantRun s ∧
      (s.facade.eventStore.streamOf blankTenantEntity).map StoredEvent.event = [7, 7]) ∧
    ∃ t u v, blankTenantRun = [t, u, v] ∧
      Completes blankTenantEntity sampleIdentity [7] u ∧
      Completes blankTenantEntity sampleIdentity [7] v := by
  refine ⟨⟨_, Machine.exec_trace _ _ _, by decide⟩, _, _, _, rfl, ?_, ?_⟩
  · exact ⟨_, rfl, rfl, rfl, .inl ⟨by decide, by decide⟩⟩
  · exact ⟨_, rfl, rfl, rfl, .inl ⟨by decide, by decide⟩⟩

end EgoRs.Entity
