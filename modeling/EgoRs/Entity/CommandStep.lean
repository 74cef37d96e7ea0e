import EgoRs.Entity.Actor

/-! # What a Command Does to the Store

Each entity sees its own stream and, under each operation key, its own
receipt: those its actor asks for. `StoreChange` says once what a command
can do to the event store, and `Handles` what it does and answers.
-/

namespace EgoRs.Entity

open EventStore

variable {E S : Type}

/-! ## An entity's view of the store -/

/-- The stream the entity's actor reads and appends to. -/
def EntityTriple.streamKey (entity : EntityTriple) : StreamKey :=
  ⟨entity.aggregateType, entity.entityId, some entity.tenantId⟩

def EntityTriple.receiptKey (entity : EntityTriple) (key : OperationKey) : ReceiptKey :=
  ⟨entity.aggregateType, entity.entityId, some entity.tenantId, key.value⟩

namespace InMemoryEventStore

def streamOf (store : InMemoryEventStore E) (entity : EntityTriple) : List (StoredEvent E) :=
  streamAt store.state.streams entity.streamKey

def receiptOf (store : InMemoryEventStore E) (entity : EntityTriple) (key : OperationKey) :
    Option OperationReceipt :=
  store.state.receipts.lookup (entity.receiptKey key)

/-- The version of the entity's stream, its offset included. -/
def versionOf (store : InMemoryEventStore E) (entity : EntityTriple) : Int :=
  store.version entity.streamKey

end InMemoryEventStore

theorem streamKey_injective : Function.Injective EntityTriple.streamKey := by
  intro a b h
  cases a
  cases b
  simp only [EntityTriple.streamKey, EntityTriple.aggregateType, StreamKey.mk.injEq,
    Option.some.injEq] at h
  simp [h]

theorem receiptKey_inj {a b : EntityTriple} {k l : OperationKey}
    (h : a.receiptKey k = b.receiptKey l) : a = b ∧ k.value = l.value := by
  cases a
  cases b
  simp only [EntityTriple.receiptKey, EntityTriple.aggregateType, ReceiptKey.mk.injEq,
    Option.some.injEq] at h
  simp [h]

section
variable {entity : EntityTriple} {facade : PersistenceFacade E} {key : OperationKey}

/-- A tenant that is not empty resolves to itself. -/
theorem findReceipt_eq :
    facade.findReceipt entity.aggregateType entity.entityId (some entity.tenantId) key.value =
      if entity.tenantId = "" then .error .missingTenant
      else .ok (facade.eventStore.receiptOf entity key) := by
  unfold PersistenceFacade.findReceipt InMemoryEventStore.findReceipt EventStore.findReceipt
    resolveTenant
  dsimp only
  split <;> rfl

/-- The stream key of an entity's append, unless its tenant is empty. -/
theorem appendArgs_key (version : Int) (events : List (StoredEvent E)) :
    (⟨entity.aggregateType, entity.entityId, some entity.tenantId, version, events⟩ :
      AppendArgs E).key =
        if entity.tenantId = "" then .error .missingTenant else .ok entity.streamKey := by
  unfold AppendArgs.key resolveTenant
  dsimp only
  split <;> rfl

end

/-! ## Changes -/

/-- The events of a command as they are stored. -/
def storedEvents (events : List E) : List (StoredEvent E) :=
  events.map fun event => ⟨event, none⟩

/-- What a receipt says about `events`: where they go in the stream. -/
def outcomeAt (store : InMemoryEventStore E) (entity : EntityTriple) :
    List E → AggregateOutcome
  | [] => .noEvents
  | event :: events =>
    .events (store.versionOf entity + 1)
      (store.versionOf entity + (event :: events).length)

/-- No stream and no receipt is different. -/
structure Unchanged (pre post : InMemoryEventStore E) : Prop where
  streams : ∀ e, post.streamOf e = pre.streamOf e
  receipts : post.state.receipts = pre.state.receipts
  offsets : post.versionOffsets = pre.versionOffsets

theorem Unchanged.refl (store : InMemoryEventStore E) : Unchanged store store :=
  ⟨fun _ => rfl, rfl, rfl⟩

/-- `events` are appended for `entity`. -/
structure Extended (entity : EntityTriple) (events : List E) (pre post : InMemoryEventStore E) :
    Prop where
  own : post.streamOf entity = pre.streamOf entity ++ storedEvents events
  others : ∀ other, other ≠ entity → post.streamOf other = pre.streamOf other
  offsets : post.versionOffsets = pre.versionOffsets

/-- `events` are appended and their receipt is written, together. -/
structure Executed (entity : EntityTriple) (identity : OperationIdentity) (events : List E)
    (pre post : InMemoryEventStore E) : Prop where
  extended : Extended entity events pre post
  receipt : post.state.receipts.lookup
      (EventStore.receiptKey (receiptFor entity identity (outcomeAt pre entity events))) =
    some (receiptFor entity identity (outcomeAt pre entity events))
  otherReceipts : ∀ k,
    k ≠ EventStore.receiptKey (receiptFor entity identity (outcomeAt pre entity events)) →
    post.state.receipts.lookup k = pre.state.receipts.lookup k

/-- What a command of `entity` with this identity and these events can do to
the event store. -/
inductive StoreChange (entity : EntityTriple) (pre post : InMemoryEventStore E) :
    Option OperationIdentity → List E → Prop where
  | quiet (identity : Option OperationIdentity) (events : List E)
      (unchanged : Unchanged pre post) : StoreChange entity pre post identity events
  | appended (events : List E) (extended : Extended entity events pre post)
      (receipts : post.state.receipts = pre.state.receipts) :
      StoreChange entity pre post none events
  | executed (identity : OperationIdentity) (events : List E)
      (executed : Executed entity identity events pre post) :
      StoreChange entity pre post (some identity) events

theorem StoreChange.refl (entity : EntityTriple) (store : InMemoryEventStore E)
    (identity : Option OperationIdentity) (events : List E) :
    StoreChange entity store store identity events :=
  .quiet identity events (.refl store)

/-! ## The facade's writes -/

section
variable {entity : EntityTriple} {facade : PersistenceFacade E} {faults : StoreFaults}
  {version : Nat}

theorem settle_cases (facade : PersistenceFacade E) (state : Committed E) (newVersion : Int)
    (fault : Option (PersistenceError × Bool)) :
    ((facade.settle state newVersion fault).1 = facade ∧
        ∃ e, (facade.settle state newVersion fault).2 = .error e) ∨
      (facade.settle state newVersion fault).1 = facade.withState state ∧
        ∀ n, (facade.settle state newVersion fault).2 = .ok n → n = newVersion.toNat := by
  rcases fault with _ | ⟨e, _ | _⟩
  · exact .inr ⟨rfl, by rintro n ⟨⟩; rfl⟩
  · exact .inl ⟨rfl, _, rfl⟩
  · exact .inr ⟨rfl, nofun⟩

variable {events : List E} {store : InMemoryEventStore E} {state : Committed E}

/-- The maps after `events` are appended to the entity's stream. -/
theorem extended_of_streams
    (hstreams : ∀ k, streamAt state.streams k =
      streamAt store.state.streams k ++
        if k = entity.streamKey then storedEvents events else []) :
    Extended entity events store { store with state := state } where
  own := by
    show streamAt state.streams entity.streamKey = _
    rw [hstreams, if_pos rfl]
    rfl
  others := by
    intro other hother
    show streamAt state.streams other.streamKey = _
    have hk : other.streamKey ≠ entity.streamKey := fun h => hother (streamKey_injective h)
    rw [hstreams, if_neg hk, List.append_nil]
    rfl
  offsets := rfl

variable {facade' : PersistenceFacade E} {answer : Except String Nat}

theorem persistEvents_change
    (hanswer : facade.persistEvents entity.aggregateType entity.entityId (some entity.tenantId)
      version events faults = (facade', answer)) : facade'.snapshotStore = facade.snapshotStore ∧
      StoreChange entity facade.eventStore facade'.eventStore none events ∧
      ∀ n, answer = .ok n → n = version + events.length ∧
        Extended entity events facade.eventStore facade'.eventStore := by
  unfold PersistenceFacade.persistEvents at hanswer
  cases hf : faults.append with
  | some =>
    simp only [hf] at hanswer
    cases hanswer
    exact ⟨rfl, .refl .., nofun⟩
  | none =>
    by_cases ht : entity.tenantId = ""
    · simp only [hf, InMemoryEventStore.append, appendArgs_key, if_pos ht] at hanswer
      cases hanswer
      exact ⟨rfl, .refl .., nofun⟩
    · simp only [hf, InMemoryEventStore.append, appendArgs_key, if_neg ht] at hanswer
      split_ifs at hanswer with hv
      · -- refused: an empty stream may have come into being
        cases hanswer
        refine ⟨rfl, .quiet _ _ ⟨?_, rfl, rfl⟩, nofun⟩
        intro e
        simp [InMemoryEventStore.streamOf]
      · dsimp only at hanswer
        generalize hstate : ({ streams := extend (extend facade.eventStore.state.streams _ _) _ _
                               receipts := _ } : Committed E) = state at hanswer
        generalize hnext : (_ : Int) + _ = next at hanswer
        have hcases := settle_cases facade state next faults.commit
        rw [hanswer] at hcases
        rcases hcases with ⟨hkeep, e, he⟩ | ⟨hnew, hok⟩
        · cases hkeep
          cases he
          exact ⟨rfl, .refl .., nofun⟩
        · cases hnew
          have hext : Extended entity events facade.eventStore
              (facade.withState state).eventStore := by
            refine extended_of_streams ?_
            intro k
            subst hstate
            by_cases hk : k = entity.streamKey
            · subst hk
              simp [storedEvents]
            · simp [streamAt_extend_ne hk, hk]
          refine ⟨rfl, .appended events hext (by subst hstate; rfl), ?_⟩
          intro n hn
          refine ⟨?_, hext⟩
          have hnext' := hok n hn
          simp only [List.length_map] at hnext
          omega

/-- The unit of work after the events of a command are staged. -/
theorem stageEvents_ok {unit : StagingUnitOfWork E} {newVersion : Int}
    (h : facade.stageEvents facade.eventStore.begin entity.aggregateType entity.entityId
      (some entity.tenantId) version events faults = .ok (unit, newVersion)) :
    unit.work.stagedReceipts = ∅ ∧
      (∀ k, streamAt unit.work.staged k =
        if k = entity.streamKey then storedEvents events else []) ∧
      (events ≠ [] → facade.eventStore.versionOf entity = version) ∧
      newVersion = version + events.length := by
  unfold PersistenceFacade.stageEvents at h
  cases events with
  | nil =>
    simp only [List.map_nil, List.isEmpty_nil, if_true, Except.ok.injEq, Prod.mk.injEq] at h
    rw [← h.1, ← h.2]
    refine ⟨rfl, ?_, by simp, by simp⟩
    intro k
    simp [InMemoryEventStore.begin, UnitOfWork.fresh, storedEvents]
  | cons =>
    simp only [List.map_cons, List.isEmpty_cons, Bool.false_eq_true, if_false] at h
    cases hf : faults.append with
    | some => simp [hf] at h
    | none =>
      simp only [hf] at h
      by_cases ht : entity.tenantId = ""
      · simp [StagingUnitOfWork.append, appendArgs_key, if_pos ht] at h
      · have hcur : facade.eventStore.begin.versionOffsets.at entity.aggregateType
            entity.entityId + (streamAt facade.eventStore.state.streams entity.streamKey).length
            + (streamAt facade.eventStore.begin.work.staged entity.streamKey).length
            = facade.eventStore.versionOf entity := by
          simp [InMemoryEventStore.begin, UnitOfWork.fresh, InMemoryEventStore.versionOf,
            InMemoryEventStore.version, EntityTriple.streamKey, Int.add_comm]
        simp only [StagingUnitOfWork.append, appendArgs_key, if_neg ht, hcur] at h
        by_cases hv : facade.eventStore.versionOf entity = version
        · simp only [hv, ne_eq, not_true_eq_false, if_false, Except.ok.injEq, Prod.mk.injEq] at h
          rw [← h.1, ← h.2]
          refine ⟨rfl, ?_, fun _ => hv, by simp⟩
          intro k
          by_cases hk : k = entity.streamKey
          · subst hk
            simp [InMemoryEventStore.begin, UnitOfWork.fresh, storedEvents]
          · simp [streamAt_extend_ne hk, InMemoryEventStore.begin, UnitOfWork.fresh, hk]
        · simp [hv] at h

theorem confirmReceipt_ok {unit unit' : StagingUnitOfWork E} {receipt : OperationReceipt}
    (h : unit.confirmReceipt state receipt = (unit', .ok ())) :
    unit'.work.staged = unit.work.staged ∧ unit'.work.stagedReceipts
        = unit.work.stagedReceipts.insert (EventStore.receiptKey receipt) receipt := by
  unfold StagingUnitOfWork.confirmReceipt UnitOfWork.confirmReceipt at h
  cases hr : unit.work.reconciles state receipt with
  | error => simp [hr] at h
  | ok =>
    simp only [hr, Prod.mk.injEq, and_true] at h
    rw [← h]
    exact ⟨rfl, rfl⟩

/-- Either nothing is written and the caller is told so, or events and receipt
are. -/
theorem persistEventsWithReceipt_change {identity : OperationIdentity}
    {outcome : AggregateOutcome}
    (houtcome : outcome =
      if events = [] then .noEvents else .events (version + 1) (version + events.length))
    (hanswer : facade.persistEventsWithReceipt entity.aggregateType entity.entityId
      (some entity.tenantId) version events (receiptFor entity identity outcome) faults
      = (facade', answer)) :
    (facade' = facade ∧ ∃ e, answer = .error e) ∨
      facade'.snapshotStore = facade.snapshotStore ∧
        Executed entity identity events facade.eventStore facade'.eventStore ∧
        ∀ n, answer = .ok n → n = version + events.length := by
  unfold PersistenceFacade.persistEventsWithReceipt at hanswer
  cases hb : faults.begin with
  | some =>
    simp only [hb] at hanswer
    cases hanswer
    exact .inl ⟨rfl, _, rfl⟩
  | none =>
    cases hs : facade.stageEvents facade.eventStore.begin entity.aggregateType entity.entityId
        (some entity.tenantId) version events faults with
    | error =>
      simp only [hb, hs] at hanswer
      cases hanswer
      exact .inl ⟨rfl, _, rfl⟩
    | ok staged =>
      obtain ⟨unit, newVersion⟩ := staged
      obtain ⟨hreceipts, hstaged, hversion, hnext⟩ := stageEvents_ok hs
      cases hf : faults.confirmReceipt with
      | some =>
        simp only [hb, hs, hf] at hanswer
        cases hanswer
        exact .inl ⟨rfl, _, rfl⟩
      | none =>
        cases hc : unit.confirmReceipt facade.eventStore.state
            (receiptFor entity identity outcome) with
        | mk unit' confirmed =>
          simp only [hb, hs, hf, hc] at hanswer
          cases confirmed with
          | error =>
            cases hanswer
            exact .inl ⟨rfl, _, rfl⟩
          | ok =>
            dsimp only at hanswer
            obtain ⟨hstaged', hreceipts'⟩ := confirmReceipt_ok hc
            have hcases := settle_cases facade (unit'.commit facade.eventStore.state) newVersion
              faults.commit
            rw [hanswer] at hcases
            rcases hcases with hkeep | ⟨hnew, hok⟩
            · exact .inl hkeep
            · cases hnew
              have hsays : outcome = outcomeAt facade.eventStore entity events := by
                rw [houtcome]
                cases events with
                | nil => rfl
                | cons =>
                  rw [if_neg (by simp)]
                  unfold outcomeAt
                  rw [hversion (by simp)]
              subst hsays
              refine .inr ⟨rfl, ⟨extended_of_streams ?_, ?_, ?_⟩, ?_⟩
              · intro k
                rw [StagingUnitOfWork.commit, streamAt_commit, hstaged', hstaged]
              · show AList.lookup _ (unit'.commit facade.eventStore.state).receipts = _
                rw [StagingUnitOfWork.commit, lookup_receipts_commit, hreceipts']
                simp
              · intro k hk
                show AList.lookup _ (unit'.commit facade.eventStore.state).receipts = _
                rw [StagingUnitOfWork.commit, lookup_receipts_commit, hreceipts', hreceipts,
                  AList.lookup_insert_ne hk]
                simp
              · intro n hn
                have hn' := hok n hn
                omega

end

/-! ## Commands -/

section
variable (entity : EntityTriple) (pre : PersistenceFacade E) (command : Command E S)
  (post : PersistenceFacade E) (outcome : Outcome E S)

/-- What became of a command the actor took: refused before the handler was
asked, failed by the handler, or executed as far as the store let it. -/
inductive Handles : Prop where
  | refused (reply : Reply E S) (same : post = pre) (answered : outcome = .refused reply)
      (error : (∃ e, reply = .error e) ∨ gate entity pre command = some reply) : Handles
  | failed (same : post = pre) (passed : gate entity pre command = none)
      (answered : ∃ e, outcome.reply = .error e) : Handles
  | ran (events : List E) (passed : gate entity pre command = none)
      (handled : command.handled = .ok events)
      (change : StoreChange entity pre.eventStore post.eventStore command.identity events)
      (written : (∃ e, outcome.reply = .error e) ∨ ∀ identity, command.identity = some identity →
        Executed entity identity events pre.eventStore post.eventStore) : Handles

end

section
variable {entity : EntityTriple} {facade : PersistenceFacade E} {actor : Actor S}
  {command : Command E S}

theorem executeNoEvents_handles (current : S) (hgate : gate entity facade command = none)
    (hh : command.handled = .ok []) :
    Handles entity facade command (executeNoEvents entity facade actor command current).1
      (executeNoEvents entity facade actor command current).2.2 := by
  unfold executeNoEvents
  cases hid : command.identity with
  | none =>
    refine .ran [] hgate hh ?_ (.inr ?_)
    · exact .refl ..
    · intro identity hid'
      simp [hid] at hid'
  | some identity =>
    dsimp only
    cases hanswer : facade.persistEventsWithReceipt entity.aggregateType entity.entityId
        (some entity.tenantId) actor.version [] (receiptFor entity identity .noEvents)
        command.faults with
    | mk facade' answer =>
      have hcases := persistEventsWithReceipt_change (by simp) hanswer
      have hchange : StoreChange entity facade.eventStore facade'.eventStore
          command.identity [] := by
        rcases hcases with ⟨rfl, -⟩ | ⟨-, hexec, -⟩
        · exact .refl ..
        · rw [hid]
          exact .executed identity [] hexec
      cases answer with
      | error => exact .ran [] hgate hh hchange (.inl ⟨_, rfl⟩)
      | ok =>
        refine .ran [] hgate hh hchange (.inr ?_)
        intro identity' hid'
        obtain rfl : identity = identity' := by simpa [hid] using hid'
        rcases hcases with ⟨-, e, he⟩ | ⟨-, hexec, -⟩
        · cases he
        · exact hexec

/-- What persisting the events of a command does, with and without identity. -/
theorem persistCommand_change {events : List E} (hne : events ≠ []) {version : Nat}
    {identity : Option OperationIdentity} {faults : StoreFaults} {facade' : PersistenceFacade E}
    {answer : Except EntityError Nat}
    (hp : persistCommand entity facade version identity events faults = .ok (facade', answer)) :
    facade'.snapshotStore = facade.snapshotStore ∧
      StoreChange entity facade.eventStore facade'.eventStore identity events ∧
      ∀ n, answer = .ok n → n = version + events.length ∧
        Extended entity events facade.eventStore facade'.eventStore ∧ ∀ i, identity = some i →
          Executed entity i events facade.eventStore facade'.eventStore := by
  unfold persistCommand at hp
  cases identity with
  | none =>
    cases hanswer : facade.persistEvents entity.aggregateType entity.entityId
        (some entity.tenantId) version events faults with
    | mk _ answer' =>
      simp only [hanswer] at hp
      cases hp
      obtain ⟨hsnapshots, hchange, hok⟩ := persistEvents_change hanswer
      refine ⟨hsnapshots, hchange, ?_⟩
      intro n hn
      cases answer' with
      | error => cases hn
      | ok =>
        cases hn
        obtain ⟨hm, hext⟩ := hok n rfl
        exact ⟨hm, hext, nofun⟩
  | some identity =>
    have hlen : 0 < events.length := List.length_pos_of_ne_nil hne
    have hrange : aggregateOutcomeEvents (version + 1) (version + events.length)
        = .ok (.events (version + 1) (version + events.length)) := by
      unfold aggregateOutcomeEvents
      rw [if_neg (by omega), if_neg (by omega)]
    simp only [hrange] at hp
    cases hanswer : facade.persistEventsWithReceipt entity.aggregateType entity.entityId
        (some entity.tenantId) version events
        (receiptFor entity identity (.events (version + 1) (version + events.length))) faults with
    | mk _ answer' =>
      rw [hanswer] at hp
      cases hp
      rcases persistEventsWithReceipt_change (by simp [hne]) hanswer with
        ⟨rfl, e, rfl⟩ | ⟨hsnapshots, hexec, hok⟩
      · exact ⟨rfl, .refl .., nofun⟩
      · refine ⟨hsnapshots, .executed identity events hexec, ?_⟩
        intro n hn
        cases answer' with
        | error => cases hn
        | ok =>
          cases hn
          refine ⟨hok n rfl, hexec.extended, ?_⟩
          rintro _ ⟨⟩
          exact hexec

theorem executeEvents_handles {events : List E} (hne : events ≠ [])
    (hgate : gate entity facade command = none) (hh : command.handled = .ok events) :
    Handles entity facade command (executeEvents entity facade actor command events).1
      (executeEvents entity facade actor command events).2.2 := by
  unfold executeEvents
  cases hp : persistCommand entity facade actor.version command.identity events
      command.faults with
  | error => exact .ran events hgate hh (.refl ..) (.inl ⟨_, rfl⟩)
  | ok written =>
    obtain ⟨facade', answer⟩ := written
    obtain ⟨-, hchange, hwritten⟩ := persistCommand_change hne hp
    cases answer with
    | error => exact .ran events hgate hh hchange (.inl ⟨_, rfl⟩)
    | ok newVersion =>
      obtain ⟨-, -, hexec⟩ := hwritten newVersion rfl
      -- accepting effects and snapshots leave the event store as it is
      have hstore : (afterPersist entity facade' actor command events newVersion).1.eventStore =
          facade'.eventStore := by
        unfold afterPersist takeSnapshot
        cases command.applied with
        | error => rfl
        | ok =>
          rcases acceptEffects entity command with ⟨accepted, _ | _⟩ <;>
            cases command.snapshot newVersion events.length <;> rfl
      dsimp only
      refine .ran events hgate hh ?_ (.inr ?_)
      · rwa [hstore]
      · rwa [hstore]

theorem executeCommand_handles (entity : EntityTriple) (facade : PersistenceFacade E)
    (actor : Actor S) (command : Command E S) :
    Handles entity facade command (executeCommand entity facade actor command).1
      (executeCommand entity facade actor command).2.2 := by
  unfold executeCommand
  cases actor.state with
  | none => exact .refused _ rfl rfl (.inl ⟨_, rfl⟩)
  | some current =>
    cases hgate : gate entity facade command with
    | some reply => exact .refused reply rfl rfl (.inr hgate)
    | none =>
      cases hh : command.handled with
      | error => exact .failed rfl hgate ⟨_, rfl⟩
      | ok events =>
        cases events with
        | nil => exact executeNoEvents_handles current hgate hh
        | cons => exact executeEvents_handles (by simp) hgate hh

/-- With a state and a readable receipt, the gate's answer is the reply. -/
theorem executeCommand_of_gate {current : S} {reply : Reply E S} (hs : actor.state = some current)
    (hgate : gate entity facade command = some reply) :
    executeCommand entity facade actor command = (facade, actor, .refused reply) := by
  simp [executeCommand, hs, hgate]

end

end EgoRs.Entity
