import EgoRs.Entity.Facade

/-! # Snapshots of Different Entities

Whether the snapshot an entity recovers from is its own. The actor saves
under `aggregate_id()` and recovery looks under the same joined string, so
two entities with one joined string share a slot, whatever their tenants:
the in-memory snapshot store is not keyed by tenant.

A run is a sequence of the two calls, made as the actor makes them, on a
facade whose event store holds anything.
-/

namespace EgoRs.Entity

open Framework EventStore

variable {E : Type}

/-! ### Calls -/

inductive SnapshotCall where
  | storeSnapshot (entity : EntityTriple) (version : Nat) (data : Json)
  | loadForRecovery (entity : EntityTriple)

def SnapshotCall.entity : SnapshotCall → EntityTriple
  | .storeSnapshot entity _ _ => entity
  | .loadForRecovery entity => entity

inductive SnapshotAnswer (E : Type) where
  | stored
  | recovered (result : Except String (Option SnapshotData × List (StoredEventRow E)))

/-- One call of an entity's actor. -/
def PersistenceFacade.snapshotStep (facade : PersistenceFacade E) :
    SnapshotCall → PersistenceFacade E × SnapshotAnswer E
  | .storeSnapshot entity version data =>
    (facade.storeSnapshot entity.aggregateId (some entity.tenantId) version data, .stored)
  | .loadForRecovery entity =>
    (facade, .recovered
      (facade.loadForRecovery entity.aggregateType entity.entityId (some entity.tenantId)))

/-- The two calls on a facade that starts without snapshots. -/
def snapshotCalls (eventStore : InMemoryEventStore E) :
    Machine (PersistenceFacade E) SnapshotCall (SnapshotAnswer E) where
  init := ⟨eventStore, ∅⟩
  step := PersistenceFacade.snapshotStep

abbrev SnapshotHistory (E : Type) : Type :=
  List (Transition (PersistenceFacade E) SnapshotCall (SnapshotAnswer E))

/-! ### Whose snapshot -/

/-- What the call leaves as the latest snapshot of `entity`. -/
def SnapshotCall.latest (entity : EntityTriple) (before : Option SnapshotData) :
    SnapshotCall → Option SnapshotData
  | .storeSnapshot e version data => if e = entity then some ⟨data, version⟩ else before
  | .loadForRecovery _ => before

/-- The last snapshot stored for `entity` itself. -/
def lastStored (entity : EntityTriple) (h : SnapshotHistory E) : Option SnapshotData :=
  h.foldl (fun before t => t.input.latest entity before) none

/-- Every call of `h` is made for one of the two entities. -/
def CallsOf (t u : EntityTriple) (h : SnapshotHistory E) : Prop :=
  ∀ x ∈ h, x.input.entity = t ∨ x.input.entity = u

/-- **Isolation of `u` from `t`**: in a run of calls for the two, a snapshot
that recovering `u` returns is the last one stored for `u`. -/
def IsolatedFrom (E : Type) (t u : EntityTriple) : Prop :=
  ∀ (eventStore : InMemoryEventStore E) (h : SnapshotHistory E) (s : PersistenceFacade E),
    (snapshotCalls eventStore).Exec (snapshotCalls eventStore).init h s → CallsOf t u h →
    ∀ h₁ x h₂ snap rows, h = h₁ ++ x :: h₂ → x.input = .loadForRecovery u →
      x.output = .recovered (.ok (some snap, rows)) → lastStored u h₁ = some snap

section
variable {facade : PersistenceFacade E} {entity t u : EntityTriple}

@[simp] theorem lastStored_snoc (h : SnapshotHistory E)
    (x : Transition (PersistenceFacade E) SnapshotCall (SnapshotAnswer E)) :
    lastStored entity (h ++ [x]) = x.input.latest entity (lastStored entity h) := by
  simp [lastStored]

end

/-! ### Slots that two entities do not share -/

section
variable {t u : EntityTriple}

/-- The slot of `u` holds what was last stored for `u`. -/
def SlotIsOwn (u : EntityTriple) (h : SnapshotHistory E) (s : PersistenceFacade E) : Prop :=
  s.snapshotStore.lookup u.aggregateId =
    (lastStored u h).map fun snap => ((snap.version : Int), snap.data)

variable {h : SnapshotHistory E} {s : PersistenceFacade E}

theorem slotIsOwn_step (hne : t.aggregateId ≠ u.aggregateId) (hs : SlotIsOwn u h s)
    (call : SnapshotCall) (hcall : call.entity = t ∨ call.entity = u)
    {x : Transition (PersistenceFacade E) SnapshotCall (SnapshotAnswer E)} (hx : x.input = call) :
    SlotIsOwn u (h ++ [x]) (s.snapshotStep call).1 := by
  unfold SlotIsOwn at hs ⊢
  rw [lastStored_snoc, hx]
  cases call with
  | loadForRecovery => exact hs
  | storeSnapshot entity version data =>
    show (s.snapshotStore.insert entity.aggregateId ((version : Int), data)).lookup
      u.aggregateId = _
    by_cases heu : entity = u
    · subst heu
      simp [SnapshotCall.latest]
    · have het : entity = t := hcall.resolve_right heu
      subst het
      rw [AList.lookup_insert_ne (Ne.symm hne), hs]
      simp [SnapshotCall.latest, heu]

theorem slotIsOwn_run (hne : t.aggregateId ≠ u.aggregateId) {eventStore : InMemoryEventStore E}
    (he : (snapshotCalls eventStore).Run h s) (hcalls : CallsOf t u h) : SlotIsOwn u h s := by
  refine he.invariant_along (C := fun _ x => x.input.entity = t ∨ x.input.entity = u) ?_ ?_
    (Along.of_forall hcalls)
  · simp [SlotIsOwn, snapshotCalls, lastStored]
  · intro h s call _ hs hcall
    exact slotIsOwn_step hne hs call hcall rfl

/-- Entities whose joined ids differ are isolated. -/
theorem isolated_of_ne (hne : t.aggregateId ≠ u.aggregateId) : IsolatedFrom E t u := by
  intro eventStore h s he hcalls h₁ x h₂ snap rows hh hin hout
  subst hh
  obtain ⟨he₁, hx, _⟩ := he.split_at
  have hcalls₁ : CallsOf t u h₁ := fun y hy => hcalls y (List.mem_append_left _ hy)
  have hslot := slotIsOwn_run hne he₁ hcalls₁
  -- the answer is read off the slot
  rw [hx, hin] at hout
  have hans : x.pre.loadForRecovery u.aggregateType u.entityId (some u.tenantId)
      = .ok (some snap, rows) := SnapshotAnswer.recovered.inj hout
  have hsnap : (x.pre.snapshotStore.lookup u.aggregateId).map
      (fun s => (⟨s.2, s.1.toNat⟩ : SnapshotData)) = some snap := by
    unfold PersistenceFacade.loadForRecovery InMemorySnapshotStore.loadSnapshot recoveryOf at hans
    simp only at hans
    split at hans
    · cases hans
    · exact congrArg Prod.fst (Except.ok.inj hans)
  rw [hslot] at hsnap
  cases hlast : lastStored u h₁ with
  | none => simp [hlast] at hsnap
  | some => simpa [hlast] using hsnap

end

/-! ### A slot that two entities share -/

def sharedSlotCalls (t u : EntityTriple) : List SnapshotCall :=
  [.storeSnapshot t 0 .null, .loadForRecovery u]

variable {t u : EntityTriple}

/-- Recovering `u` returns what was stored for `t`. -/
theorem recovers_other (hjoin : t.aggregateId = u.aggregateId) (htenant : u.tenantId ≠ "") :
    ((⟨InMemoryEventStore.new, ∅⟩ : PersistenceFacade E).storeSnapshot t.aggregateId
        (some t.tenantId) 0 .null).loadForRecovery u.aggregateType u.entityId
        (some u.tenantId) = .ok (some ⟨.null, 0⟩, []) := by
  have hslot : (InMemorySnapshotStore.saveSnapshot ∅ t.aggregateId (some t.tenantId)
      ((0 : Nat) : Int) .null).lookup (u.aggregateType ++ "-" ++ u.entityId)
        = some ((0 : Int), .null) := by
    have hkey : u.aggregateType ++ "-" ++ u.entityId = t.aggregateId := hjoin.symm
    rw [hkey]
    exact AList.lookup_insert _
  have hhist : historyOf ((InMemoryEventStore.new : InMemoryEventStore E).load u.aggregateType
      u.entityId (some u.tenantId)) = .ok [] := by
    simp [InMemoryEventStore.load, InMemoryEventStore.new, EventStore.load, resolveTenant,
      htenant, historyOf, bind, Except.bind]
  show recoveryOf (.ok ((InMemorySnapshotStore.saveSnapshot ∅ t.aggregateId (some t.tenantId)
      ((0 : Nat) : Int) .null).lookup (u.aggregateType ++ "-" ++ u.entityId)))
    (InMemoryEventStore.new.load u.aggregateType u.entityId (some u.tenantId)) _ = _
  rw [hslot]
  unfold recoveryOf
  simp only [hhist]
  rfl

theorem not_isolated_of_shared (hd : t ≠ u)
    (hjoin : t.aggregateId = u.aggregateId) (htenant : u.tenantId ≠ "") : ¬ IsolatedFrom E t u := by
  intro hiso
  let m := snapshotCalls (InMemoryEventStore.new : InMemoryEventStore E)
  have hrun := m.exec_trace m.init (sharedSlotCalls t u)
  have hcalls : CallsOf t u (m.trace m.init (sharedSlotCalls t u)) := by
    intro x hx
    simp only [sharedSlotCalls, Machine.trace, List.mem_cons, List.not_mem_nil, or_false] at hx
    rcases hx with rfl | rfl
    · exact .inl rfl
    · exact .inr rfl
  have hown := hiso _ _ _ hrun hcalls [m.fire m.init (.storeSnapshot t 0 .null)]
    (m.fire (m.step m.init (.storeSnapshot t 0 .null)).1 (.loadForRecovery u)) []
    ⟨.null, 0⟩ [] rfl rfl (congrArg SnapshotAnswer.recovered (recovers_other hjoin htenant))
  -- nothing was ever stored for `u`
  simp [lastStored, Machine.fire, SnapshotCall.latest, hd] at hown

/-! ### Isolation -/

/-- **Two entities' snapshots are apart exactly when their joined ids are**,
or when the recovering one has no tenant and never recovers. -/
theorem isolatedFrom_iff {t u : EntityTriple} (hd : t ≠ u) :
    IsolatedFrom E t u ↔ u.tenantId = "" ∨ t.aggregateId ≠ u.aggregateId := by
  constructor
  · intro hiso
    by_contra hcon
    rw [not_or, not_not] at hcon
    exact not_isolated_of_shared hd hcon.2 hcon.1 hiso
  · rintro (htenant | hne)
    · intro eventStore h s he _ h₁ x h₂ snap rows hh hin hout
      subst hh
      obtain ⟨_, hx, _⟩ := he.split_at
      rw [hx, hin] at hout
      have hans := SnapshotAnswer.recovered.inj hout
      -- recovery fails before any snapshot is handed out
      simp [PersistenceFacade.loadForRecovery, InMemorySnapshotStore.loadSnapshot, recoveryOf,
        InMemoryEventStore.load, EventStore.load, resolveTenant, historyOf, htenant, bind,
        Except.bind] at hans
    · exact isolated_of_ne hne

/-- Orders `7` and `8` of one tenant. -/
theorem isolatedFrom_orders :
    (⟨"acme", "order", "7"⟩ : EntityTriple) ≠ ⟨"acme", "order", "8"⟩ ∧
      IsolatedFrom Nat ⟨"acme", "order", "7"⟩ ⟨"acme", "order", "8"⟩ :=
  ⟨by decide, (isolatedFrom_iff (by decide)).mpr (.inr (by decide))⟩

/-- Order `7` of one tenant recovers from order `7` of another; so does
account `7` of users from user `account-7`. -/
theorem snapshot_shared_across_tenants :
    ¬ IsolatedFrom Nat ⟨"acme", "order", "7"⟩ ⟨"globex", "order", "7"⟩ ∧
      ¬ IsolatedFrom Nat ⟨"acme", "user", "account-7"⟩ ⟨"acme", "user-account", "7"⟩ :=
  ⟨not_isolated_of_shared (by decide) (by decide) (by decide),
    not_isolated_of_shared (by decide) (by decide) (by decide)⟩

end EgoRs.Entity
