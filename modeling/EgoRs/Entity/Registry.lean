import EgoRs.Entity.Actor
import EgoRs.Framework.Transactions

/-! # The Entity Registry

`EntityRegistry` (`persistent-entity/src/registry.rs`) with the tasks that
`TokioEntityRef::new` spawns and the `TeardownGuard` each of them drops
(`entity_ref_tokio.rs`). A call under the registry's lock is one step, and so
is each of the guard's own; between them anybody else may act.

An activation is named by its position in the order of insertion, which also
stands for its mailbox and its watch channel.
-/

namespace EgoRs.Entity

open Framework

/-! ## The registry and its activations -/

/-- Where an activation is: the guard of an ended task drains the mailbox,
removes the entry and publishes a last state. -/
inductive Phase where
  | inserted
  | running
  | ended
  | drained
  | removed
  | finished
  deriving DecidableEq

/-- The guard has not removed the entry yet. -/
def Phase.live : Phase → Bool
  | .removed | .finished => false
  | _ => true

structure Activation where
  triple : EntityTriple
  /-- The command type of the mailbox. -/
  commandType : String
  epoch : Nat
  phase : Phase
  /-- What is published on its watch channel. -/
  published : EntityState

structure ActiveEntry where
  mailbox : Nat
  commandType : String
  epoch : Nat
  triple : EntityTriple

structure Registry where
  active : AList (fun _ : EntityTriple => ActiveEntry)
  /-- An `AtomicU64`. -/
  nextEpoch : Nat
  passivated : AList (fun _ : EntityTriple => Nat)
  activations : List Activation

/-- `MAX_PASSIVATED_ENTRIES`. -/
def maxPassivatedEntries : Nat := 10000

/-- How a task ends; the guard is dropped in every case. -/
inductive TaskExit where
  | normal
  | failed
  | panicked
  | cancelled

inductive RegistryInput where
  /-- `TokioEntityRef::new`, up to its `spawn`. -/
  | entityRef (triple : EntityTriple) (commandType : String)
  /-- The task is spawned, or dropped where there is no runtime. -/
  | spawn (k : Nat) (accepted : Bool)
  /-- The actor publishes a state. -/
  | publish (k : Nat) (state : EntityState)
  /-- The actor calls `mark_passivated`; `victim` picks what a full map drops. -/
  | markPassivated (k version victim : Nat)
  | exit (k : Nat) (how : TaskExit)
  | closeAndDrain (k : Nat)
  | deactivateIfMine (k : Nat)
  | publishTerminal (k : Nat)

/-- The activation whose task or guard acts. -/
def RegistryInput.actor : RegistryInput → Option Nat
  | .entityRef _ _ => none
  | .spawn k _ | .publish k _ | .markPassivated k _ _ | .exit k _ | .closeAndDrain k
  | .deactivateIfMine k | .publishTerminal k => some k

inductive RegistryOutput where
  | routed (mailbox : Except String Nat)
  | done
  | idle

namespace Registry

/-- `lookup_or_insert` for a triple that has no entry. -/
def insert (s : Registry) (triple : EntityTriple) (commandType : String) : Registry :=
  let mailbox := s.activations.length
  { s with
    active := s.active.insert triple ⟨mailbox, commandType, s.nextEpoch, triple⟩
    nextEpoch := (s.nextEpoch + 1) % 2 ^ 64
    activations := s.activations ++ [⟨triple, commandType, s.nextEpoch, .inserted, .recovering⟩] }

/-- `lookup_or_insert`, `ensure_owner_matches` and the downcast. -/
def entityRef (s : Registry) (triple : EntityTriple) (commandType : String) :
    Registry × RegistryOutput :=
  match s.active.lookup triple with
  | some entry =>
    if entry.triple ≠ triple then (s, .routed (.error "registry routing-key mismatch"))
    else if entry.commandType ≠ commandType then
      (s, .routed (.error ("routing type mismatch for triple " ++ triple.aggregateId)))
    else (s, .routed (.ok entry.mailbox))
  | none => (s.insert triple commandType, .routed (.ok s.activations.length))

/-- Activation `k` goes on from a phase. -/
def move (s : Registry) (k : Nat) (phase : Phase) (f : Activation → Activation) :
    Registry × RegistryOutput :=
  match s.activations[k]? with
  | some a =>
    if a.phase = phase then ({ s with activations := s.activations.set k (f a) }, .done)
    else (s, .idle)
  | none => (s, .idle)

def markPassivated (s : Registry) (triple : EntityTriple) (version victim : Nat) : Registry :=
  let kept := if maxPassivatedEntries ≤ s.passivated.keys.length then
      match (s.passivated.keys.rotate victim).head? with
      | some oldest => s.passivated.erase oldest
      | none => s.passivated
    else s.passivated
  { s with passivated := kept.insert triple version }

def deactivateIfMine (s : Registry) (triple : EntityTriple) (epoch : Nat) : Registry :=
  match s.active.lookup triple with
  | some entry =>
    if entry.epoch = epoch then { s with active := s.active.erase triple } else s
  | none => s

def step (s : Registry) : RegistryInput → Registry × RegistryOutput
  | .entityRef triple commandType => s.entityRef triple commandType
  | .spawn k accepted => s.move k .inserted fun a =>
      { a with phase := if accepted then .running else .ended }
  | .publish k state => s.move k .running fun a => { a with published := state }
  | .markPassivated k version victim =>
    match s.activations[k]? with
    | some a =>
      if a.phase = .running then (s.markPassivated a.triple version victim, .done) else (s, .idle)
    | none => (s, .idle)
  | .exit k _ => s.move k .running fun a => { a with phase := .ended }
  | .closeAndDrain k => s.move k .ended fun a => { a with phase := .drained }
  | .deactivateIfMine k =>
    match s.activations[k]? with
    | some a =>
      if a.phase = .drained then
        (s.deactivateIfMine a.triple a.epoch).move k .drained fun a => { a with phase := .removed }
      else (s, .idle)
    | none => (s, .idle)
  | .publishTerminal k => s.move k .removed fun a =>
      { a with
        phase := .finished
        published :=
          if a.published ≠ .failed ∧ a.published ≠ .passivated then .failed else a.published }

end Registry

def registry : Machine Registry RegistryInput RegistryOutput where
  init := ⟨∅, 0, ∅, []⟩
  step := Registry.step

abbrev RegistryEvent : Type := Transition Registry RegistryInput RegistryOutput

/-! ## One entry for each live activation -/

/-- The entries are those of the live activations. -/
structure Registered (s : Registry) : Prop where
  entry : ∀ triple entry, s.active.lookup triple = some entry →
    ∃ a, s.activations[entry.mailbox]? = some a ∧ a.phase.live = true ∧
      entry = ⟨entry.mailbox, a.commandType, a.epoch, triple⟩ ∧ a.triple = triple
  live : ∀ k a, s.activations[k]? = some a → a.phase.live = true →
    ∃ entry, s.active.lookup a.triple = some entry ∧ entry.mailbox = k

section
variable {s : Registry} {k : Nat} {a : Activation}

/-- The entry of a live activation. -/
theorem Registered.entry_of_live (h : Registered s) (hat : s.activations[k]? = some a)
    (hlive : a.phase.live = true) :
    s.active.lookup a.triple = some ⟨k, a.commandType, a.epoch, a.triple⟩ := by
  obtain ⟨entry, hentry, rfl⟩ := h.live k a hat hlive
  obtain ⟨b, hb, -, heq, -⟩ := h.entry a.triple entry hentry
  rw [hat] at hb
  cases hb
  rw [hentry, heq]

theorem Registered.insert (h : Registered s) {triple : EntityTriple} (commandType : String)
    (hnone : s.active.lookup triple = none) : Registered (s.insert triple commandType) where
  entry other entry hat := by
    obtain ⟨rfl, rfl⟩ | ⟨-, hat'⟩ := lookup_insert_cases hat
    · exact ⟨_, List.getElem?_concat_length, rfl, rfl, rfl⟩
    · obtain ⟨b, hb, hrest⟩ := h.entry other entry hat'
      exact ⟨b, (List.getElem?_append_left (List.getElem?_eq_some_iff.mp hb).1).trans hb, hrest⟩
  live k a hat hlive := by
    obtain ⟨rfl, rfl⟩ | hold := getElem?_concat_cases hat
    · exact ⟨_, AList.lookup_insert _, rfl⟩
    · obtain ⟨entry, hentry, hmine⟩ := h.live k a hold hlive
      have hne : a.triple ≠ triple := by
        intro heq
        rw [heq, hnone] at hentry
        cases hentry
      exact ⟨entry, (AList.lookup_insert_ne hne).trans hentry, hmine⟩

theorem Registered.set (h : Registered s) (hat : s.activations[k]? = some a) {b : Activation}
    (hb : b.triple = a.triple ∧ b.commandType = a.commandType ∧ b.epoch = a.epoch)
    (hlive : b.phase.live = a.phase.live) :
    Registered { s with activations := s.activations.set k b } where
  entry triple entry hentry := by
    obtain ⟨c, hc, hrest⟩ := h.entry triple entry hentry
    by_cases hk : entry.mailbox = k
    · rw [hk, hat] at hc
      cases hc
      refine ⟨b, ?_, ?_⟩
      · rw [hk]
        exact List.getElem?_set_self (List.getElem?_eq_some_iff.mp hat).1
      · rw [hlive, hb.1, hb.2.1, hb.2.2]
        exact hrest
    · exact ⟨c, (List.getElem?_set_ne (Ne.symm hk)).trans hc, hrest⟩
  live j c hj hjlive := by
    obtain ⟨rfl, rfl⟩ | ⟨-, hold⟩ := getElem?_set_cases hat hj
    · rw [hb.1]
      exact h.live j a hat (hlive ▸ hjlive)
    · exact h.live j c hold hjlive

theorem Registered.move (h : Registered s) (k : Nat) (phase : Phase) (f : Activation → Activation)
    (hf : ∀ a, (f a).triple = a.triple ∧ (f a).commandType = a.commandType ∧ (f a).epoch = a.epoch)
    (hlive : ∀ a, a.phase = phase → (f a).phase.live = a.phase.live) :
    Registered (s.move k phase f).1 := by
  unfold Registry.move
  split
  · split_ifs with hphase
    · exact h.set ‹_› (hf _) (hlive _ hphase)
    · exact h
  · exact h

/-- The guard of a live activation removes its own entry. -/
theorem Registered.deactivate (h : Registered s) (hat : s.activations[k]? = some a)
    (hphase : a.phase = .drained) : (registry.step s (.deactivateIfMine k)).1 = { s with
        active := s.active.erase a.triple
        activations := s.activations.set k { a with phase := .removed } } := by
  have hmine := h.entry_of_live hat (by rw [hphase]; rfl)
  simp [registry, Registry.step, hat, hphase, Registry.deactivateIfMine, hmine, Registry.move]

theorem Registered.removed (h : Registered s) (hat : s.activations[k]? = some a)
    (hphase : a.phase = .drained) :
    Registered { s with
      active := s.active.erase a.triple
      activations := s.activations.set k { a with phase := .removed } } where
  entry triple entry hentry := by
    obtain ⟨hne, hold⟩ := lookup_erase_some hentry
    obtain ⟨b, hb, hlive, heq, htriple⟩ := h.entry triple entry hold
    refine ⟨b, ?_, hlive, heq, htriple⟩
    rw [List.getElem?_set_ne, hb]
    rintro rfl
    rw [hat] at hb
    cases hb
    exact hne htriple.symm
  live j b hj hlive := by
    obtain ⟨rfl, rfl⟩ | ⟨hjk, hold⟩ := getElem?_set_cases hat hj
    · cases hlive
    · obtain ⟨entry, hentry, rfl⟩ := h.live j b hold hlive
      refine ⟨entry, ?_, rfl⟩
      rw [AList.lookup_erase_ne, hentry]
      intro heq
      -- two live activations of one triple share its entry
      have hmine := h.entry_of_live hat (by rw [hphase]; rfl)
      rw [← heq, hentry] at hmine
      exact hjk (congrArg ActiveEntry.mailbox (Option.some.inj hmine))

/-- **Step lemma.** -/
theorem Registered.step (h : Registered s) (input : RegistryInput) :
    Registered (registry.step s input).1 := by
  cases input with
  | entityRef triple commandType =>
    show Registered (s.entityRef triple commandType).1
    unfold Registry.entityRef
    split
    · split_ifs <;> exact h
    · exact h.insert commandType ‹_›
  | spawn k accepted =>
    exact h.move k _ _ (fun _ => ⟨rfl, rfl, rfl⟩) fun a ha => by rw [ha]; cases accepted <;> rfl
  | publish k => exact h.move k _ _ (fun _ => ⟨rfl, rfl, rfl⟩) fun _ _ => rfl
  | exit k | closeAndDrain k | publishTerminal k =>
    exact h.move k _ _ (fun _ => ⟨rfl, rfl, rfl⟩) fun a ha => by rw [ha]; rfl
  | markPassivated k =>
    show Registered (match s.activations[k]? with | some a => _ | none => _ : _ × RegistryOutput).1
    split
    · split_ifs
      · exact ⟨h.entry, h.live⟩
      · exact h
    · exact h
  | deactivateIfMine k =>
    cases hat : s.activations[k]? with
    | none =>
      simp only [registry, Registry.step, hat]
      exact h
    | some a =>
      by_cases hphase : a.phase = .drained
      · rw [h.deactivate hat hphase]
        exact h.removed hat hphase
      · simp only [registry, Registry.step, hat, if_neg hphase]
        exact h

/-- **Run lemma.** -/
theorem registered_of_exec {h : List RegistryEvent} (he : registry.Run h s) : Registered s := by
  refine he.invariant (P := fun _ s => Registered s) ⟨?_, ?_⟩ fun _ _ input _ hs => hs.step input
  · intro triple entry hat
    cases hat
  · intro k a hat
    cases hat

/-- What a step of activation `k` leaves alone: the entries and states of all
others. Only while its entry is its own does it mark the triple passivated. -/
structure LeavesOthers (s s' : Registry) (k : Nat) : Prop where
  entries : ∀ triple entry, s.active.lookup triple = some entry → entry.mailbox ≠ k →
    s'.active.lookup triple = some entry
  states : ∀ j, j ≠ k → s'.activations[j]? = s.activations[j]?
  marks : s'.passivated ≠ s.passivated → ∃ a entry, s.activations[k]? = some a ∧
    s.active.lookup a.triple = some entry ∧ entry.mailbox = k

theorem LeavesOthers.refl (s : Registry) (k : Nat) : LeavesOthers s s k :=
  ⟨fun _ _ hat _ => hat, fun _ _ => rfl, fun hne => absurd rfl hne⟩

theorem leavesOthers_move (s : Registry) (k : Nat) (phase : Phase) (f : Activation → Activation) :
    LeavesOthers s (s.move k phase f).1 k := by
  unfold Registry.move
  split
  · split_ifs
    · exact ⟨fun _ _ hat _ => hat, fun j hj => List.getElem?_set_ne (Ne.symm hj),
        fun hne => absurd rfl hne⟩
    · exact .refl s k
  · exact .refl s k

/-- The task and guard of an activation act on their own entry and state. -/
theorem Registered.leavesOthers (h : Registered s) {input : RegistryInput}
    (hactor : input.actor = some k) : LeavesOthers s (registry.step s input).1 k := by
  cases input with
  | entityRef => cases hactor
  | spawn | publish | exit | closeAndDrain | publishTerminal =>
    cases hactor
    exact leavesOthers_move s k _ _
  | markPassivated =>
    cases hactor
    simp only [registry, Registry.step]
    split
    · split_ifs with hphase
      · have hmine := h.entry_of_live ‹_› (by rw [hphase]; rfl)
        exact ⟨fun _ _ hat _ => hat, fun _ _ => rfl, fun _ => ⟨_, _, ‹_›, hmine, rfl⟩⟩
      · exact .refl s k
    · exact .refl s k
  | deactivateIfMine j =>
    cases hactor
    cases hat : s.activations[k]? with
    | none =>
      simp only [registry, Registry.step, hat]
      exact .refl s k
    | some a =>
      by_cases hphase : a.phase = .drained
      · rw [h.deactivate hat hphase]
        refine ⟨?_, fun j hj => List.getElem?_set_ne (Ne.symm hj), fun hne => absurd rfl hne⟩
        intro triple entry hentry hother
        rw [AList.lookup_erase_ne, hentry]
        rintro rfl
        have hmine := h.entry_of_live hat (by rw [hphase]; rfl)
        rw [hentry] at hmine
        cases hmine
        exact hother rfl
      · simp only [registry, Registry.step, hat, if_neg hphase]
        exact .refl s k

end

/-- An entity is asked for before and after the guard of its ended task removes its entry. -/
def replacedActor : List RegistryInput :=
  let order : EntityTriple := ⟨"acme", "Order", "1"⟩
  [.entityRef order "Place", .spawn 0 true, .entityRef order "Place", .exit 0 .panicked,
    .closeAndDrain 0, .entityRef order "Place", .deactivateIfMine 0, .entityRef order "Place",
    .spawn 1 true, .publishTerminal 0]

end EgoRs.Entity
