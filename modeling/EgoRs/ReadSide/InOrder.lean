import EgoRs.ReadSide.OneWorker

/-! # In Order, and Once

With one worker, and without errors and crashes, the handler is given the
events of a stream in the order of their versions, each once and none left
out: what it was given so far is the front of the stream, up to the offset
whenever nobody works.
-/

namespace EgoRs.ReadSide

open Framework

variable {E : Type}

/-! ## Where a view stands -/

section
variable {v v' : View E} {k : Int}

/-- The handler was given everything up to `k`, and nothing after it is marked. -/
def View.StandsAt (v : View E) (k : Int) : Prop :=
  v.given = v.stream.filter (fun e => decide (e.eventVersion ≤ k)) ∧
    ∀ x ∈ v.stream, k < x.eventVersion → v.marked x = false

theorem View.StandsAt.aside (h : v.StandsAt k) (hk : v.Anchored k) (hwf' : v'.WellFormed)
    (haside : Aside v v') : v'.StandsAt k := by
  obtain ⟨appended, hstream, hnew⟩ := haside.stream
  have hnone : appended.filter (fun e => decide (e.eventVersion ≤ k)) = [] := by
    apply List.filter_eq_nil_iff.mpr
    intro e he hle
    exact absurd (hk.lt_of_appended hwf' hstream he) (Int.not_lt.mpr (of_decide_eq_true hle))
  refine ⟨?_, ?_⟩
  · rw [haside.given, h.1, hstream, List.filter_append, hnone, List.append_nil]
  · intro x hx hlt
    rw [hstream] at hx
    rcases List.mem_append.mp hx with hold | hnewer
    · rw [haside.marked x hold]
      exact h.2 x hold hlt
    · exact hnew x hnewer

theorem View.StandsAt.given_front (h : v.StandsAt k)
    (hwf : v.WellFormed) : v.given <+: v.stream := by
  rw [h.1]
  exact ⟨v.after k, hwf.split k⟩

/-- The batch that was given brings the view to its last event. -/
theorem View.StandsAt.give {unique : TagStream E} (h : v.StandsAt k) (hwf : v.WellFormed)
    (hunique : unique <+: v.after k) (hne : unique ≠ []) :
    View.StandsAt { v with given := v.given ++ unique } (unique.getLast hne).eventVersion := by
  have hlast : unique.getLast hne ∈ v.after k := hunique.subset (List.getLast_mem hne)
  have hfront : v.given ++ unique <+: v.stream := by
    obtain ⟨back, hback⟩ := hunique
    refine ⟨back, ?_⟩
    rw [List.append_assoc, hback, h.1]
    exact hwf.split k
  refine ⟨?_, ?_⟩
  · have hne' : v.given ++ unique ≠ [] := by simp [hne]
    have heq := hwf.increasing.prefix_eq_filter hfront hne'
    rw [List.getLast_append_of_ne_nil hne' hne] at heq
    exact heq
  · intro x hx hlt
    exact h.2 x hx (Int.lt_trans (View.mem_after.mp hlast).2 hlt)

end

/-! ## One worker without errors -/

def Phase.isError : Phase E → Bool
  | .release _ (.error _) => true
  | .returned (.error _) => true
  | _ => false

variable (E) in
/-- No call fails, no error is returned, nobody stops. -/
def flawless : Discipline E where
  starts := fun _ => true
  moves := fun _ answer phase' => answer.fault.isNone && !phase'.isError
  stops := fun _ => false

def InOrderIdle (v : View E) : Prop := v.StandsAt (resumesAfter v.offset)

/-- The handler has accepted a batch that ends at the offset; these of it are still to be
marked. -/
def Committing (v : View E) (offset : Offset) (rest : TagStream E) : Prop :=
  ∃ x ∈ v.stream, offset = .sequence x.eventVersion ∧ v.StandsAt x.eventVersion ∧
    ∀ y ∈ rest, y ∈ v.stream ∧ y.eventVersion ≤ x.eventVersion

def BatchPhase.InOrder (v : View E) : BatchPhase E → Prop
  | .fetch lastOffset => InOrderIdle v ∧ lastOffset = v.offset
  | .check rest unique => InOrderIdle v ∧ unique ++ rest <+: v.after (resumesAfter v.offset)
  | .handle unique => InOrderIdle v ∧ unique ≠ [] ∧ unique <+: v.after (resumesAfter v.offset)
  | .renewClock unique => unique ≠ [] ∧ Committing v (newOffset unique) unique
  | .renew unique _ => unique ≠ [] ∧ Committing v (newOffset unique) unique
  | .mark offset rest _ => Committing v offset rest
  | .write offset _ _ => Committing v offset []
  | _ => InOrderIdle v

def Phase.InOrder (v : View E) : Phase E → Prop
  | .batch _ phase => phase.InOrder v
  | _ => InOrderIdle v

section
variable {v v' : View E}

theorem InOrderIdle.aside (hwf : v.WellFormed) (hwf' : v'.WellFormed) (haside : Aside v v')
    (h : InOrderIdle v) : InOrderIdle v' := by
  unfold InOrderIdle
  rw [haside.offset]
  exact View.StandsAt.aside h hwf.anchored hwf' haside

variable {offset : Offset} {rest : TagStream E} {phase : BatchPhase E} {fence : Option ClaimFence}

theorem Committing.aside (hwf' : v'.WellFormed) (haside : Aside v v') (h : Committing v offset rest)
    : Committing v' offset rest := by
  obtain ⟨x, hx, hoffset, hstands, hrest⟩ := h
  obtain ⟨appended, hstream, -⟩ := haside.stream
  have hin : ∀ y ∈ v.stream, y ∈ v'.stream := by
    intro y hy
    rw [hstream]
    exact List.mem_append_left _ hy
  refine ⟨x, hin x hx, hoffset, hstands.aside (.inr ⟨x, hx, rfl⟩) hwf' haside, ?_⟩
  intro y hy
  exact ⟨hin y (hrest y hy).1, (hrest y hy).2⟩

theorem BatchPhase.InOrder.aside (hwf : v.WellFormed) (hwf' : v'.WellFormed) (haside : Aside v v')
    (h : phase.InOrder v) : phase.InOrder v' := by
  have hafter : v.after (resumesAfter v.offset) <+: v'.after (resumesAfter v'.offset) := by
    rw [haside.offset]
    obtain ⟨appended, heq, -⟩ := hwf.anchored.after_grows hwf' haside
    exact ⟨appended, heq.symm⟩
  cases phase with
  | readOffset | ended => exact InOrderIdle.aside hwf hwf' haside h
  | fetch => exact ⟨h.1.aside hwf hwf' haside, h.2.trans haside.offset.symm⟩
  | check => exact ⟨h.1.aside hwf hwf' haside, h.2.trans hafter⟩
  | handle => exact ⟨h.1.aside hwf hwf' haside, h.2.1, h.2.2.trans hafter⟩
  | renewClock | renew => exact ⟨h.1, h.2.aside hwf' haside⟩
  | mark | write => exact Committing.aside hwf' haside h

theorem Phase.InOrder.aside (hwf : v.WellFormed) (hwf' : v'.WellFormed) (haside : Aside v v')
    {phase : Phase E} (h : phase.InOrder v) : phase.InOrder v' := by
  cases phase with
  | batch => exact BatchPhase.InOrder.aside hwf hwf' haside h
  | _ => exact InOrderIdle.aside hwf hwf' haside h

theorem inOrder_afterFetch {events : TagStream E} (h : InOrderIdle v)
    (hevents : events <+: v.after (resumesAfter v.offset)) : (afterFetch events).InOrder v := by
  unfold afterFetch
  split
  · exact h
  · exact ⟨h, hevents⟩

theorem inOrder_afterCheck {unique : TagStream E} (h : InOrderIdle v)
    (hevents : unique ++ rest <+: v.after (resumesAfter v.offset)) :
    (afterCheck rest unique).InOrder v := by
  unfold afterCheck
  cases rest with
  | nil =>
    rw [List.append_nil] at hevents
    cases unique with
    | nil => exact h
    | cons => exact ⟨h, by simp, hevents⟩
  | cons => exact ⟨h, hevents⟩

theorem inOrder_afterMark {lease : Option Timestamp} (h : Committing v offset rest) :
    (afterMark offset rest lease).InOrder v := by
  unfold afterMark
  cases rest with
  | nil | cons => exact h

/-- A batch the handler has accepted is about to be committed. -/
theorem committing_give {unique : TagStream E} (hwf : v.WellFormed) (h : InOrderIdle v)
    (hunique : unique <+: v.after (resumesAfter v.offset)) (hne : unique ≠ []) :
    Committing { v with given := v.given ++ unique } (newOffset unique) unique := by
  have hin : ∀ y ∈ unique, y ∈ v.stream := fun y hy => (View.mem_after.mp (hunique.subset hy)).1
  refine ⟨unique.getLast hne, hin _ (List.getLast_mem hne), ?_,
    View.StandsAt.give h hwf hunique hne, ?_⟩
  · unfold newOffset
    rw [List.getLast?_eq_some_getLast hne]
    rfl
  · intro y hy
    refine ⟨hin y hy, ?_⟩
    have hinc : Increasing EventStreamElement.eventVersion unique :=
      (hwf.increasing.filter _).sublist hunique.sublist
    have hfront := hinc.prefix_eq_filter (List.prefix_refl _) hne
    rw [hfront] at hy
    exact of_decide_eq_true (List.mem_filter.mp hy).2

/-- Marking an event does not mark what comes after it. -/
theorem Committing.mark (hwf : v.WellFormed) {event : EventStreamElement E}
    (h : Committing v offset (event :: rest))
    (hmarked : ∀ x, x.eventId ≠ event.eventId → v'.marked x = v.marked x)
    (hstream : v'.stream = v.stream) (hgiven : v'.given = v.given) : Committing v' offset rest := by
  obtain ⟨x, hx, hoffset, ⟨hfront, hunmarked⟩, hrest⟩ := h
  obtain ⟨hevent, hle⟩ := hrest event List.mem_cons_self
  refine ⟨x, by rw [hstream]; exact hx, hoffset, ⟨by rw [hgiven, hstream]; exact hfront, ?_⟩, ?_⟩
  · intro y hy hlt
    rw [hstream] at hy
    rw [hmarked]
    · exact hunmarked y hy hlt
    · intro hid
      obtain rfl := hwf.uniqueIds y hy event hevent hid
      omega
  · intro y hy
    rw [hstream]
    exact hrest y (List.mem_cons_of_mem _ hy)

theorem isError_settle {e : ProjectionError} :
    (settle fence (.ended (.error e)) : Phase E).isError = true := by
  cases fence <;> rfl

theorem inOrder_settle (h : phase.InOrder v) : (settle fence phase).InOrder v := by
  cases phase with
  | ended => cases fence <;> exact h
  | _ => exact h

theorem inOrder_batch {backend : OffsetBackend} {g : TagStream E} {stores stores' : Stores E}
    {session : ReadSideSession} {phase' : BatchPhase E} {answer : Answer}
    (hwf : (viewOf g stores session.claimId).WellFormed)
    (hmoves : BatchMoves backend session fence stores answer phase stores' phase')
    (hok : ∀ e, phase' ≠ .ended (.error e)) (h : phase.InOrder (viewOf g stores session.claimId)) :
    phase'.InOrder (viewOf (g ++ (Phase.batch fence phase).gives) stores' session.claimId) := by
  by_cases hgives : (Phase.batch fence phase).gives = []
  swap
  · -- only the handler is given something
    cases hmoves with
    | handled unique =>
      have hcommitting := committing_give hwf h.1 h.2.2 h.2.1
      change BatchPhase.InOrder (viewOf (g ++ unique) stores session.claimId) _
      unfold afterHandle
      split
      · exact ⟨h.2.1, hcommitting⟩
      · exact inOrder_afterMark hcommitting
    | failed _ e => exact absurd rfl (hok e)
    | _ => exact absurd rfl hgives
  rw [hgives, List.append_nil]
  cases hmoves with
  | handled => exact absurd hgives h.2.1
  | failed _ e | renewFailed _ _ e | renewLost _ _ _ e
  | markFailed _ _ _ _ e | markLost _ _ _ _ e
  | writeFailed _ _ _ e | writeLost _ _ _ e => exact absurd rfl (hok e)
  | readOffset => exact ⟨h, rfl⟩
  | fetched =>
    obtain ⟨hidle, rfl⟩ := h
    refine inOrder_afterFetch hidle ?_
    rw [paginate_eq_take g]
    split
    · exact List.nil_prefix
    · exact List.take_prefix _ _
  | checked event =>
    have hevent : event ∈ (viewOf g stores session.claimId).after _ :=
      h.2.subset (List.mem_append_right _ List.mem_cons_self)
    have hunmarked := h.1.2 event (View.mem_after.mp hevent).1 (View.mem_after.mp hevent).2
    rw [seen_eq_marked g, hunmarked]
    refine inOrder_afterCheck h.1 ?_
    simpa using h.2
  | checkedAll => exact inOrder_afterCheck h.1 h.2
  | renewed => exact inOrder_afterMark (v := viewOf g stores session.claimId) h.2
  | marked =>
    refine inOrder_afterMark (Committing.mark hwf h ?_ rfl rfl)
    intro x hne
    exact marked_markSeen g hne
  | markedAll => exact inOrder_afterMark h
  | wrote =>
    obtain ⟨x, hx, rfl, hstands, -⟩ := h
    show View.StandsAt _ (resumesAfter
      ((stores.offsets.insert session.claimId (.sequence x.eventVersion)).lookup session.claimId))
    rw [AList.lookup_insert]
    exact hstands
  | _ => exact h

/-- **In order**, step by step. -/
theorem keeps_inOrder (backend : OffsetBackend) (key : ClaimId) :
    Keeps backend (flawless E) key InOrderIdle fun v _ phase => phase.InOrder v where
  asideIdle := fun hwf hwf' haside h => h.aside hwf hwf' haside
  asideDuring := fun hwf hwf' haside h => h.aside hwf hwf' haside
  start := by
    intro v session _ _ h
    unfold ReadSideSession.begin
    split <;> exact h
  moves := by
    intro g stores stores' session phase phase' answer hkey hwf hmoves hallowed h
    subst hkey
    have hnoError : phase'.isError = false := by
      simp only [flawless, Bool.and_eq_true, Bool.not_eq_true'] at hallowed
      exact hallowed.2
    have hnext : phase'.InOrder (viewOf (g ++ phase.gives) stores' session.claimId) := by
      cases hmoves with
      | batch _ _ _ _ moves =>
        refine inOrder_settle (inOrder_batch hwf moves ?_ h)
        rintro e rfl
        rw [isError_settle] at hnoError
        cases hnoError
      | _ =>
        simp only [Phase.gives, List.append_nil]
        exact h
    cases phase' with
    | returned | stopped => exact hnext
    | _ => exact hnext
  stops := by
    intro v session phase hstops
    cases hstops

end

/-! ## No event is skipped -/

/-- **No event is skipped**, and with one worker and no errors none comes twice. -/
structure NoEventSkipped (h : ReadSideHistory E) (s : ReadSideState E) : Prop where
  /-- Every event up to the offset was in a batch the handler has accepted. -/
  covered : ∀ key version, s.stores.offsets.lookup key = some (.sequence version) →
    ∀ e ∈ tenantStream s.stores.streams key, e.eventVersion ≤ version → e ∈ accepted h key
  /-- And so was every event that is marked. -/
  marked : ∀ key, ∀ e ∈ tenantStream s.stores.streams key,
    s.stores.marks.seen ⟨key.projectionId, key.tag, e.eventId⟩ = true → e ∈ accepted h key
  /-- With one worker and no errors, the handler is given the front of the stream. -/
  inOrder : ∀ key, Along (fun _ t => (flawless E).allows key t = true) h →
    given h key <+: tenantStream s.stores.streams key ∧
      Increasing EventStreamElement.eventVersion (given h key)
  /-- That is, between two executions, everything up to the offset. -/
  settled : ∀ key, Along (fun _ t => (flawless E).allows key t = true) h →
    nobodyWorks s key = true →
    given h key = (tenantStream s.stores.streams key).filter fun e =>
      decide (e.eventVersion ≤ resumesAfter (s.stores.offsets.lookup key))
  /-- An execution that finds nothing to fetch has been given everything. -/
  complete : ∀ key, Along (fun _ t => (flawless E).allows key t = true) h →
    isBlank key.tenant = false → ∀ (i : Nat) session fence lastOffset,
    s.sessions[i]? = some (session, .batch fence (.fetch lastOffset)) → session.claimId = key →
    0 < session.batchSize →
    paginate (eventsForTag s.stores.streams session.tag) session.tenant lastOffset
      session.batchSize = [] →
    given h key = tenantStream s.stores.streams key

section
variable {backend : OffsetBackend} {h : ReadSideHistory E} {s : ReadSideState E} {key : ClaimId}

theorem inOrder_run (he : (readSide E backend).Run h s)
    (happends : Along (fun _ t => appendsOnly t = true) h)
    (hflawless : Along (fun _ t => (flawless E).allows key t = true) h) :
    Turn key InOrderIdle (fun v _ phase => phase.InOrder v) (given h key) s := by
  have hinit : Turn key InOrderIdle (fun v _ phase => phase.InOrder v) (given [] key)
      (readSide E backend).init := turn_init ⟨rfl, by simp⟩
  exact turn_run (keeps_inOrder backend key) (.nil _) he happends hflawless hinit

theorem Committing.given_front {v : View E} (hwf : v.WellFormed) {offset : Offset}
    {rest : TagStream E} (h : Committing v offset rest) : v.given <+: v.stream := by
  obtain ⟨x, -, -, hstands, -⟩ := h
  exact hstands.given_front hwf

theorem Phase.InOrder.given_front {v : View E} (hwf : v.WellFormed) {phase : Phase E}
    (h : phase.InOrder v) : v.given <+: v.stream := by
  cases phase with
  | batch _ phase =>
    cases phase with
    | fetch | check | handle => exact View.StandsAt.given_front h.1 hwf
    | renewClock | renew => exact h.2.given_front hwf
    | mark | write => exact Committing.given_front hwf h
    | _ => exact View.StandsAt.given_front h hwf
  | _ => exact View.StandsAt.given_front h hwf

theorem Turn.given_front {g : TagStream E}
    (hturn : Turn key InOrderIdle (fun v _ phase => phase.InOrder v) g s)
    (hwf : (viewOf g s.stores key).WellFormed) : g <+: tenantStream s.stores.streams key := by
  by_cases hnobody : ∀ i session phase, ¬ Working s key i session phase
  · exact View.StandsAt.given_front (hturn.idle hnobody) hwf
  · simp only [not_forall, not_not] at hnobody
    obtain ⟨i, session, phase, hworking⟩ := hnobody
    exact (hturn.during i session phase hworking).given_front hwf

end

/-- An event of a tenant with a tag, whose payload does not matter. -/
def orderEvent (id : String) (version : Int) (hid : id ≠ "") (hversion : 1 ≤ version) :
    EventStreamElement Unit :=
  ⟨id, "order-7", "acme", "OrderPlaced", (), version, 0, [orderTag], hid, by decide, by decide,
    by decide, hversion, by decide⟩

def firstOrder : EventStreamElement Unit := orderEvent "a" 1 (by decide) (by decide)

def secondOrder : EventStreamElement Unit := orderEvent "b" 2 (by decide) (by decide)

def ordersSession (batchSize : Nat) (claiming : Option ReadSideClaiming) : ReadSideSession :=
  ⟨"orders", orderTag, "acme", batchSize, claiming⟩

def wentWell : Answer := ⟨none, .ok (), .initial⟩

def twoBatches : List (ReadSideInput Unit) :=
  [.insert firstOrder, .insert secondOrder,
    .insert (orderEvent "c" 4 (by decide) (by decide)), .execute (ordersSession 2 none)] ++
  List.replicate 8 (.resume 0 wentWell) ++ [.execute (ordersSession 2 none)] ++
  List.replicate 6 (.resume 1 wentWell)

end EgoRs.ReadSide
