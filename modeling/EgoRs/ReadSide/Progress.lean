import EgoRs.ReadSide.InOrder

/-! # A Projection Goes On

After failed and interrupted executions some events after the offset are
marked. They are the first ones there, since events are marked in order, and
they are fewer than a batch, so the next batch has an event that is not: as
long as no execution ends between its last mark and its offset.

One that does leaves a whole batch marked and the offset before it. Every
later execution fetches that batch, drops all of it and returns, and the
offset stays where it is.
-/

namespace EgoRs.ReadSide

open Framework

variable {E : Type}

/-! ## What is marked after the offset -/

section
variable {v v' : View E} {n : Nat}

/-- After the offset come the marked events `done`, and then the others. -/
structure Marked (v : View E) (done todo : TagStream E) : Prop where
  after : v.after (resumesAfter v.offset) = done ++ todo
  done : ∀ x ∈ done, v.marked x = true
  todo : ∀ x ∈ todo, v.marked x = false

/-- Less than a batch is marked, and something is not. -/
def Fresh (n : Nat) (v : View E) : Prop :=
  ∃ done todo, Marked v done todo ∧ done.length < n ∧ (todo = [] → done = [])

/-- These are the first events that are not marked, within a batch from the offset. -/
def Ready (n : Nat) (v : View E) (pending : TagStream E) : Prop :=
  ∃ done todo, Marked v done todo ∧ pending <+: todo ∧ pending ≠ [] ∧
    done.length + pending.length ≤ n

/-- Everything up to the offset that is to be written is marked, and nothing after it. -/
def Complete (v : View E) (offset : Offset) : Prop :=
  ∃ done todo, Marked v done todo ∧ done ≠ [] ∧ offset = newOffset done

variable {pending done todo : TagStream E} {offset : Offset} {event : EventStreamElement E}
  {rest unique : TagStream E}

theorem Ready.fresh (h : Ready n v pending) : Fresh n v := by
  obtain ⟨done, todo, hmarked, hpending, hne, hlength⟩ := h
  have hpos : 0 < pending.length := List.length_pos_iff.mpr hne
  refine ⟨done, todo, hmarked, by omega, ?_⟩
  rintro rfl
  exact absurd (List.prefix_nil.mp hpending) hne

section
variable (h : Marked v done todo)
include h

theorem Marked.mem (hx : event ∈ done ++ todo) :
    event ∈ v.stream ∧ resumesAfter v.offset < event.eventVersion := by
  rw [← h.after] at hx
  exact View.mem_after.mp hx

theorem Marked.increasing (hwf : v.WellFormed) :
    Increasing EventStreamElement.eventVersion (done ++ todo) := by
  rw [← h.after]
  exact hwf.increasing.filter _

end

def BatchPhase.Fresh (n : Nat) (v : View E) : BatchPhase E → Prop
  | .fetch lastOffset => ReadSide.Fresh n v ∧ lastOffset = v.offset
  | .check rest unique =>
    (∀ x ∈ rest, x ∈ v.stream) ∧ Ready n v (unique ++ rest.filter fun x => !v.marked x)
  | .handle unique => Ready n v unique
  | .renewClock unique => Ready n v unique
  | .renew unique _ => Ready n v unique
  | .mark offset rest _ => Ready n v rest ∧ offset = newOffset rest
  | .write offset _ _ => Complete v offset
  | _ => ReadSide.Fresh n v

def Phase.Fresh (n : Nat) (v : View E) : Phase E → Prop
  | .batch _ phase => phase.Fresh n v
  | _ => ReadSide.Fresh n v

/-! ### When others go on -/

section
variable (hwf : v.WellFormed) (hwf' : v'.WellFormed) (haside : Aside v v')
include hwf hwf' haside

/-- What is marked stays so, and more may come that is not. -/
theorem Marked.aside {R : TagStream E → TagStream E → Prop}
    (hmore : ∀ done todo appended, R done todo → R done (todo ++ appended))
    (hmarked : ∃ done todo, Marked v done todo ∧ R done todo) :
    ∃ done todo, Marked v' done todo ∧ R done todo := by
  obtain ⟨done, todo, h, hR⟩ := hmarked
  obtain ⟨appended, heq, hnew⟩ := hwf.anchored.after_grows hwf' haside
  refine ⟨done, todo ++ appended, ⟨?_, ?_, ?_⟩, hmore done todo appended hR⟩
  · rw [haside.offset, heq, h.after, List.append_assoc]
  · intro x hx
    rw [haside.marked x (h.mem (List.mem_append_left _ hx)).1]
    exact h.done x hx
  · intro x hx
    rcases List.mem_append.mp hx with hold | hnewer
    · rw [haside.marked x (h.mem (List.mem_append_right _ hold)).1]
      exact h.todo x hold
    · exact hnew x hnewer

theorem Fresh.aside (h : Fresh n v) : Fresh n v' := by
  refine Marked.aside hwf hwf' haside ?_ h
  rintro done todo appended ⟨hlength, hnone⟩
  exact ⟨hlength, fun hnil => hnone (List.append_eq_nil_iff.mp hnil).1⟩

theorem Ready.aside (h : Ready n v pending) : Ready n v' pending := by
  refine Marked.aside hwf hwf' haside ?_ h
  rintro done todo appended ⟨hpending, hrest⟩
  exact ⟨hpending.trans (List.prefix_append _ _), hrest⟩

theorem Complete.aside (h : Complete v offset) : Complete v' offset :=
  Marked.aside hwf hwf' haside (fun _ _ _ h => h) h

theorem BatchPhase.Fresh.aside {phase : BatchPhase E} (h : phase.Fresh n v) : phase.Fresh n v' := by
  cases phase with
  | readOffset | ended => exact ReadSide.Fresh.aside hwf hwf' haside h
  | fetch => exact ⟨h.1.aside hwf hwf' haside, h.2.trans haside.offset.symm⟩
  | check rest =>
    obtain ⟨hin, hready⟩ := h
    obtain ⟨appended, hstream, -⟩ := haside.stream
    refine ⟨?_, ?_⟩
    · intro x hx
      rw [hstream]
      exact List.mem_append_left _ (hin x hx)
    · have hsame : rest.filter (fun x => !v'.marked x) = rest.filter fun x => !v.marked x := by
        apply List.filter_congr
        intro x hx
        rw [haside.marked x (hin x hx)]
      rw [hsame]
      exact hready.aside hwf hwf' haside
  | handle | renewClock | renew => exact Ready.aside hwf hwf' haside h
  | mark => exact ⟨h.1.aside hwf hwf' haside, h.2⟩
  | write => exact Complete.aside hwf hwf' haside h

theorem Phase.Fresh.aside {phase : Phase E} (h : phase.Fresh n v) : phase.Fresh n v' := by
  cases phase with
  | batch => exact BatchPhase.Fresh.aside hwf hwf' haside h
  | _ => exact ReadSide.Fresh.aside hwf hwf' haside h

end

/-! ### What the handler was given plays no part -/

theorem Marked.give (g : TagStream E) {R : TagStream E → TagStream E → Prop}
    (hmarked : ∃ done todo, Marked v done todo ∧ R done todo) :
    ∃ done todo, Marked { v with given := g } done todo ∧ R done todo := by
  obtain ⟨done, todo, h, hR⟩ := hmarked
  exact ⟨done, todo, ⟨h.after, h.done, h.todo⟩, hR⟩

theorem Phase.Fresh.give (g : TagStream E) {phase : Phase E} (h : phase.Fresh n v) :
    phase.Fresh n { v with given := g } := by
  cases phase with
  | batch _ phase =>
    cases phase with
    | fetch | mark => exact ⟨Marked.give g h.1, h.2⟩
    | check => exact ⟨h.1, Marked.give g h.2⟩
    | _ => exact Marked.give g h
  | _ => exact Marked.give g h

/-! ### When the execution goes on -/

/-- The batch that is fetched has an event that is not marked. -/
theorem Fresh.ready (h : Fresh n v) (hne : (v.after (resumesAfter v.offset)).take n ≠ []) :
    Ready n v (((v.after (resumesAfter v.offset)).take n).filter fun x => !v.marked x) := by
  obtain ⟨done, todo, hmarked, hlength, hnone⟩ := h
  rw [hmarked.after] at hne ⊢
  have htodo : todo ≠ [] := by
    rintro rfl
    rw [hnone rfl] at hne
    simp at hne
  have hdone : done.filter (fun x => !v.marked x) = [] := by
    apply List.filter_eq_nil_iff.mpr
    intro x hx
    simp [hmarked.done x hx]
  have hrest : (todo.take (n - done.length)).filter (fun x => !v.marked x) =
      todo.take (n - done.length) := by
    apply List.filter_eq_self.mpr
    intro x hx
    simp [hmarked.todo x (List.mem_of_mem_take hx)]
  rw [List.take_append, List.take_of_length_le (by omega), List.filter_append, hdone, hrest,
    List.nil_append]
  refine ⟨done, todo, hmarked, List.take_prefix _ _, ?_, ?_⟩
  · simp only [ne_eq, List.take_eq_nil_iff, htodo, or_false]
    omega
  · rw [List.length_take]
    omega

/-- A check moves one event from those to be checked to those to be handled, or drops it. -/
theorem pending_check :
    (if v.marked event then unique else unique ++ [event]) ++ rest.filter (fun x => !v.marked x) =
      unique ++ (event :: rest).filter fun x => !v.marked x := by
  cases hmarked : v.marked event with
  | true | false => simp [hmarked]

theorem Ready.ne_nil (h : Ready n v pending) : pending ≠ [] := by
  obtain ⟨_, _, _, _, hne, _⟩ := h
  exact hne

theorem fresh_afterCheck (hin : ∀ x ∈ rest, x ∈ v.stream)
    (h : Ready n v (unique ++ rest.filter fun x => !v.marked x)) :
    (afterCheck rest unique).Fresh n v := by
  unfold afterCheck
  cases rest with
  | nil =>
    rw [List.filter_nil, List.append_nil] at h
    cases unique with
    | nil => exact absurd rfl h.ne_nil
    | cons => exact h
  | cons => exact ⟨hin, h⟩

theorem Marked.mark (hwf : v.WellFormed) (h : Marked v done (event :: todo))
    (hstream : v'.stream = v.stream) (hoffset : v'.offset = v.offset)
    (hself : v'.marked event = true)
    (hother : ∀ x, x.eventId ≠ event.eventId → v'.marked x = v.marked x) :
    Marked v' (done ++ [event]) todo := by
  have hafter : v'.after (resumesAfter v'.offset) = v.after (resumesAfter v.offset) := by
    unfold View.after
    rw [hstream, hoffset]
  have hevent := (h.mem (List.mem_append_right _ List.mem_cons_self)).1
  refine ⟨?_, ?_, ?_⟩
  · rw [hafter, h.after, List.append_assoc]
    rfl
  · intro x hx
    obtain hold | rfl := mem_snoc hx
    · by_cases hid : x.eventId = event.eventId
      · obtain rfl := hwf.uniqueIds x (h.mem (List.mem_append_left _ hold)).1 event hevent hid
        exact hself
      · rw [hother x hid]
        exact h.done x hold
    · exact hself
  · -- what comes after the event has another id
    intro x hx
    have hmore : x ∈ event :: todo := List.mem_cons_of_mem _ hx
    rw [hother]
    · exact h.todo x hmore
    · intro hid
      obtain rfl := hwf.uniqueIds x (h.mem (List.mem_append_right _ hmore)).1 event hevent hid
      have hlt := (List.pairwise_cons.mp (List.pairwise_append.mp (h.increasing hwf)).2.1).1 x hx
      omega

theorem newOffset_of_ne_nil (hne : unique ≠ []) :
    newOffset unique = .sequence (unique.getLast hne).eventVersion := by
  unfold newOffset
  rw [List.getLast?_eq_some_getLast hne]
  rfl

theorem newOffset_append (hne : rest ≠ []) : newOffset (done ++ rest) = newOffset rest := by
  unfold newOffset
  rw [List.getLast?_append_of_ne_nil _ hne]

theorem fresh_afterMark {lease : Option Timestamp} (hwf : v.WellFormed)
    (h : Ready n v (event :: rest)) (hnew : offset = newOffset (event :: rest))
    (hstream : v'.stream = v.stream) (hoffset : v'.offset = v.offset)
    (hself : v'.marked event = true)
    (hother : ∀ x, x.eventId ≠ event.eventId → v'.marked x = v.marked x) :
    (afterMark offset rest lease).Fresh n v' := by
  obtain ⟨done, todo, hmarked, ⟨more, rfl⟩, -, hlength⟩ := h
  have hmarked' := Marked.mark hwf hmarked hstream hoffset hself hother
  unfold afterMark
  cases rest with
  | nil =>
    refine ⟨done ++ [event], more, hmarked', by simp, ?_⟩
    rw [hnew, newOffset_append (by simp)]
  | cons next rest =>
    refine ⟨⟨done ++ [event], _, hmarked', List.prefix_append _ _, by simp, ?_⟩, ?_⟩
    · simp only [List.length_append, List.length_cons, List.length_nil] at hlength ⊢
      omega
    · have hsplit : event :: next :: rest = [event] ++ (next :: rest) := rfl
      rw [hnew, hsplit, newOffset_append (by simp)]

/-- With the offset at the last marked event, nothing after it is marked. -/
theorem Complete.written (hn : 0 < n) (hwf : v.WellFormed) (h : Complete v offset)
    (hstream : v'.stream = v.stream) (hoffset : v'.offset = some offset)
    (hmarked' : ∀ x, v'.marked x = v.marked x) : Fresh n v' := by
  obtain ⟨done, todo, hmarked, hne, rfl⟩ := h
  have hnew := newOffset_of_ne_nil hne
  have hinc := hmarked.increasing hwf
  have hlast := (hmarked.mem (List.mem_append_left _ (List.getLast_mem hne))).2
  -- of what came after the old offset, the rest comes after the new one
  have hafter : v'.after (done.getLast hne).eventVersion = todo := by
    have hsub : v'.after (done.getLast hne).eventVersion =
        (done ++ todo).filter fun x =>
          decide ((done.getLast hne).eventVersion < x.eventVersion) := by
      rw [← hmarked.after]
      unfold View.after
      rw [hstream, List.filter_filter]
      apply List.filter_congr
      intro x _
      by_cases hx : (done.getLast hne).eventVersion < x.eventVersion
      · simp [hx, Int.lt_trans hlast hx]
      · simp [hx]
    have hsplit := hinc.filter_append_filter (done.getLast hne).eventVersion
    rw [← hinc.prefix_eq_filter (List.prefix_append _ _) hne] at hsplit
    rw [hsub]
    exact List.append_cancel_left hsplit
  refine ⟨[], todo, ⟨?_, by simp, ?_⟩, hn, fun _ => rfl⟩
  · rw [hoffset, hnew]
    exact hafter
  · intro x hx
    rw [hmarked']
    exact hmarked.todo x hx

end

/-! ## Executions that are interrupted -/

/-- The call ends the execution, or may, after its last mark and before its offset. -/
def BatchPhase.breaksCommit (answer : Answer) : BatchPhase E → Bool
  | .mark _ [_] _ =>
    match answer.fault with
    | some fault => fault.applied
    | none => false
  | .write _ _ _ =>
    match answer.fault with
    | some fault => !fault.applied
    | none => false
  | _ => false

/-- Between the last mark and the offset. -/
def BatchPhase.uncommitted : BatchPhase E → Bool
  | .write _ _ _ => true
  | _ => false

variable (E) in
/-- Executions with batches of `n`, one after the other; any call may fail, and any may stop. -/
def interrupted (n : Nat) : Discipline E where
  starts := fun session => decide (session.batchSize = n)
  moves := fun _ _ _ => true
  stops := fun _ => true

variable (E) in
/-- None of them ends between its last mark and its offset. -/
def wholeCommits (n : Nat) : Discipline E where
  starts := fun session => decide (session.batchSize = n)
  moves := fun phase answer _ =>
    match phase with
    | .batch _ phase => !phase.breaksCommit answer
    | _ => true
  stops := fun phase =>
    match phase with
    | .batch _ phase => !phase.uncommitted
    | _ => true

section
variable {n : Nat}

theorem BatchPhase.Fresh.fresh {v : View E} {phase : BatchPhase E} (h : phase.Fresh n v)
    (hphase : phase.uncommitted = false) : ReadSide.Fresh n v := by
  cases phase with
  | readOffset | ended => exact h
  | fetch => exact h.1
  | check => exact h.2.fresh
  | handle | renewClock | renew => exact Ready.fresh h
  | mark => exact h.1.fresh
  | write => cases hphase

theorem fresh_batch (hn : 0 < n) {g : TagStream E} {stores stores' : Stores E}
    {session : ReadSideSession} {fence : Option ClaimFence} {phase phase' : BatchPhase E}
    {answer : Answer} (hsize : session.batchSize = n)
    (hwf : (viewOf g stores session.claimId).WellFormed)
    (hmoves : BatchMoves .memory session fence stores answer phase stores' phase')
    (hwhole : phase.breaksCommit answer = false)
    (h : phase.Fresh n (viewOf g stores session.claimId)) :
    phase'.Fresh n (viewOf g stores' session.claimId) := by
  cases hmoves with
  | failed phase _ reading =>
    apply h.fresh
    cases phase <;> first | rfl | cases reading
  | readOffset => exact ⟨h, rfl⟩
  | fetched =>
    obtain ⟨hfresh, rfl⟩ := h
    rw [paginate_eq_take g, hsize]
    split
    · exact hfresh
    · unfold afterFetch
      split
      · exact hfresh
      · rename_i hne
        refine ⟨?_, hfresh.ready (by simpa using hne)⟩
        intro x hx
        exact (View.mem_after.mp (List.mem_of_mem_take hx)).1
  | checked =>
    obtain ⟨hin, hready⟩ := h
    refine fresh_afterCheck (fun x hx => hin x (List.mem_cons_of_mem _ hx)) ?_
    rw [seen_eq_marked g, pending_check]
    exact hready
  | checkedAll => exact fresh_afterCheck h.1 h.2
  | handled unique =>
    unfold afterHandle
    split
    · exact h
    · unfold afterMark
      cases unique with
      | nil => exact absurd rfl (Ready.ne_nil h)
      | cons => exact ⟨h, rfl⟩
  | renewClock | unclaimed | ended => exact h
  | renewed unique =>
    unfold afterMark
    cases unique with
    | nil => exact absurd rfl (Ready.ne_nil h)
    | cons => exact ⟨h, rfl⟩
  | renewFailed => exact Ready.fresh h
  | renewLost =>
    exact Ready.fresh (v := viewOf g stores session.claimId) h
  | marked _ event =>
    exact fresh_afterMark hwf h.1 h.2 rfl rfl (marked_markSeen_self g event)
      fun x hne => marked_markSeen g hne
  | markedAll => exact absurd rfl h.1.ne_nil
  | markFailed => exact h.1.fresh
  | markLost offset event rest lease _ _ isFault applied =>
    have hnext : (afterMark offset rest lease).Fresh n (viewOf g { stores with
        marks := stores.marks.markSeen (session.dedupKey event) } session.claimId) :=
      fresh_afterMark hwf h.1 h.2 rfl rfl (marked_markSeen_self g event)
        fun x hne => marked_markSeen g hne
    cases rest with
    | nil => simp [BatchPhase.breaksCommit, isFault, applied] at hwhole
    | cons => exact hnext.1.fresh
  | wrote | writeLost =>
    exact Complete.written hn hwf h rfl (AList.lookup_insert _) fun _ => rfl
  | writeMissed _ _ _ _ stoolap => cases stoolap
  | writeFailed _ _ _ _ cause =>
    obtain ⟨fault, hfault, hlost⟩ := cause rfl
    simp [BatchPhase.breaksCommit, hfault, hlost] at hwhole

theorem fresh_settle {v : View E} {fence : Option ClaimFence} {phase : BatchPhase E}
    (h : phase.Fresh n v) : (settle fence phase).Fresh n v := by
  cases phase with
  | ended => cases fence <;> exact h
  | _ => exact h

/-- **The next batch has an event that is not marked**, step by step. -/
theorem keeps_fresh (hn : 0 < n) (key : ClaimId) :
    Keeps .memory (wholeCommits E n) key (Fresh n)
      fun v session phase => session.batchSize = n ∧ phase.Fresh n v where
  asideIdle := fun hwf hwf' haside h => h.aside hwf hwf' haside
  asideDuring := fun hwf hwf' haside h => ⟨h.1, h.2.aside hwf hwf' haside⟩
  start := by
    intro v session hstarts _ h
    refine ⟨of_decide_eq_true hstarts, ?_⟩
    unfold ReadSideSession.begin
    split <;> exact h
  moves := by
    intro g stores stores' session phase phase' answer hkey hwf hmoves hallowed h
    subst hkey
    obtain ⟨hsize, hfresh⟩ := h
    have hkept : phase'.Fresh n (viewOf g stores' session.claimId) := by
      cases hmoves with
      | batch _ _ _ _ moves =>
        simp only [wholeCommits, Bool.not_eq_true'] at hallowed
        exact fresh_settle (fresh_batch hn hsize hwf moves hallowed hfresh)
      | _ => exact hfresh
    have hnext : phase'.Fresh n (viewOf (g ++ phase.gives) stores' session.claimId) := hkept.give _
    cases phase' with
    | returned | stopped => exact hnext
    | _ => exact ⟨hsize, hnext⟩
  stops := by
    intro v session phase hstops h
    cases phase with
    | batch =>
      simp only [wholeCommits, Bool.not_eq_true'] at hstops
      exact h.2.fresh hstops
    | _ => exact h.2

end

/-! ## One more execution -/

variable (E) in
/-- The execution under way is the last, and nothing fails. -/
def undisturbed : Discipline E where
  starts := fun _ => false
  moves := fun _ answer _ => answer.fault.isNone && decide (answer.handler = .ok ())
  stops := fun _ => false

/-- A phase of an execution without a claim, before it is over. -/
def BatchPhase.plain : BatchPhase E → Bool
  | .renewClock _ => false
  | .renew _ _ => false
  | .ended _ => false
  | _ => true

/-- An unclaimed execution with batches of `n` that has found an event after `k`, and has
not written its offset. -/
def Advancing (n : Nat) (k : Int) (v : View E) (session : ReadSideSession) : Phase E → Prop
  | .batch none phase => session.claiming = none ∧ session.batchSize = n ∧
      phase.plain = true ∧ phase.Fresh n v ∧ resumesAfter v.offset = k ∧ v.after k ≠ []
  | _ => False

theorem Advancing.batch {n : Nat} {k : Int} {v : View E} {session : ReadSideSession}
    {phase : Phase E} (h : Advancing n k v session phase) :
    ∃ p, phase = .batch none p ∧ session.claiming = none ∧ session.batchSize = n ∧
      p.plain = true ∧ p.Fresh n v ∧ resumesAfter v.offset = k ∧ v.after k ≠ [] := by
  cases phase with
  | batch fence p =>
    cases fence with
    | none => exact ⟨p, rfl, h⟩
    | some => exact absurd h id
  | _ => exact absurd h id

/-- The calls an execution has left, at most. -/
def BatchPhase.remaining (n : Nat) : BatchPhase E → Nat
  | .readOffset => 2 * n + 5
  | .fetch _ => 2 * n + 4
  | .check rest unique => 2 * rest.length + unique.length + 3
  | .handle unique => unique.length + 2
  | .renewClock unique => unique.length + 4
  | .renew unique _ => unique.length + 3
  | .mark _ rest _ => rest.length + 1
  | .write _ _ _ => 1
  | .ended _ => 0

section
variable {n : Nat} {k : Int} {session : ReadSideSession} {key : ClaimId} {s : ReadSideState E}
  {phase : Phase E}

/-- A call that goes well comes one step nearer to the offset, or writes it. -/
theorem advances_batch {g : TagStream E} {stores stores' : Stores E} {phase phase' : BatchPhase E}
    {answer : Answer} (hn : 0 < n) (hclaiming : session.claiming = none)
    (hsize : session.batchSize = n) (hblank : isBlank session.tenant = false)
    (hfault : answer.fault = none) (hhandler : answer.handler = .ok ())
    (hmoves : BatchMoves .memory session none stores answer phase stores' phase')
    (h : phase.Fresh n (viewOf g stores session.claimId)) (hplain : phase.plain = true)
    (hsome : (viewOf g stores session.claimId).after
      (resumesAfter (viewOf g stores session.claimId).offset) ≠ []) :
    phase'.remaining n < phase.remaining n ∧
      (phase'.plain = true ∧ stores'.offsets = stores.offsets ∨
        ∃ x ∈ (viewOf g stores session.claimId).after
            (resumesAfter (viewOf g stores session.claimId).offset),
          stores'.offsets = stores.offsets.insert session.claimId (.sequence x.eventVersion) ∧
            phase' = .ended (.ok (some (.sequence x.eventVersion)))) := by
  cases hmoves with
  | failed _ _ _ cause => exact absurd cause (by simp [hfault, hhandler])
  | readOffset =>
    refine ⟨?_, .inl ⟨rfl, rfl⟩⟩
    simp only [BatchPhase.remaining]
    omega
  | fetched =>
    obtain ⟨-, rfl⟩ := h
    have hne : ((viewOf g stores session.claimId).after
        (resumesAfter (viewOf g stores session.claimId).offset)).take n ≠ [] := by
      simp only [ne_eq, List.take_eq_nil_iff, hsome, or_false]
      omega
    have hlength : (((viewOf g stores session.claimId).after
        (resumesAfter (viewOf g stores session.claimId).offset)).take n).length ≤ n :=
      List.length_take_le _ _
    have hpage : paginate (eventsForTag stores.streams session.tag) session.tenant
        (viewOf g stores session.claimId).offset session.batchSize = _ := paginate_eq_take g
    rw [hpage, hsize, if_neg (by simp [hblank])]
    generalize ((viewOf g stores session.claimId).after
        (resumesAfter (viewOf g stores session.claimId).offset)).take n = batch at hne hlength
    cases batch with
    | nil => exact absurd rfl hne
    | cons =>
      refine ⟨?_, .inl ⟨rfl, rfl⟩⟩
      simp only [afterFetch, List.isEmpty_cons, Bool.false_eq_true, if_false, BatchPhase.remaining,
        List.length_nil]
      omega
  | checked event rest unique =>
    have hne := h.2.ne_nil
    rw [← pending_check] at hne
    rw [seen_eq_marked g]
    have hlength : (if (viewOf g stores session.claimId).marked event then unique
        else unique ++ [event]).length ≤ unique.length + 1 := by
      split <;> simp
    generalize (if (viewOf g stores session.claimId).marked event then unique
        else unique ++ [event]) = unique' at hne hlength
    cases rest with
    | nil =>
      cases unique' with
      | nil => exact absurd rfl hne
      | cons =>
        refine ⟨?_, .inl ⟨rfl, rfl⟩⟩
        simp only [afterCheck, List.isEmpty_cons, Bool.false_eq_true, if_false,
          BatchPhase.remaining, List.length_singleton]
        omega
    | cons =>
      refine ⟨?_, .inl ⟨rfl, rfl⟩⟩
      simp only [afterCheck, BatchPhase.remaining, List.length_cons]
      omega
  | checkedAll unique =>
    have hne := h.2.ne_nil
    cases unique with
    | nil => exact absurd rfl hne
    | cons =>
      refine ⟨?_, .inl ⟨rfl, rfl⟩⟩
      simp only [afterCheck, List.isEmpty_cons, Bool.false_eq_true, if_false, BatchPhase.remaining]
      omega
  | handled unique =>
    have hne := Ready.ne_nil h
    unfold afterHandle
    rw [hclaiming]
    cases unique with
    | nil => exact absurd rfl hne
    | cons =>
      refine ⟨?_, .inl ⟨rfl, rfl⟩⟩
      simp only [afterMark, BatchPhase.remaining]
      omega
  | marked _ _ rest =>
    cases rest with
    | nil | cons => exact ⟨by simp [afterMark, BatchPhase.remaining], .inl ⟨rfl, rfl⟩⟩
  | markedAll => exact absurd rfl h.1.ne_nil
  | markFailed _ _ _ _ _ cause | writeLost _ _ _ _ cause =>
    exact absurd hfault cause
  | markLost _ _ _ _ _ _ isFault =>
    rw [hfault] at isFault
    cases isFault
  | wrote =>
    obtain ⟨done, todo, hmarked, hne, rfl⟩ := h
    have hnew := newOffset_of_ne_nil hne
    refine ⟨by simp [BatchPhase.remaining], .inr ⟨done.getLast hne, ?_, by rw [hnew], by rw [hnew]⟩⟩
    rw [hmarked.after]
    exact List.mem_append_left _ (List.getLast_mem hne)
  | writeMissed _ _ _ _ stoolap => cases stoolap
  | writeFailed _ _ _ _ cause =>
    obtain ⟨fault, hsomeFault, -⟩ := cause rfl
    rw [hfault] at hsomeFault
    cases hsomeFault
  | _ => cases hplain

theorem keeps_advancing (hn : 0 < n) (hblank : isBlank key.tenant = false) :
    Keeps .memory (undisturbed E) key (fun v => k < resumesAfter v.offset) (Advancing n k) where
  asideIdle := by
    intro v v' _ _ haside h
    rw [haside.offset]
    exact h
  asideDuring := by
    intro v v' session phase hwf hwf' haside h
    obtain ⟨p, rfl, hclaiming, hsize, hplain, hfresh, hk, hsome⟩ := h.batch
    refine ⟨hclaiming, hsize, hplain, hfresh.aside hwf hwf' haside, ?_, ?_⟩
    · rw [haside.offset]
      exact hk
    · have hanchored := hwf.anchored
      rw [hk] at hanchored
      obtain ⟨appended, heq, -⟩ := hanchored.after_grows hwf' haside
      rw [heq]
      exact fun hnil => hsome (List.append_eq_nil_iff.mp hnil).1
  start := by
    intro v session hstarts
    cases hstarts
  moves := by
    intro g stores stores' session phase phase' answer hkey hwf hmoves hallowed h
    subst hkey
    simp only [undisturbed, Bool.and_eq_true, decide_eq_true_eq, Option.isNone_iff_eq_none]
      at hallowed
    obtain ⟨hfault, hhandler⟩ := hallowed
    obtain ⟨phase, rfl, hclaiming, hsize, hplain, hfresh, hk, hsome⟩ := h.batch
    cases hmoves with
    | batch _ _ phase' _ moves =>
      have hwhole : phase.breaksCommit answer = false := by
        unfold BatchPhase.breaksCommit
        rw [hfault]
        split <;> rfl
      have hnext := fresh_batch hn hsize hwf moves hwhole hfresh
      obtain ⟨-, ⟨hplain', hoffsets⟩ | ⟨x, hx, hoffsets, rfl⟩⟩ :=
        advances_batch hn hclaiming hsize hblank hfault hhandler moves hfresh hplain
          (by rw [hk]; exact hsome)
      · have hsettle : settle none phase' = .batch none phase' := by
          cases phase' <;> first | rfl | cases hplain'
        have hkept : (Phase.batch none phase').Fresh n (viewOf g stores' session.claimId) := hnext
        have hstreams := (SessionMoves.batch none phase phase' stores' moves).effect.streams
        rw [hsettle]
        refine ⟨hclaiming, hsize, hplain', hkept.give _, ?_, ?_⟩
        · rw [← hk]
          show resumesAfter (stores'.offsets.lookup _) = resumesAfter (stores.offsets.lookup _)
          rw [hoffsets]
        · show (tenantStream stores'.streams _).filter _ ≠ []
          rw [hstreams]
          exact hsome
      · show k < resumesAfter (stores'.offsets.lookup _)
        rw [hoffsets, AList.lookup_insert, ← hk]
        exact (View.mem_after.mp hx).2
  stops := by
    intro v session phase hstops
    cases hstops

/-- How often execution `i` went on. -/
def callsOf (i : Nat) (h : ReadSideHistory E) : Nat :=
  h.countP fun t =>
    match t.input with
    | .resume j _ => decide (j = i) && (t.pre.sessions[i]?).any fun p => p.2.inProgress
    | _ => false

def Phase.remaining (n : Nat) : Phase E → Nat
  | .batch _ phase => phase.remaining n
  | _ => 0

theorem callsOf_snoc (i : Nat) (h : ReadSideHistory E) (t : ReadSideEvent E) :
    callsOf i (h ++ [t]) = callsOf i h + callsOf i [t] := by
  unfold callsOf
  rw [List.countP_append]

theorem remaining_settle_le {fence : Option ClaimFence} {phase : BatchPhase E} :
    (settle fence phase).remaining n ≤ phase.remaining n := by
  cases phase with
  | ended => cases fence <;> exact Nat.le_refl _
  | _ => exact Nat.le_refl _

variable {s' : ReadSideState E} {input : ReadSideInput E} {output : ReadSideOutput E}

/-- Each call of the execution leaves fewer. -/
theorem calls_step (hn : 0 < n) (hblank : isBlank key.tenant = false) {g : TagStream E} {i : Nat}
    (hturn : Turn key (fun v => k < resumesAfter v.offset) (Advancing n k) g s)
    (hkey : session.claimId = key) (hat : s.sessions[i]? = some (session, phase))
    (hs : ReadSideSteps .memory s input s' output)
    (hallows : (undisturbed E).allows key ⟨s, input, output, s'⟩ = true) :
    ∃ phase', s'.sessions[i]? = some (session, phase') ∧
      callsOf i [⟨s, input, output, s'⟩] + phase'.remaining n ≤ phase.remaining n := by
  have hlt : i < s.sessions.length := (List.getElem?_eq_some_iff.mp hat).1
  cases hs with
  | idle input _ _ noResume =>
    refine ⟨phase, hat, ?_⟩
    have hnone : callsOf i [⟨s, input, .idle, s⟩] = 0 := by
      simp only [callsOf, List.countP_eq_zero, List.mem_singleton, forall_eq]
      cases input with
      | resume j answer =>
        by_cases hj : j = i
        · subst hj
          simp [hat, noResume j answer rfl session phase hat]
        · simp [hj]
      | _ => simp
    omega
  | tick | insert => exact ⟨phase, hat, by simp [callsOf]⟩
  | execute =>
    refine ⟨phase, ?_, by simp [callsOf]⟩
    rw [List.getElem?_append_left hlt]
    exact hat
  | resume j answer other phase₁ phase' stores' at' inProgress moves =>
    by_cases hj : j = i
    · subst hj
      obtain ⟨rfl, rfl⟩ := Prod.mk.inj (Option.mem_unique at' hat)
      have hset : (s.sessions.set j (other, phase'))[j]? = some (other, phase') :=
        List.getElem?_set_self hlt
      have hwell : (undisturbed E).moves phase₁ answer phase' = true := by
        simpa [Discipline.allows, at', hset, hkey, inProgress] using hallows
      simp only [undisturbed, Bool.and_eq_true, decide_eq_true_eq, Option.isNone_iff_eq_none]
        at hwell
      refine ⟨phase', hset, ?_⟩
      have hone : callsOf j [(⟨s, .resume j answer, resumeOutput j other answer phase₁,
          ⟨stores', s.sessions.set j (other, phase')⟩⟩ : ReadSideEvent E)] ≤ 1 :=
        List.countP_le_length
      have hless : phase'.remaining n < phase₁.remaining n := by
        obtain ⟨p, rfl, hclaiming, hsize, hplain, hfresh, hk, hsome⟩ :=
          (hturn.during j other phase₁ ⟨at', hkey, inProgress⟩).batch
        subst hkey
        cases moves with
        | batch _ _ _ _ moves =>
          have hadvances := advances_batch hn hclaiming hsize hblank hwell.1 hwell.2 moves hfresh
            hplain (by rw [hk]; exact hsome)
          exact Nat.lt_of_le_of_lt remaining_settle_le hadvances.1
      omega
    · refine ⟨phase, ?_, ?_⟩
      · rw [← hat]
        exact List.getElem?_set_ne hj
      · simp [callsOf, hj]
  | stop j _ _ at' inProgress =>
    have hj : j ≠ i := by
      rintro rfl
      obtain ⟨rfl, rfl⟩ := Prod.mk.inj (Option.mem_unique at' hat)
      simp [Discipline.allows, at', hkey, inProgress, undisturbed] at hallows
    refine ⟨phase, ?_, by simp [callsOf]⟩
    rw [← hat]
    exact List.getElem?_set_ne hj

/-- No other execution of the stream starts, so who works after a step worked before it. -/
theorem working_before {j : Nat} (hs : ReadSideSteps .memory s input s' output)
    (hallows : (undisturbed E).allows key ⟨s, input, output, s'⟩ = true)
    (hworking : Working s' key j session phase) : ∃ phase', Working s key j session phase' := by
  obtain ⟨hj, hkey, hprogress⟩ := hworking
  cases hs with
  | idle | tick | insert => exact ⟨phase, hj, hkey, hprogress⟩
  | execute =>
    rcases getElem?_concat_cases hj with ⟨-, heq⟩ | hold
    · cases heq
      simp [Discipline.allows, undisturbed, hkey] at hallows
    · exact ⟨phase, hold, hkey, hprogress⟩
  | resume _ _ _ phase₁ _ _ at' inProgress =>
    rcases getElem?_set_cases at' hj with ⟨rfl, heq⟩ | ⟨-, hold⟩
    · cases heq
      exact ⟨phase₁, at', hkey, inProgress⟩
    · exact ⟨phase, hold, hkey, hprogress⟩
  | stop _ _ _ at' =>
    rcases getElem?_set_cases at' hj with ⟨rfl, heq⟩ | ⟨-, hold⟩
    · cases heq
      cases hprogress
    · exact ⟨phase, hold, hkey, hprogress⟩

/-- The execution is over after `2 * n + 5` of its calls. -/
theorem calls_run (hn : 0 < n) (hblank : isBlank key.tenant = false) {h₁ h : ReadSideHistory E}
    {s₁ : ReadSideState E} {i : Nat} (he₁ : (readSide E .memory).Run h₁ s₁)
    (he : (readSide E .memory).Exec s₁ h s)
    (happends : Along (fun _ t => appendsOnly t = true) (h₁ ++ h))
    (hundisturbed : Along (fun _ t => (undisturbed E).allows key t = true) h)
    (hturn : Turn key (fun v => k < resumesAfter v.offset) (Advancing n k) (given h₁ key) s₁)
    (hkey : session.claimId = key) (hat : s₁.sessions[i]? = some (session, phase))
    (honly : ∀ j other phase', Working s₁ key j other phase' → j = i) :
    (∃ phase', s.sessions[i]? = some (session, phase') ∧
      callsOf i h + phase'.remaining n ≤ phase.remaining n) ∧
    ∀ j other phase', Working s key j other phase' → j = i := by
  revert happends
  induction he with
  | nil =>
    intro _
    exact ⟨⟨phase, hat, by simp [callsOf]⟩, honly⟩
  | @snoc h s input hexec ih =>
    intro happends
    rw [← List.append_assoc] at happends
    obtain ⟨⟨phase', hat', hle⟩, honly'⟩ := ih hundisturbed.of_append happends.of_append
    have hturn' := turn_run (keeps_advancing hn hblank) he₁ hexec happends.of_append
      hundisturbed.of_append hturn
    have hs := readSideSteps_step .memory s input
    obtain ⟨phase'', hat'', hle'⟩ := calls_step hn hblank hturn' hkey hat' hs hundisturbed.last
    refine ⟨⟨phase'', hat'', ?_⟩, ?_⟩
    · rw [callsOf_snoc]
      change callsOf i [(readSide E .memory).fire s input] + _ ≤ _ at hle'
      omega
    · intro j other phase₁ hworking
      obtain ⟨phase₀, hbefore⟩ := working_before hs hundisturbed.last hworking
      exact honly' j other phase₀ hbefore

end

theorem nobodyWorks_of_not_working {s : ReadSideState E} {key : ClaimId}
    (h : ∀ i session phase, ¬ Working s key i session phase) : nobodyWorks s key = true := by
  apply List.all_eq_true.mpr
  intro entry hentry
  obtain ⟨i, hi⟩ := List.getElem?_of_mem hentry
  by_contra hworks
  simp only [Bool.not_eq_true, Bool.or_eq_false_iff, decide_eq_false_iff_not, not_not,
    Bool.not_eq_false'] at hworks
  exact h i entry.1 entry.2 ⟨hi, hworks.1, hworks.2⟩

/-- **A projection goes on.** Behind its stream, one more execution that nothing fails for
moves the offset, and it ends. -/
theorem projection_advances {n : Nat} (hn : 0 < n) {key : ClaimId}
    (hblank : isBlank key.tenant = false) {h h' : ReadSideHistory E} {s s' : ReadSideState E}
    (he : (readSide E .memory).Exec (readSide E .memory).init h s)
    (hwhole : Along (fun _ t => (wholeCommits E n).allows key t = true) h)
    (hnobody : nobodyWorks s key = true)
    (hbehind : ∃ last, (tenantStream s.stores.streams key).getLast? = some last ∧
      resumesAfter (s.stores.offsets.lookup key) < last.eventVersion)
    {session : ReadSideSession} (hkey : session.claimId = key) (hsize : session.batchSize = n)
    (hclaiming : session.claiming = none)
    (he' : (readSide E .memory).Exec (s.step .memory (.execute session)).1 h' s')
    (hundisturbed : Along (fun _ t => (undisturbed E).allows key t = true) h')
    (happends : Along (fun _ t => appendsOnly t = true)
      (h ++ [(readSide E .memory).fire s (.execute session)] ++ h')) :
    (nobodyWorks s' key = true → resumesAfter (s.stores.offsets.lookup key) <
      resumesAfter (s'.stores.offsets.lookup key)) ∧
    (2 * n + 5 ≤ callsOf s.sessions.length h' → nobodyWorks s' key = true) := by
  have hnone := not_working_of_nobodyWorks hnobody
  -- before the execution the next batch has an event that is not marked
  have hinit : Turn key (Fresh n) (fun v session phase => session.batchSize = n ∧ phase.Fresh n v)
      (given [] key) (readSide E .memory).init :=
    turn_init ⟨[], [], ⟨rfl, by simp, by simp⟩, hn, fun _ => rfl⟩
  have hturn := turn_run (keeps_fresh hn key) (.nil _) he happends.of_append.of_append hwhole hinit
  have hfresh := hturn.idle hnone
  -- so the execution starts out as one that advances
  have hafter : (viewOf (given h key) s.stores key).after
      (resumesAfter (s.stores.offsets.lookup key)) ≠ [] := by
    obtain ⟨last, hlast, hlt⟩ := hbehind
    exact List.ne_nil_of_mem (View.mem_after.mpr ⟨List.mem_of_getLast? hlast, hlt⟩)
  have hbegin : session.begin = (.batch none .readOffset : Phase E) := by
    unfold ReadSideSession.begin
    rw [hclaiming]
  have hstarted : Turn key
      (fun v => resumesAfter (s.stores.offsets.lookup key) < resumesAfter v.offset)
      (Advancing n (resumesAfter (s.stores.offsets.lookup key))) (given h key)
      (s.step .memory (.execute session)).1 := by
    refine turn_started hnone hkey ?_
    rw [hbegin]
    exact ⟨hclaiming, hsize, rfl, hfresh, rfl, hafter⟩
  have he₁ : (readSide E .memory).Exec (readSide E .memory).init
      (h ++ [(readSide E .memory).fire s (.execute session)])
      (s.step .memory (.execute session)).1 := .snoc _ he
  have hgiven : given (h ++ [(readSide E .memory).fire s (.execute session)]) key =
      given h key := by
    rw [given_snoc]
    exact List.append_nil _
  rw [← hgiven] at hstarted
  have hended := turn_run (keeps_advancing hn hblank) he₁ he' happends hundisturbed hstarted
  refine ⟨fun hover => hended.idle (not_working_of_nobodyWorks hover), ?_⟩
  intro hcalls
  apply nobodyWorks_of_not_working
  intro i other phase hworking
  have hat : (s.step .memory (.execute session)).1.sessions[s.sessions.length]? =
      some (session, (.batch none .readOffset : Phase E)) := by
    rw [← hbegin]
    exact List.getElem?_concat_length
  have honly : ∀ j other phase', Working (s.step .memory (.execute session)).1 key j other phase' →
      j = s.sessions.length := by
    rintro j other phase' ⟨hj, hkey', hprogress⟩
    rcases getElem?_concat_cases hj with ⟨hlast, -⟩ | hold
    · exact hlast
    · exact absurd ⟨hold, hkey', hprogress⟩ (hnone j other phase')
  obtain ⟨⟨phase', hat', hle⟩, honly'⟩ :=
    calls_run hn hblank he₁ he' happends hundisturbed hstarted hkey hat honly
  -- whoever still works is this execution, which has no call left
  obtain rfl := honly' i other phase hworking
  have heq := Option.mem_unique hat' hworking.1
  cases heq
  have hpos : 0 < phase.remaining n := by
    obtain ⟨p, rfl, -, -, hplain, -⟩ := (hended.during _ _ _ hworking).batch
    cases p with
    | ended => cases hplain
    | _ => simp [Phase.remaining, BatchPhase.remaining]
  have hstart : (Phase.batch none .readOffset : Phase E).remaining n = 2 * n + 5 := rfl
  omega

/-- The first of two events is marked, and the mark of the second fails. -/
def failedMark : List (ReadSideInput Unit) :=
  [.insert firstOrder, .insert secondOrder, .execute (ordersSession 2 none)] ++
  List.replicate 6 (.resume 0 wentWell) ++
  [.resume 0 ⟨some ⟨.transient "timeout", false⟩, .ok (), .initial⟩]

theorem projection_advances_failed_mark :
    let store := readSide Unit .memory
    let s := store.after store.init failedMark
    let next := store.after (s.step .memory (.execute (ordersSession 2 none))).1
      (List.replicate 9 (.resume 1 wentWell))
    let key := (ordersSession 2 none).claimId
    s.stores.marks.length = 1 ∧ nobodyWorks next key = true ∧
      resumesAfter (s.stores.offsets.lookup key) <
        resumesAfter (next.stores.offsets.lookup key) := by
  have hadvances := projection_advances (n := 2) (by decide) (by decide)
    ((readSide Unit .memory).exec_trace (readSide Unit .memory).init failedMark)
    (.of_positions (by decide)) (by decide) ⟨_, rfl, by decide⟩
    (rfl : (ordersSession 2 none).claimId = _) rfl rfl
    ((readSide Unit .memory).exec_trace _ (List.replicate 9 (.resume 1 wentWell)))
    (.of_positions (by decide)) (.of_positions (by decide))
  exact ⟨by decide, by decide, hadvances.1 (by decide)⟩

/-- Two events are marked, and the execution stops before it writes their offset. -/
def stoppedBeforeOffset : List (ReadSideInput Unit) :=
  [.insert firstOrder, .insert secondOrder, .execute (ordersSession 2 none)] ++
  List.replicate 7 (.resume 0 wentWell) ++ [.stop 0]

/-- The next execution returns, with the offset where it was. -/
theorem projection_stalls :
    let store := readSide Unit .memory
    let s := store.after store.init stoppedBeforeOffset
    let later := List.replicate 4 (.resume 1 wentWell)
    let s₁ := (s.step .memory (.execute (ordersSession 2 none))).1
    let key := (ordersSession 2 none).claimId
    Along (fun _ t => (interrupted Unit 2).allows key t = true)
        (store.trace store.init stoppedBeforeOffset) ∧
      Along (fun _ t => appendsOnly t = true)
        (store.trace store.init stoppedBeforeOffset ++
          [store.fire s (.execute (ordersSession 2 none))] ++ store.trace s₁ later) ∧
      nobodyWorks s key = true ∧
      (tenantStream s.stores.streams key).getLast?.map EventStreamElement.eventVersion = some 2 ∧
      resumesAfter (s.stores.offsets.lookup key) = 0 ∧
      Along (fun _ t => (undisturbed Unit).allows key t = true) (store.trace s₁ later) ∧
      (store.after s₁ later).sessions[1]? =
        some (ordersSession 2 none, .returned (.ok none)) ∧
      resumesAfter ((store.after s₁ later).stores.offsets.lookup key) = 0 :=
  ⟨.of_positions (by decide), .of_positions (by decide), by decide, by decide, by decide,
    .of_positions (by decide), rfl, by decide⟩

end EgoRs.ReadSide
