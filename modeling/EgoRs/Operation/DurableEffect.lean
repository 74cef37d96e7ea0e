import EgoRs.Framework.Transactions
import EgoRs.Operation.DurableInvariant

/-! # Every Call Takes Effect at One Statement

Where each call of a durable store is taken to have happened:
- a first attempt at its insert, a takeover at its update, a mutation at
  its one statement
- a conflict, a replay and a lease that is still live at the read of the
  row, with the clock reading that followed it
- a lost takeover race at the second read
- a purge at the statement that chooses the rows
-/

namespace EgoRs.Durable

open Framework Memory

variable [Base64]

/-! ## Linearization points -/

/-- The transition in which call `i` moves on. -/
def stepEvent (s : State) (i : Nat) (now : Timestamp) (scan : ScanOrder) (call : Call)
    (table' : Table) (progress' : Progress) : Event where
  pre := s
  input := .advance i now scan
  output := outputOf i progress'
  post := ⟨table', s.calls.set i ⟨call, progress'⟩⟩

section
variable {b : Backend} {h : History} {s : State} {i : Nat} {now : Timestamp} {scan : ScanOrder}
  {call : Call} {progress progress' : Progress} {table' : Table} {reply : Reply}

theorem stepOf_stepEvent : StepOf i (stepEvent s i now scan call table' progress') :=
  ⟨⟨now, scan, rfl⟩, outputOf_ne_idle i progress'⟩

theorem readBy_stepEvent : ReadBy (h ++ [stepEvent s i now scan call table' progress']) i now :=
  ⟨stepEvent s i now scan call table' progress', by simp, ⟨scan, rfl⟩,
    outputOf_ne_idle i progress'⟩

/-- A step that leaves the call's pending rows alone. -/
theorem contents_step (hcall : s.calls[i]? = some ⟨call, progress⟩)
    (hpend : progress'.pending = progress.pending) :
    (stepEvent s i now scan call table' progress').post.contents b =
      contents b table' (pendingKeys s.calls) := by
  obtain ⟨l₁, l₂, hcalls, hset⟩ := split_calls hcall
  have hsame : pendingKeys (s.calls.set i ⟨call, progress'⟩) = pendingKeys s.calls := by
    rw [hset, hcalls]
    simp [hpend]
  show contents b table' (pendingKeys (s.calls.set i ⟨call, progress'⟩)) = _
  rw [hsame]

theorem Silent.read (hq : Silent b h i) (hcall : s.calls[i]? = some ⟨call, progress⟩)
    (hpend : progress'.pending = progress.pending) :
    Silent b (h ++ [stepEvent s i now scan call s.table progress']) i :=
  Quiet.snoc hq (fun _ => contents_step hcall hpend)

variable {at' : Timestamp} {req : ReserveRequest} {row : Row} {cutoff : Timestamp} {batch : Nat}

/-- A call that was silent so far takes effect in this step. -/
theorem Silent.answers (hq : Silent b h i) (hcall : s.calls[i]? = some ⟨call, progress⟩)
    (hpend : progress'.pending = progress.pending)
    (hread : ReadBy (h ++ [stepEvent s i now scan call table' progress']) i at')
    (hnot : ¬ Disappeared reply) (hdoes : MemoryDoes call reply at' (s.contents b)
      (contents b table' (pendingKeys s.calls))) :
    Answered b (h ++ [stepEvent s i now scan call table' progress']) i call reply := by
  rw [← contents_step hcall hpend] at hdoes
  exact ⟨hnot, at', hread, Quiet.takesEffect hq stepOf_stepEvent hdoes⟩

theorem WellFormed.fresh (hwf : WellFormed b s)
    (habs : s.table.lookup (b.rowKey req.operationId) = none) : MemoryDoes (.reserve req)
      (.outcome (.fresh ⟨req.operationId, req.ownerId, .initial, req.leaseUntil⟩)) now
      (s.contents b) (contents b (s.table.insert (b.rowKey req.operationId) (insertedRow req))
        (pendingKeys s.calls)) := by
  rw [contents_insert (hwf.not_pending_absent habs), record_insertedRow]
  refine memoryDoes_stored fun records hrep => ?_
  have hrec := (hrep req.operationId).trans (contents_of_absent habs)
  exact ⟨_, by simp [execute, reserve, hrec], hrep.insert _ _⟩

section
variable (hwf : WellFormed b s) (hrow : s.table.lookup (b.rowKey req.operationId) = some row)
  (hkey : b.rowKey req.operationId ∉ pendingKeys s.calls)
include hwf hrow hkey

theorem WellFormed.conflict (hfp : row.fingerprint ≠ req.fingerprint.value) :
    MemoryDoes (.reserve req) (.outcome .conflict) now (s.contents b) (s.contents b) := by
  obtain ⟨record, hrec⟩ := hwf.readable.record _ row hrow
  have hfp' : record.fingerprint ≠ req.fingerprint := by
    intro heq
    rw [record_fingerprint hrec] at heq
    exact hfp (by rw [← heq])
  refine memoryDoes_stored fun records hrep => ?_
  have hrec' := (hrep req.operationId).trans ((contents_of_row hrow hkey).trans hrec)
  exact ⟨records, by simp [execute, reserve, hrec', hfp'], hrep⟩

theorem WellFormed.succeeded (hfp : row.fingerprint = req.fingerprint.value)
    (hstate : row.state = .completed) : ¬ Disappeared (completedReply b row) ∧
      MemoryDoes (.reserve req) (completedReply b row) now (s.contents b) (s.contents b) := by
  obtain ⟨record, hrec⟩ := hwf.readable.record _ row hrow
  obtain ⟨response, at', hresponse, _, rfl⟩ := record_completed hrec hstate
  obtain ⟨cell, hcell, hdecode⟩ := Option.bind_eq_some_iff.mp hresponse
  have hreply : completedReply b row = .outcome (.succeeded response) := by
    simp [completedReply, hcell, hdecode]
  rw [hreply]
  refine ⟨by simp, memoryDoes_stored fun records hrep => ?_⟩
  have hrec' := (hrep req.operationId).trans ((contents_of_row hrow hkey).trans hrec)
  exact ⟨records, by simp [execute, reserve, hrec', hfp], hrep⟩

end

/-- A lease that is live at the clock reading was live when its row was read:
the call happened at the read. -/
theorem answered_live {existing : Row} (hcall : s.calls[i]? = some ⟨.reserve req, progress⟩)
    (hpend : progress'.pending = progress.pending) (hq : Silent b h i)
    (hsaw : Saw b h i req.operationId existing) (hread : ∃ record, existing.record b = some record)
    (hfp : existing.fingerprint = req.fingerprint.value) (hstate : existing.state = .inProgress)
    (hlive : now < existing.leaseUntil) :
    Answered b (h ++ [stepEvent s i now scan (.reserve req) s.table progress']) i (.reserve req)
      (inProgressReply b req existing) := by
  have hq' : Silent b (h ++ [stepEvent s i now scan (.reserve req) s.table progress']) i :=
    hq.read hcall hpend
  refine ⟨not_disappeared_inProgressReply hread hstate, now, readBy_stepEvent, ?_⟩
  obtain ⟨h₁, t, h₂, rfl, hown, hseen⟩ := hsaw
  rw [List.append_assoc, List.cons_append] at hq' ⊢
  exact Quiet.takesEffect_at hq' hown (memory_inProgress hseen hread hstate hfp hlive)

theorem WellFormed.takenOver {existing : Row} {token next : FencingToken} (hwf : WellFormed b s)
    (htoken : existing.fencingToken = token.value) (hnext : token.next = some next)
    (hrow : s.table.lookup (b.rowKey req.operationId) = some row)
    (htake : row.takeable existing.fencingToken at' = true)
    (hfp : row.fingerprint = req.fingerprint.value) : MemoryDoes (.reserve req)
      (.outcome (.takenOver ⟨req.operationId, req.ownerId, next, req.leaseUntil⟩)) at'
      (s.contents b)
      (contents b (s.table.insert (b.rowKey req.operationId) (row.takenBy req next.value))
        (pendingKeys s.calls)) := by
  obtain ⟨hstate, hsame, hexp⟩ := takeable_state htake
  have hkey := hwf.not_pending hrow hstate
  have hpos : 0 < next.value := by
    rw [FencingToken.next_value hnext]
    exact Nat.succ_pos _
  -- the row still has the token that was read
  obtain ⟨record, hrec⟩ := hwf.readable.record _ row hrow
  obtain ⟨held, hheld, _, rfl⟩ := record_inProgress hrec hstate
  have heq : held = token := FencingToken.ext_value (by omega)
  have hfp' : (⟨row.fingerprint⟩ : OperationFingerprint) = req.fingerprint := by rw [hfp]
  rw [heq, hfp'] at hrec
  rw [contents_insert hkey, record_takenBy b row req hstate hpos, hfp']
  refine memoryDoes_stored fun records hrep => ?_
  have hrec' := (hrep req.operationId).trans ((contents_of_row hrow hkey).trans hrec)
  exact ⟨_, by simp [execute, reserve, hrec', hexp, hnext], hrep.insert _ _⟩

theorem WellFormed.reread (hwf : WellFormed b s)
    (hrow : s.table.lookup (b.rowKey req.operationId) = some row)
    (hfp : row.fingerprint = req.fingerprint.value) (hstate : row.state = .inProgress)
    (hlive : at' < row.leaseUntil) : ¬ Disappeared (inProgressReply b req row) ∧
      MemoryDoes (.reserve req) (inProgressReply b req row) at' (s.contents b) (s.contents b) := by
  have hread := hwf.readable.record _ row hrow
  have hseen : s.contents b req.operationId = row.record b :=
    contents_of_row hrow (hwf.not_pending hrow hstate)
  exact ⟨not_disappeared_inProgressReply hread hstate,
    memory_inProgress hseen hread hstate hfp hlive⟩

theorem WellFormed.mutated {fence : OwnerFence} (hwf : WellFormed b s)
    (hfence : call.fence? = some fence)
    (hrow : s.table.lookup (b.rowKey fence.operationId) = some row)
    (hheld : row.heldBy fence fence.fencingToken.value at' = true) :
    MemoryDoes call .done at' (s.contents b)
      (contents b (mutated s.table (b.rowKey fence.operationId) (row.set b call at'))
        (pendingKeys s.calls)) := by
  have hkey := hwf.not_pending hrow (heldBy_state hheld)
  obtain ⟨record, hrec⟩ := hwf.readable.record _ row hrow
  rw [heldBy_eq fence at' hrec] at hheld
  rw [contents_mutated hkey, record_set hrec hheld]
  exact memory_mutated hfence ((contents_of_row hrow hkey).trans hrec) hheld

theorem WellFormed.purged (hwf : WellFormed b s)
    (hfree : ∀ key ∈ purgeSelection s.table scan cutoff batch, key ∉ pendingKeys s.calls) :
    MemoryDoes (.purgeCompletedBefore cutoff batch)
      (.purged (purgeSelection s.table scan cutoff batch).length) now (s.contents b)
      (contents b (eraseAll s.table (purgeSelection s.table scan cutoff batch))
        (pendingKeys s.calls)) := by
  rw [contents_eraseAll]
  exact memory_purged hwf.readable hfree

/-- A purge that chooses its rows first has happened once it has chosen. -/
theorem answered_selected (hwf : WellFormed b s)
    (hcall : s.calls[i]? = some ⟨.purgeCompletedBefore cutoff batch, progress⟩)
    (hnone : progress.pending = [])
    (hpend : progress'.pending = purgeSelection s.table scan cutoff batch) (hq : Silent b h i)
    (hfree : ∀ key ∈ purgeSelection s.table scan cutoff batch, key ∉ pendingKeys s.calls) :
    Answered b (h ++ [stepEvent s i now scan (.purgeCompletedBefore cutoff batch) s.table
        progress']) i (.purgeCompletedBefore cutoff batch)
      (.purged (purgeSelection s.table scan cutoff batch).length) := by
  obtain ⟨l₁, l₂, hcalls, hset⟩ := split_calls hcall
  have hpost : (stepEvent s i now scan (.purgeCompletedBefore cutoff batch) s.table
      progress').post.contents b =
      without b (s.contents b) (purgeSelection s.table scan cutoff batch) := by
    refine contents_pending ?_
    intro key
    show key ∈ pendingKeys (s.calls.set i _) ↔ _
    rw [hset, hcalls]
    simp only [pendingKeys_append, pendingKeys_cons, List.mem_append, hpend, hnone,
      List.not_mem_nil, false_or]
    exact or_left_comm
  refine ⟨by simp, now, readBy_stepEvent, Quiet.takesEffect hq stepOf_stepEvent ?_⟩
  rw [hpost]
  exact memory_purged hwf.readable hfree

theorem contents_deleted {key : RowKey} {rest : List RowKey}
    (hcall : s.calls[i]? = some ⟨call, progress⟩) (hpre : progress.pending = key :: rest)
    (hpost : progress'.pending = rest) :
    (stepEvent s i now scan call (s.table.erase key) progress').post.contents b = s.contents b := by
  obtain ⟨l₁, l₂, hcalls, hset⟩ := split_calls hcall
  refine contents_delete ?_
  intro k
  show k ∈ pendingKeys s.calls ↔ k = key ∨ k ∈ pendingKeys (s.calls.set i _)
  rw [hset, hcalls]
  simp only [pendingKeys_append, pendingKeys_cons, List.mem_append, hpre, hpost, List.mem_cons]
  rw [or_assoc]
  exact or_left_comm

/-- The reply of a purge is known once its rows are chosen. -/
theorem track_nextDelete {count : Nat} {remaining : List RowKey}
    (ha : Answered b h i (.purgeCompletedBefore cutoff batch)
      (.purged (count + remaining.length))) :
    Track b h i (.purgeCompletedBefore cutoff batch) (nextDelete cutoff remaining count) := by
  cases remaining with
  | nil => exact .answered _ _ ha
  | cons key rest => exact .deleting cutoff batch (key :: rest) count ha

end

/-! ## One step of a call -/

section
variable {b : Backend} {h : History} {s : State} {i : Nat} {now : Timestamp} {scan : ScanOrder}
  {call : Call} {progress progress' : Progress} {table' : Table}

/-- **Step lemma**: what is known of a call stays known as it moves on. -/
theorem Track.moves (htrack : Track b h i call progress) (hwf : WellFormed b s)
    (hcall : s.calls[i]? = some ⟨call, progress⟩)
    (hmove : Moves b s.table now scan progress table' progress')
    (hcond : Undisturbed b s (.advance i now scan)) :
    Track b (h ++ [stepEvent s i now scan call table' progress']) i call progress' := by
  have hcond := hcond _ hcall
  cases hmove with
  | fresh _ habs =>
    cases htrack with
    | inserting _ hq =>
      exact .answered _ _ (hq.answers hcall rfl readBy_stepEvent (by simp) (hwf.fresh habs))
  | occupied req =>
    cases htrack with
    | inserting _ hq => exact .selecting req (hq.read hcall rfl)
  | vanished =>
    cases htrack with
    | selecting _ hq => exact .retry _ _ (hq.read hcall rfl) (.inl rfl)
  | conflict _ _ hrow hfp =>
    cases htrack with
    | selecting _ hq =>
      exact .answered _ _ (hq.answers hcall rfl readBy_stepEvent (by simp)
        (hwf.conflict hrow hcond hfp))
  | succeeded _ _ hrow hfp hstate =>
    cases htrack with
    | selecting _ hq =>
      obtain ⟨hnot, hdoes⟩ := hwf.succeeded hrow hcond hfp hstate
      exact .answered _ _ (hq.answers hcall rfl readBy_stepEvent hnot hdoes)
  | observed req row hrow hfp hstate =>
    cases htrack with
    | selecting _ hq =>
      refine .reading req row (hq.read hcall rfl) ?_ (hwf.readable.record _ row hrow) hfp hstate
      exact ⟨h, _, [], rfl, stepOf_stepEvent, contents_of_row hrow hcond⟩
  | live _ _ hlive =>
    cases htrack with
    | reading _ _ hq hsaw hread hfp hstate =>
      exact .answered _ _ (answered_live hcall rfl hq hsaw hread hfp hstate hlive)
  | expired req existing token next _ htoken hnext =>
    cases htrack with
    | reading _ _ hq =>
      exact .taking req existing token next now (hq.read hcall rfl) readBy_stepEvent htoken hnext
  | unstorable _ _ _ hexp =>
    cases htrack with
    | reading _ _ _ _ hread _ hstate =>
      -- the row was readable, and the condition bounds its token
      have hpos := token_pos_of_readable hread hstate
      have hlt := hcond hexp
      omega
  | takenOver _ _ _ _ _ row hrow htake =>
    cases htrack with
    | taking _ _ _ _ _ hq hnow htoken hnext =>
      exact .answered _ _ (hq.answers hcall rfl hnow.snoc (by simp)
        (hwf.takenOver htoken hnext hrow htake (hcond row hrow htake)))
  | missed req _ _ _ at' =>
    cases htrack with
    | taking _ _ _ _ _ hq hnow =>
      exact .rereading req at' (hq.read hcall rfl) hnow.snoc
  | lost =>
    cases htrack with
    | rereading _ _ hq => exact .retry _ _ (hq.read hcall rfl) (.inr rfl)
  | reread _ _ row hrow =>
    cases htrack with
    | rereading _ _ hq hnow =>
      obtain ⟨hfp, hstate, hlive⟩ := hcond row hrow
      obtain ⟨hnot, hdoes⟩ := hwf.reread hrow hfp hstate hlive
      exact .answered _ _ (hq.answers hcall rfl hnow.snoc hnot hdoes)
  | readClock _ fence =>
    cases htrack with
    | fencing _ _ hfence hq =>
      exact .mutating call fence now hfence (hq.read hcall rfl) readBy_stepEvent
  | unstorableFence _ fence =>
    have hlt : fence.fencingToken.value < 2 ^ 63 := hcond
    omega
  | mutated _ _ _ _ _ hrow hheld =>
    cases htrack with
    | mutating _ _ _ hfence hq hnow =>
      exact .answered _ _ (hq.answers hcall rfl hnow.snoc (by simp)
        (hwf.mutated hfence hrow hheld))
  | stale _ fence _ at' hnot =>
    cases htrack with
    | mutating _ _ _ hfence hq hnow =>
      refine .answered _ _ (hq.answers hcall rfl hnow.snoc (by simp) (memory_stale hfence ?_))
      intro record hseen
      obtain ⟨_, row, hrow, hrec⟩ := row_of_contents hseen
      rw [← heldBy_eq fence at' hrec]
      exact hnot row hrow
  | purged =>
    cases htrack with
    | choosing _ _ hq =>
      exact .answered _ _ (hq.answers hcall rfl readBy_stepEvent (by simp) (hwf.purged hcond))
  | selected =>
    cases htrack with
    | choosing _ _ hq =>
      refine track_nextDelete ?_
      rw [Nat.zero_add]
      exact answered_selected hwf hcall rfl (pending_nextDelete _ _ _) hq hcond
  | deleted _ key rest count =>
    cases htrack with
    | deleting _ _ _ _ ha =>
      refine track_nextDelete ?_
      have hlen : count + 1 + rest.length = count + (key :: rest).length := by
        rw [List.length_cons]
        omega
      rw [hlen]
      exact ha.snoc (fun _ => contents_deleted hcall rfl (pending_nextDelete _ _ _))
  | gone cutoff key rest count hnot =>
    -- a chosen row stays eligible until its own purge deletes it
    obtain ⟨l₁, l₂, hcalls, _⟩ := split_calls hcall
    have hstill := hwf.purging ⟨call, .purgeDelete cutoff (key :: rest) count⟩
      (by rw [hcalls]; simp)
    rw [hstill key List.mem_cons_self] at hnot
    cases hnot
  | finished =>
    cases htrack with
    | deleting _ _ _ _ ha =>
      exact .answered _ _ (ha.snoc (fun _ => contents_step hcall rfl))

end

/-! ## Runs -/

variable {b : Backend} {h : History} {s : State}

/-- A call that has not been made yet has no steps. -/
theorem no_steps_of_unmade (he : (store b).Run h s) :
    ∀ i, s.calls.length ≤ i → ∀ t ∈ h, ¬ StepOf i t := by
  refine he.invariant (P := fun h s => ∀ i, s.calls.length ≤ i → ∀ t ∈ h, ¬ StepOf i t)
    (by simp) ?_
  intro h s input _ ih i hi t ht hown
  have hlen := (fires_step b s input).calls_length_le
  obtain ht | rfl := mem_snoc ht
  · exact ih i (Nat.le_trans hlen hi) t ht hown
  · -- the step just made is a step of a call that had been made
    have hlt : i < s.calls.length := hown.made rfl
    omega

/-- What holds along every run. -/
structure Tracked (b : Backend) (h : History) (s : State) : Prop where
  wellFormed : WellFormed b s
  track : ∀ i call progress, s.calls[i]? = some ⟨call, progress⟩ → Track b h i call progress

theorem tracked_init (b : Backend) : Tracked b [] (store b).init := by
  refine ⟨⟨⟨?_, ?_⟩, ?_, ?_⟩, ?_⟩ <;> simp [store, pendingKeys]

theorem Tracked.invoke (ht : Tracked b h s) (hnew : ∀ t ∈ h, ¬ StepOf s.calls.length t)
    (call : Call) {t : Event} (hown : ∀ i, ¬ StepOf i t) :
    Tracked b (h ++ [t]) { s with calls := s.calls ++ [⟨call, begin call⟩] } := by
  constructor
  · refine ⟨ht.wellFormed.readable, ?_, ?_⟩
    · simpa [pendingKeys] using ht.wellFormed.distinct
    · intro c hc
      obtain hc | rfl := mem_snoc hc
      · exact ht.wellFormed.purging c hc
      · exact stillEligible_begin s.table call
  · intro i call' progress hcall
    rcases getElem?_concat_cases hcall with ⟨rfl, heq⟩ | hold
    · cases heq
      refine (track_begin ?_ call).foreign (hown _)
      intro u hu hstep
      exact absurd hstep (hnew u hu)
    · exact (ht.track i call' progress hold).foreign (hown i)

theorem Tracked.foreign (ht : Tracked b h s) {t : Event} (hown : ∀ i, ¬ StepOf i t) :
    Tracked b (h ++ [t]) s where
  wellFormed := ht.wellFormed
  track := fun i call progress hcall => (ht.track i call progress hcall).foreign (hown i)

theorem Tracked.moves (ht : Tracked b h s) {i : Nat} {now : Timestamp} {scan : ScanOrder}
    {call : Call} {progress progress' : Progress} {table' : Table}
    (hcall : s.calls[i]? = some ⟨call, progress⟩)
    (hmove : Moves b s.table now scan progress table' progress')
    (hcond : Undisturbed b s (.advance i now scan)) :
    Tracked b (h ++ [stepEvent s i now scan call table' progress'])
      ⟨table', s.calls.set i ⟨call, progress'⟩⟩ := by
  have htrack := ht.track i call progress hcall
  constructor
  · exact ht.wellFormed.moves hcall hmove hcond htrack
  · intro j call' p hj
    rcases getElem?_set_cases hcall hj with ⟨rfl, heq⟩ | ⟨hne, hold⟩
    · cases heq
      exact htrack.moves ht.wellFormed hcall hmove hcond
    · refine (ht.track j call' p hold).foreign ?_
      intro hown
      exact hne (hown.unique stepOf_stepEvent)

/-- **Run lemma**: along an undisturbed run every call is tracked. -/
theorem tracked_run (he : (store b).Run h s)
    (hc : Along (fun _ t => Undisturbed b t.pre t.input) h) : Tracked b h s := by
  refine he.invariant_along (P := fun h s => Tracked b h s) (tracked_init b) ?_ hc
  intro h s input he ih hcond
  have hcond' : Undisturbed b s input := hcond
  have hfires := fires_step b s input
  have hfire : (store b).fire s input =
      ⟨s, input, ((store b).step s input).2, ((store b).step s input).1⟩ := rfl
  rw [hfire]
  generalize ((store b).step s input).2 = o at hfires ⊢
  generalize ((store b).step s input).1 = s' at hfires ⊢
  cases hfires with
  | invoke call =>
    refine ih.invoke (no_steps_of_unmade he _ (Nat.le_refl _)) call ?_
    rintro i ⟨⟨_, _, hinput⟩, _⟩
    cases hinput
  | idle =>
    refine ih.foreign ?_
    rintro j ⟨_, hout⟩
    exact hout rfl
  | moves _ _ _ _ _ _ _ hcall _ hmove =>
    exact ih.moves hcall hmove hcond'

end EgoRs.Durable
