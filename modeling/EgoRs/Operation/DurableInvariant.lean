import EgoRs.Framework.Linearization
import EgoRs.Operation.DurableContents

/-! # Undisturbed Steps of a Durable Store

`Undisturbed` says what a step must not meet. `WellFormed` is what holds
of the table and of the running purges, and `Track` is what is known of
each call from the history of its own steps. That undisturbed steps keep
the first is proved here, the second in `EgoRs.Operation.DurableEffect`.
-/

set_option linter.unusedSectionVars false

namespace EgoRs.Durable

open Framework Memory

variable [Base64]

/-! ## The condition -/

/-- What the next step of a call must not meet, read off the state it starts
from:
- a read of a row, or a purge's selection of one, while a running purge
  has chosen the row and not deleted it yet
- a takeover of a row that has another fingerprint by now
- a second read of a row that has another fingerprint by now, or is
  completed, or whose lease has expired by the call's clock reading
- a token at the end of the column's range -/
def Progress.Undisturbed (b : Backend) (s : State) (now : Timestamp) (scan : ScanOrder) :
    Progress → Prop
  | .reserveSelect req => b.rowKey req.operationId ∉ pendingKeys s.calls
  | .reserveClock _ existing => existing.leaseUntil ≤ now → existing.fencingToken + 1 < 2 ^ 63
  | .reserveTakeover req existing _ _ at' =>
    ∀ row ∈ s.table.lookup (b.rowKey req.operationId),
      row.takeable existing.fencingToken at' = true → row.fingerprint = req.fingerprint.value
  | .reserveReread req at' =>
    ∀ row ∈ s.table.lookup (b.rowKey req.operationId),
      row.fingerprint = req.fingerprint.value ∧ row.state = .inProgress ∧ at' < row.leaseUntil
  | .mutateClock _ fence => fence.fencingToken.value < 2 ^ 63
  | .purgeStatement cutoff batch =>
    ∀ key ∈ purgeSelection s.table scan cutoff batch, key ∉ pendingKeys s.calls
  | _ => True

/-- A step of the store that meets none of that. -/
def Undisturbed (b : Backend) (s : State) : Input → Prop
  | .invoke _ => True
  | .advance i now scan => ∀ c ∈ s.calls[i]?, c.progress.Undisturbed b s now scan

instance (b : Backend) (s : State) (now : Timestamp) (scan : ScanOrder) :
    ∀ p : Progress, Decidable (p.Undisturbed b s now scan)
  | .reserveInsert _ => inferInstanceAs (Decidable True)
  | .reserveSelect _ => inferInstanceAs (Decidable (¬ _ ∈ _))
  | .reserveClock _ _ => inferInstanceAs (Decidable (_ → _))
  | .reserveTakeover req existing _ _ at' =>
    inferInstanceAs (Decidable (∀ row ∈ s.table.lookup (b.rowKey req.operationId),
      row.takeable existing.fencingToken at' = true → row.fingerprint = req.fingerprint.value))
  | .reserveReread req at' =>
    inferInstanceAs (Decidable (∀ row ∈ s.table.lookup (b.rowKey req.operationId),
      row.fingerprint = req.fingerprint.value ∧ row.state = .inProgress ∧ at' < row.leaseUntil))
  | .mutateClock _ _ => inferInstanceAs (Decidable (_ < _))
  | .mutateStatement _ _ _ _ => inferInstanceAs (Decidable True)
  | .purgeStatement _ _ => inferInstanceAs (Decidable (∀ key ∈ purgeSelection _ _ _ _, _))
  | .purgeDelete _ _ _ => inferInstanceAs (Decidable True)
  | .returned _ => inferInstanceAs (Decidable True)

instance (b : Backend) (s : State) : ∀ input, Decidable (Undisturbed b s input)
  | .invoke _ => inferInstanceAs (Decidable True)
  | .advance _ now scan =>
    inferInstanceAs (Decidable (∀ c ∈ _, Progress.Undisturbed b s now scan (CallState.progress c)))

/-! ## Rows that are being deleted -/

@[simp] theorem pendingKeys_nil : pendingKeys [] = [] :=
  rfl

@[simp] theorem pendingKeys_append (l₁ l₂ : List CallState) :
    pendingKeys (l₁ ++ l₂) = pendingKeys l₁ ++ pendingKeys l₂ :=
  List.flatMap_append

@[simp] theorem pendingKeys_cons (c : CallState) (l : List CallState) :
    pendingKeys (c :: l) = c.progress.pending ++ pendingKeys l :=
  rfl

@[simp] theorem pending_begin (call : Call) : (begin call).pending = [] := by
  cases call <;> rfl

@[simp] theorem pending_nextDelete (cutoff : Timestamp) (remaining : List RowKey) (count : Nat) :
    (nextDelete cutoff remaining count).pending = remaining := by
  cases remaining <;> rfl

/-- The rows a purge has yet to delete are still eligible. -/
def Progress.StillEligible (table : Table) : Progress → Prop
  | .purgeDelete cutoff remaining _ => ∀ key ∈ remaining, eligible table cutoff key = true
  | _ => True

theorem stillEligible_begin (table : Table) (call : Call) : (begin call).StillEligible table := by
  cases call <;> trivial

variable {cutoff : Timestamp}

theorem stillEligible_nextDelete {table : Table} {remaining : List RowKey}
    {count : Nat} (h : ∀ key ∈ remaining, eligible table cutoff key = true) :
    (nextDelete cutoff remaining count).StillEligible table := by
  cases remaining with
  | nil => trivial
  | cons => exact h

/-- The table can be read, and running purges hold distinct eligible rows. -/
structure WellFormed (b : Backend) (s : State) : Prop where
  readable : Readable b s.table
  distinct : (pendingKeys s.calls).Nodup
  purging : ∀ c ∈ s.calls, c.progress.StillEligible s.table

variable {b : Backend} {s : State} {key : RowKey} {row : Row}

theorem purgeable_state (h : row.purgeable cutoff = true) : row.state = .completed := by
  cases hstate : row.state with
  | completed => rfl
  | inProgress => simp [Row.purgeable, hstate] at h

/-- A row that is being deleted is completed. -/
theorem WellFormed.completed (hwf : WellFormed b s) (hkey : key ∈ pendingKeys s.calls) :
    ∃ row, s.table.lookup key = some row ∧ row.state = .completed := by
  obtain ⟨c, hc, hkey⟩ := List.mem_flatMap.mp hkey
  have hstill := hwf.purging c hc
  cases hp : c.progress with
  | purgeDelete =>
    rw [hp] at hkey hstill
    obtain ⟨row, hrow, hpurge⟩ := eligible_row (hstill key hkey)
    exact ⟨row, hrow, purgeable_state hpurge⟩
  | _ => simp [hp, Progress.pending] at hkey

theorem WellFormed.not_pending (hwf : WellFormed b s) (hrow : s.table.lookup key = some row)
    (hstate : row.state = .inProgress) : key ∉ pendingKeys s.calls := by
  intro hkey
  obtain ⟨row', hrow', hcompleted⟩ := hwf.completed hkey
  obtain rfl := Option.mem_unique hrow hrow'
  rw [hstate] at hcompleted
  cases hcompleted

theorem WellFormed.not_pending_absent (hwf : WellFormed b s) (habs : s.table.lookup key = none) :
    key ∉ pendingKeys s.calls := by
  intro hkey
  obtain ⟨row, hrow, _⟩ := hwf.completed hkey
  rw [habs] at hrow
  cases hrow

theorem takeable_state {token : Int} {now : Timestamp} (h : row.takeable token now = true) :
    row.state = .inProgress ∧ row.fencingToken = token ∧ row.leaseUntil ≤ now := by
  simp only [Row.takeable, Bool.and_eq_true, decide_eq_true_eq] at h
  exact ⟨h.1.1, h.1.2, h.2⟩

theorem heldBy_state {fence : OwnerFence} {token : Int} {now : Timestamp}
    (h : row.heldBy fence token now = true) : row.state = .inProgress := by
  simp only [Row.heldBy, Bool.and_eq_true, decide_eq_true_eq] at h
  exact h.1.2

def Progress.targets (table : Table) (scan : ScanOrder) : Progress → List RowKey
  | .purgeStatement cutoff batch => purgeSelection table scan cutoff batch
  | .purgeDelete _ (key :: _) _ => [key]
  | _ => []

section
variable {b : Backend} {table table' : Table} {now : Timestamp} {scan : ScanOrder}
  {progress progress' : Progress}

/-- **Completed rows stay**, but for the targets of a purge. -/
theorem Moves.keeps (hmove : Moves b table now scan progress table' progress') {key : RowKey}
    {row : Row} (hrow : table.lookup key = some row) (hstate : row.state = .completed)
    (hnot : key ∉ progress.targets table scan) : table'.lookup key = some row := by
  -- a statement that writes a row found it absent or in progress
  have hother : ∀ {id : OperationId} {r : Row}, table.lookup (b.rowKey id) = some r →
      r.state = .inProgress → key ≠ b.rowKey id := by
    rintro id r hr hin rfl
    obtain rfl := Option.mem_unique hrow hr
    rw [hstate] at hin
    cases hin
  cases hmove with
  | fresh req habs =>
    have hne : key ≠ b.rowKey req.operationId := by
      rintro rfl
      rw [habs] at hrow
      cases hrow
    rw [AList.lookup_insert_ne hne]
    exact hrow
  | takenOver _ _ _ _ _ _ hfound htake =>
    rw [AList.lookup_insert_ne (hother hfound (takeable_state htake).1)]
    exact hrow
  | mutated _ _ _ _ _ hfound hheld =>
    rw [lookup_mutated_ne _ (hother hfound (heldBy_state hheld))]
    exact hrow
  | purged cutoff batch =>
    have hkey : key ∉ purgeSelection table scan cutoff batch := hnot
    rw [lookup_eraseAll, if_neg hkey]
    exact hrow
  | deleted _ k =>
    have hne : key ≠ k := by
      intro heq
      exact hnot (by simp [Progress.targets, heq])
    rw [AList.lookup_erase_ne hne]
    exact hrow
  | _ => exact hrow

theorem Moves.keeps_eligible (hmove : Moves b table now scan progress table' progress')
    {key : RowKey} (helig : eligible table cutoff key = true)
    (hnot : key ∉ progress.targets table scan) : eligible table' cutoff key = true := by
  obtain ⟨row, hrow, hpurge⟩ := eligible_row helig
  simp only [eligible, hmove.keeps hrow (purgeable_state hpurge) hnot]
  exact hpurge

end

/-! ## What is known of a call -/

/-- Call `i` made a step while the clock showed `now`. -/
def ReadBy (h : History) (i : Nat) (now : Timestamp) : Prop :=
  ∃ t ∈ h, (∃ scan, t.input = .advance i now scan) ∧ t.output ≠ .idle

/-- No step of call `i` changed what the table stands for. -/
def Silent (b : Backend) (h : History) (i : Nat) : Prop :=
  Quiet StepOf (State.contents b) h i

/-- At one step of call `i` the call did what it does in memory; its other steps did nothing. -/
def Answered (b : Backend) (h : History) (i : Nat) (call : Call) (reply : Reply) : Prop :=
  ¬ Disappeared reply ∧ ∃ now, ReadBy h i now ∧
    TakesEffect StepOf (State.contents b) (MemoryDoes call reply now) h i

/-- Call `i` read `row` at one of its steps. -/
def Saw (b : Backend) (h : History) (i : Nat) (id : OperationId) (row : Row) : Prop :=
  ∃ h₁ t h₂, h = h₁ ++ t :: h₂ ∧ StepOf i t ∧ t.pre.contents b id = row.record b

section
variable (b : Backend) (h : History) (i : Nat)

/-- What the history tells of a call, by its progress. -/
inductive Track : Call → Progress → Prop where
  | inserting (req : ReserveRequest) (hq : Silent b h i) : Track (.reserve req) (.reserveInsert req)
  | selecting (req : ReserveRequest) (hq : Silent b h i) : Track (.reserve req) (.reserveSelect req)
  | reading (req : ReserveRequest) (existing : Row) (hq : Silent b h i)
      (hsaw : Saw b h i req.operationId existing)
      (hread : ∃ record, existing.record b = some record)
      (hfp : existing.fingerprint = req.fingerprint.value)
      (hstate : existing.state = .inProgress) : Track (.reserve req) (.reserveClock req existing)
  | taking (req : ReserveRequest) (existing : Row) (token next : FencingToken) (now : Timestamp)
      (hq : Silent b h i) (hnow : ReadBy h i now)
      (htoken : existing.fencingToken = token.value) (hnext : token.next = some next) :
      Track (.reserve req) (.reserveTakeover req existing next next.value now)
  | rereading (req : ReserveRequest) (now : Timestamp) (hq : Silent b h i)
      (hnow : ReadBy h i now) : Track (.reserve req) (.reserveReread req now)
  | fencing (call : Call) (fence : OwnerFence) (hcall : call.fence? = some fence)
      (hq : Silent b h i) : Track call (.mutateClock call fence)
  | mutating (call : Call) (fence : OwnerFence) (now : Timestamp)
      (hcall : call.fence? = some fence) (hq : Silent b h i) (hnow : ReadBy h i now) :
      Track call (.mutateStatement call fence fence.fencingToken.value now)
  | choosing (cutoff : Timestamp) (batch : Nat) (hq : Silent b h i) :
      Track (.purgeCompletedBefore cutoff batch) (.purgeStatement cutoff batch)
  /-- A purge has happened already, and its reply is known. -/
  | deleting (cutoff : Timestamp) (batch : Nat) (remaining : List RowKey) (count : Nat)
      (ha : Answered b h i (.purgeCompletedBefore cutoff batch)
        (.purged (count + remaining.length))) :
      Track (.purgeCompletedBefore cutoff batch) (.purgeDelete cutoff remaining count)
  | retry (call : Call) (reply : Reply) (hq : Silent b h i) (hd : Disappeared reply) :
      Track call (.returned reply)
  | answered (call : Call) (reply : Reply) (ha : Answered b h i call reply) :
      Track call (.returned reply)

end

section
variable {b : Backend} {h : History} {i : Nat} {t : Event} {call : Call} {progress : Progress}

theorem ReadBy.snoc {now : Timestamp} (hr : ReadBy h i now) : ReadBy (h ++ [t]) i now := by
  obtain ⟨u, hu, hread⟩ := hr
  exact ⟨u, List.mem_append_left _ hu, hread⟩

theorem Saw.snoc {id : OperationId} {row : Row} (hs : Saw b h i id row) :
    Saw b (h ++ [t]) i id row := by
  obtain ⟨h₁, u, h₂, rfl, hu⟩ := hs
  exact ⟨h₁, u, h₂ ++ [t], by simp, hu⟩

theorem Answered.snoc {reply : Reply} (ha : Answered b h i call reply)
    (ht : StepOf i t → t.post.contents b = t.pre.contents b) :
    Answered b (h ++ [t]) i call reply := by
  obtain ⟨hnot, now, hnow, heff⟩ := ha
  exact ⟨hnot, now, hnow.snoc, TakesEffect.snoc heff ht⟩

theorem Track.foreign (htrack : Track b h i call progress) (hnot : ¬ StepOf i t) :
    Track b (h ++ [t]) i call progress := by
  have hq' : Silent b h i → Silent b (h ++ [t]) i := by
    intro hq
    exact Quiet.snoc hq (fun hown => absurd hown hnot)
  have ha' : ∀ {reply}, Answered b h i call reply → Answered b (h ++ [t]) i call reply := by
    intro reply ha
    exact ha.snoc (fun hown => absurd hown hnot)
  cases htrack with
  | inserting req hq => exact .inserting req (hq' hq)
  | selecting req hq => exact .selecting req (hq' hq)
  | reading req existing hq hsaw hread hfp hstate =>
    exact .reading req existing (hq' hq) hsaw.snoc hread hfp hstate
  | taking req existing token next now hq hnow htoken hnext =>
    exact .taking req existing token next now (hq' hq) hnow.snoc htoken hnext
  | rereading req now hq hnow => exact .rereading req now (hq' hq) hnow.snoc
  | fencing call fence hcall hq => exact .fencing call fence hcall (hq' hq)
  | mutating call fence now hcall hq hnow => exact .mutating call fence now hcall (hq' hq) hnow.snoc
  | choosing cutoff batch hq => exact .choosing cutoff batch (hq' hq)
  | deleting cutoff batch remaining count ha =>
    exact .deleting cutoff batch remaining count (ha' ha)
  | retry call reply hq hd => exact .retry call reply (hq' hq) hd
  | answered call reply ha => exact .answered call reply (ha' ha)

/-- What is known of a call that has just been made. -/
theorem track_begin (hq : Silent b h i) (call : Call) : Track b h i call (begin call) := by
  cases call with
  | reserve req => exact .inserting req hq
  | renew fence | complete fence | abandon fence => exact .fencing _ fence rfl hq
  | purgeCompletedBefore cutoff batch => exact .choosing cutoff batch hq

end

/-! ## One step keeps the table well formed -/

section
variable {b : Backend} {table table' : Table} {now : Timestamp} {scan : ScanOrder}
  {progress progress' : Progress} {h : History} {i : Nat} {call : Call} {s : State}

theorem Readable.insert (hr : Readable b table) (id : OperationId) {row : Row}
    (hrec : ∃ record, row.record b = some record) :
    Readable b (table.insert (b.rowKey id) row) := by
  constructor
  · intro key row' hrow
    obtain ⟨rfl, -⟩ | ⟨-, hold⟩ := lookup_insert_cases hrow
    · exact ⟨id, rfl⟩
    · exact hr.named key row' hold
  · intro key row' hrow
    obtain ⟨-, rfl⟩ | ⟨-, hold⟩ := lookup_insert_cases hrow
    · exact hrec
    · exact hr.record key row' hold

theorem Readable.of_subset (hr : Readable b table)
    (hsub : ∀ key row, table'.lookup key = some row → table.lookup key = some row) :
    Readable b table' where
  named := fun key row hrow => hr.named key row (hsub key row hrow)
  record := fun key row hrow => hr.record key row (hsub key row hrow)

theorem Readable.erase (hr : Readable b table) (key : RowKey) : Readable b (table.erase key) := by
  refine hr.of_subset ?_
  intro key' row hrow
  exact (lookup_erase_some hrow).2

theorem Readable.eraseAll (hr : Readable b table) (keys : List RowKey) :
    Readable b (eraseAll table keys) := by
  refine hr.of_subset ?_
  intro key row hrow
  rw [lookup_eraseAll] at hrow
  split at hrow
  · cases hrow
  · exact hrow

theorem Moves.readable (hmove : Moves b table now scan progress table' progress')
    (hr : Readable b table) (htrack : Track b h i call progress) : Readable b table' := by
  cases hmove with
  | fresh req => exact hr.insert _ ⟨_, record_insertedRow b req⟩
  | takenOver req _ next _ _ row _ htake =>
    cases htrack with
    | taking _ _ _ _ _ _ _ _ hnext =>
      have hpos : 0 < next.value := by
        rw [FencingToken.next_value hnext]
        exact Nat.succ_pos _
      exact hr.insert _ ⟨_, record_takenBy b row req (takeable_state htake).1 hpos⟩
  | mutated _ fence _ at' row hrow hheld =>
    cases htrack with
    | mutating =>
      obtain ⟨record, hrec⟩ := hr.record _ row hrow
      rw [heldBy_eq fence at' hrec] at hheld
      cases hset : row.set b call at' with
      | none => exact hr.erase _
      | some row' =>
        -- what is left of the row can be read
        have hleft : (row.set b call at').bind (Row.record b) = _ := record_set hrec hheld
        rw [hset, Option.bind_some] at hleft
        refine hr.insert _ ?_
        rw [hleft]
        cases call <;> simp_all [Row.set, afterMutation]
  | purged => exact hr.eraseAll _
  | deleted _ key => exact hr.erase key
  | _ => exact hr

/-- The calls around call `i`. -/
theorem split_calls {calls : List CallState} {c : CallState} (hcall : calls[i]? = some c) :
    ∃ l₁ l₂, calls = l₁ ++ c :: l₂ ∧ ∀ c', calls.set i c' = l₁ ++ c' :: l₂ := by
  obtain ⟨hlt, hget⟩ := List.getElem?_eq_some_iff.mp hcall
  refine ⟨calls.take i, calls.drop (i + 1), ?_, ?_⟩
  · rw [← hget, List.getElem_cons_drop, List.take_append_drop]
  · intro c'
    rw [List.set_eq_take_append_cons_drop, if_pos hlt]

/-- Pending rows of one call first, those of the others behind. -/
theorem pendingKeys_perm (l₁ l₂ : List CallState) (c : CallState) :
    (pendingKeys (l₁ ++ c :: l₂)).Perm
      (c.progress.pending ++ (pendingKeys l₁ ++ pendingKeys l₂)) := by
  rw [pendingKeys_append, pendingKeys_cons]
  exact List.perm_append_comm_assoc _ _ _

section
variable (hmove : Moves b table now scan progress table' progress')
include hmove

theorem stillEligible_step {p : Progress} (hp : p.StillEligible table)
    (hfree : ∀ key ∈ p.pending, key ∉ progress.targets table scan) : p.StillEligible table' := by
  cases p with
  | purgeDelete =>
    intro key hkey
    exact hmove.keeps_eligible (hp key hkey) (hfree key hkey)
  | _ => trivial

/-- The rows a call holds after a step, with those the others hold. -/
theorem Moves.pending_nodup {others : List RowKey} (hnodup : (progress.pending ++ others).Nodup)
    (hfree : ∀ key ∈ others, key ∉ progress.targets table scan) :
    (progress'.pending ++ others).Nodup := by
  have hothers : others.Nodup := hnodup.sublist (List.sublist_append_right _ _)
  cases hmove with
  | selected cutoff batch =>
    rw [pending_nextDelete, List.nodup_append]
    refine ⟨purgeSelection_nodup table scan cutoff batch, hothers, ?_⟩
    intro key hkey key' hkey' heq
    subst heq
    exact hfree key hkey' hkey
  | deleted | gone =>
    rw [pending_nextDelete]
    exact hnodup.sublist (List.sublist_cons_self _ _)
  | _ => exact hothers

theorem Moves.stillEligible (hstill : progress.StillEligible table)
    (hnodup : progress.pending.Nodup) : progress'.StillEligible table' := by
  have hmove' := hmove
  cases hmove with
  | selected =>
    exact stillEligible_nextDelete (fun key hkey => mem_purgeSelection hkey)
  | deleted _ key =>
    refine stillEligible_nextDelete ?_
    intro k hk
    have hne : k ∉ [key] := by
      intro hmem
      rw [List.mem_singleton] at hmem
      subst hmem
      exact (List.nodup_cons.mp hnodup).1 hk
    exact hmove'.keeps_eligible (hstill k (List.mem_cons_of_mem _ hk)) hne
  | gone =>
    exact stillEligible_nextDelete (fun k hk => hstill k (List.mem_cons_of_mem _ hk))
  | _ => trivial

end

/-- No step deletes a row that another purge has chosen. -/
theorem targets_free {others : List RowKey} {c : CallState}
    (hcall : s.calls[i]? = some c) (hcond : Undisturbed b s (.advance i now scan))
    (hsub : ∀ key ∈ others, key ∈ pendingKeys s.calls)
    (hnodup : (c.progress.pending ++ others).Nodup) :
    ∀ key ∈ others, key ∉ c.progress.targets s.table scan := by
  intro key hkey htarget
  have hcond := hcond c hcall
  cases hp : c.progress with
  | purgeStatement =>
    rw [hp] at hcond htarget
    exact hcond key htarget (hsub key hkey)
  | purgeDelete _ remaining =>
    rw [hp] at htarget hnodup
    cases remaining with
    | nil => simp [Progress.targets] at htarget
    | cons k =>
      have hk : key = k := by simpa [Progress.targets] using htarget
      subst hk
      exact (List.nodup_cons.mp hnodup).1 (List.mem_append_right _ hkey)
  | _ => simp [hp, Progress.targets] at htarget

theorem WellFormed.moves (hwf : WellFormed b s) (hcall : s.calls[i]? = some ⟨call, progress⟩)
    (hmove : Moves b s.table now scan progress table' progress')
    (hcond : Undisturbed b s (.advance i now scan)) (htrack : Track b h i call progress) :
    WellFormed b ⟨table', s.calls.set i ⟨call, progress'⟩⟩ := by
  obtain ⟨l₁, l₂, hcalls, hset⟩ := split_calls hcall
  have hnodup : (progress.pending ++ (pendingKeys l₁ ++ pendingKeys l₂)).Nodup := by
    have hd := hwf.distinct
    rw [hcalls] at hd
    exact (pendingKeys_perm l₁ l₂ _).nodup_iff.mp hd
  have hsub : ∀ key ∈ pendingKeys l₁ ++ pendingKeys l₂, key ∈ pendingKeys s.calls := by
    intro key hkey
    rw [hcalls]
    exact (pendingKeys_perm l₁ l₂ _).mem_iff.mpr (List.mem_append_right _ hkey)
  -- what this step deletes, no other purge has chosen
  have hfree := targets_free hcall hcond hsub hnodup
  constructor
  · exact hmove.readable hwf.readable htrack
  · show (pendingKeys (s.calls.set i ⟨call, progress'⟩)).Nodup
    rw [hset]
    exact (pendingKeys_perm l₁ l₂ _).nodup_iff.mpr (hmove.pending_nodup hnodup hfree)
  · intro c hc
    have hc' : c ∈ l₁ ++ ⟨call, progress'⟩ :: l₂ := by
      rw [← hset]
      exact hc
    -- the calls around call `i` are where they were
    have hother : c ∈ l₁ ∨ c ∈ l₂ → c.progress.StillEligible table' := by
      intro hmem
      refine stillEligible_step hmove (hwf.purging c ?_) ?_
      · rw [hcalls]
        rcases hmem with hmem | hmem <;> simp [hmem]
      · intro key hkey
        refine hfree key (List.mem_append.mpr ?_)
        rcases hmem with hmem | hmem
        · exact .inl (List.mem_flatMap.mpr ⟨c, hmem, hkey⟩)
        · exact .inr (List.mem_flatMap.mpr ⟨c, hmem, hkey⟩)
    rcases List.mem_append.mp hc' with hmem | hmem
    · exact hother (.inl hmem)
    · rcases List.mem_cons.mp hmem with rfl | hmem
      · refine hmove.stillEligible (hwf.purging ⟨call, progress⟩ (by rw [hcalls]; simp)) ?_
        exact hnodup.sublist (List.sublist_append_left _ _)
      · exact hother (.inr hmem)

end

end EgoRs.Durable
