import EgoRs.Operation.DurableStore

/-! # What One Statement Can Do

`Moves` lists the ways a call of a durable store can go on, with what the
statement found and did. What is proved about runs is proved from it and
not from the functions.
-/

set_option linter.unusedSectionVars false

namespace EgoRs.Durable

open Framework

/-- The outcome of `token_from_storage`, by the sign of the column. -/
theorem tokenFromStorage_cases (b : Backend) (raw : Int) :
    (raw ≤ 0 ∧ ∃ e, b.tokenFromStorage raw = .error e) ∨
    (2 ^ 64 ≤ raw ∧ ∃ e, b.tokenFromStorage raw = .error e) ∨
    (0 < raw ∧ ∃ token : FencingToken, raw = token.value ∧ b.tokenFromStorage raw = .ok token) := by
  unfold Backend.tokenFromStorage
  by_cases hpos : raw ≤ 0
  · left
    exact ⟨hpos, _, by rw [if_pos hpos]⟩
  · right
    rw [if_neg hpos]
    by_cases hlt : raw.toNat < 2 ^ 64
    · right
      exact ⟨by omega, ⟨raw.toNat, hlt⟩, by simp; omega, by rw [dif_pos hlt]⟩
    · left
      exact ⟨by omega, _, by rw [dif_neg hlt]⟩

/-! ## Moves -/

variable [Base64]

section
variable (b : Backend) (table : Table) (now : Timestamp) (scan : ScanOrder)

/-- One constructor for each way through the code, from the call's progress to
the table and the progress after it. -/
inductive Moves : Progress → Table → Progress → Prop where
  /-- The insert found no row. -/
  | fresh (req : ReserveRequest)
      (habs : table.lookup (b.rowKey req.operationId) = none) : Moves (.reserveInsert req)
        (table.insert (b.rowKey req.operationId) (insertedRow req))
        (.returned (.outcome (.fresh ⟨req.operationId, req.ownerId, .initial, req.leaseUntil⟩)))
  | occupied (req : ReserveRequest) : Moves (.reserveInsert req) table (.reserveSelect req)
  /-- The row was gone at the first read. -/
  | vanished (req : ReserveRequest) :
      Moves (.reserveSelect req) table (.returned (.failed disappearedBeforeRead))
  | conflict (req : ReserveRequest) (row : Row)
      (hrow : table.lookup (b.rowKey req.operationId) = some row)
      (hfp : row.fingerprint ≠ req.fingerprint.value) :
      Moves (.reserveSelect req) table (.returned (.outcome .conflict))
  | succeeded (req : ReserveRequest) (row : Row)
      (hrow : table.lookup (b.rowKey req.operationId) = some row)
      (hfp : row.fingerprint = req.fingerprint.value) (hstate : row.state = .completed) :
      Moves (.reserveSelect req) table (.returned (completedReply b row))
  | observed (req : ReserveRequest) (row : Row)
      (hrow : table.lookup (b.rowKey req.operationId) = some row)
      (hfp : row.fingerprint = req.fingerprint.value) (hstate : row.state = .inProgress) :
      Moves (.reserveSelect req) table (.reserveClock req row)
  | live (req : ReserveRequest) (existing : Row) (hlive : now < existing.leaseUntil) :
      Moves (.reserveClock req existing) table (.returned (inProgressReply b req existing))
  | expired (req : ReserveRequest) (existing : Row) (token next : FencingToken)
      (hexp : existing.leaseUntil ≤ now) (htoken : existing.fencingToken = token.value)
      (hnext : token.next = some next) : Moves (.reserveClock req existing) table
        (.reserveTakeover req existing next next.value now)
  /-- The expired row's token has no successor a column can hold. -/
  | unstorable (req : ReserveRequest) (existing : Row) (e : ReservationError)
      (hexp : existing.leaseUntil ≤ now)
      (hbad : existing.fencingToken ≤ 0 ∨ 2 ^ 63 ≤ existing.fencingToken + 1) :
      Moves (.reserveClock req existing) table (.returned (.failed e))
  | takenOver (req : ReserveRequest) (existing : Row) (next : FencingToken) (nextRaw : Int)
      (at' : Timestamp) (row : Row)
      (hrow : table.lookup (b.rowKey req.operationId) = some row)
      (htake : row.takeable existing.fencingToken at' = true) :
      Moves (.reserveTakeover req existing next nextRaw at')
        (table.insert (b.rowKey req.operationId) (row.takenBy req nextRaw))
        (.returned (.outcome (.takenOver ⟨req.operationId, req.ownerId, next, req.leaseUntil⟩)))
  /-- The takeover's update matched no row. -/
  | missed (req : ReserveRequest) (existing : Row) (next : FencingToken) (nextRaw : Int)
      (at' : Timestamp) : Moves (.reserveTakeover req existing next nextRaw at') table
        (.reserveReread req at')
  /-- The row was gone at the second read. -/
  | lost (req : ReserveRequest) (at' : Timestamp) : Moves (.reserveReread req at') table
        (.returned (.failed disappearedDuringTakeover))
  | reread (req : ReserveRequest) (at' : Timestamp) (row : Row)
      (hrow : table.lookup (b.rowKey req.operationId) = some row) :
      Moves (.reserveReread req at') table (.returned (inProgressReply b req row))
  | readClock (call : Call) (fence : OwnerFence) : Moves (.mutateClock call fence) table
        (.mutateStatement call fence fence.fencingToken.value now)
  | unstorableFence (call : Call) (fence : OwnerFence) (e : ReservationError)
      (hbad : 2 ^ 63 ≤ fence.fencingToken.value) :
      Moves (.mutateClock call fence) table (.returned (.failed e))
  | mutated (call : Call) (fence : OwnerFence) (token : Int) (at' : Timestamp) (row : Row)
      (hrow : table.lookup (b.rowKey fence.operationId) = some row)
      (hheld : row.heldBy fence token at' = true) : Moves (.mutateStatement call fence token at')
        (mutated table (b.rowKey fence.operationId) (row.set b call at')) (.returned .done)
  | stale (call : Call) (fence : OwnerFence) (token : Int) (at' : Timestamp)
      (hnot : ∀ row, table.lookup (b.rowKey fence.operationId) = some row →
        row.heldBy fence token at' = false) : Moves (.mutateStatement call fence token at') table
        (.returned (.failed .staleOwner))
  /-- A purge in one statement. -/
  | purged (cutoff : Timestamp) (batch : Nat) : Moves (.purgeStatement cutoff batch)
        (eraseAll table (purgeSelection table scan cutoff batch))
        (.returned (.purged (purgeSelection table scan cutoff batch).length))
  /-- A purge that chooses its candidates first. -/
  | selected (cutoff : Timestamp) (batch : Nat) : Moves (.purgeStatement cutoff batch) table
        (nextDelete cutoff (purgeSelection table scan cutoff batch) 0)
  | deleted (cutoff : Timestamp) (key : RowKey) (rest : List RowKey) (count : Nat)
      (helig : eligible table cutoff key = true) :
      Moves (.purgeDelete cutoff (key :: rest) count) (table.erase key)
        (nextDelete cutoff rest (count + 1))
  | gone (cutoff : Timestamp) (key : RowKey) (rest : List RowKey) (count : Nat)
      (hnot : eligible table cutoff key = false) :
      Moves (.purgeDelete cutoff (key :: rest) count) table (nextDelete cutoff rest count)
  | finished (cutoff : Timestamp) (count : Nat) :
      Moves (.purgeDelete cutoff [] count) table (.returned (.purged count))

end

section
variable (b : Backend) (table : Table) (now : Timestamp) (scan : ScanOrder)

/-- `advance` goes on from `progress` by one of the `Moves`. -/
abbrev Advances (progress : Progress) : Prop :=
  Moves b table now scan progress (advance b table now scan progress).1
    (advance b table now scan progress).2

theorem moves_insert (req : ReserveRequest) : Advances b table now scan (.reserveInsert req) := by
  simp only [Advances, advance, insertReservation]
  cases hrow : table.lookup (b.rowKey req.operationId) with
  | none => exact .fresh req hrow
  | some => exact .occupied req

theorem moves_select (req : ReserveRequest) : Moves b table now scan (.reserveSelect req) table
      (afterSelect b req (table.lookup (b.rowKey req.operationId))) := by
  unfold afterSelect
  cases hrow : table.lookup (b.rowKey req.operationId) with
  | none => exact .vanished req
  | some row =>
    show Moves b table now scan (.reserveSelect req) table
      (if row.fingerprint ≠ req.fingerprint.value then _ else _)
    by_cases hfp : row.fingerprint = req.fingerprint.value
    · rw [if_neg (not_not_intro hfp)]
      cases hstate : row.state with
      | completed => exact .succeeded req row hrow hfp hstate
      | inProgress => exact .observed req row hrow hfp hstate
    · rw [if_pos hfp]
      exact .conflict req row hrow hfp

theorem moves_clock (req : ReserveRequest) (existing : Row) :
    Moves b table now scan (.reserveClock req existing) table (afterClock b req existing now) := by
  unfold afterClock
  by_cases hexp : existing.leaseUntil ≤ now
  · rw [if_pos hexp]
    rcases tokenFromStorage_cases b existing.fencingToken with
      ⟨hneg, e, heq⟩ | ⟨hbig, e, heq⟩ | ⟨hpos, token, htoken, heq⟩
    · rw [heq]
      exact .unstorable req existing e hexp (.inl hneg)
    · rw [heq]
      exact .unstorable req existing e hexp (.inr (by omega))
    · -- a positive token: is there a next one, and does the column hold it?
      rw [heq]
      cases hnext : token.next with
      | none =>
        simp only [hnext]
        have hend : ¬ token.value + 1 < 2 ^ 64 := by
          intro hlt
          rw [FencingToken.next, dif_pos hlt] at hnext
          cases hnext
        exact .unstorable req existing .fencingExhausted hexp (.inr (by omega))
      | some next =>
        have hval := FencingToken.next_value hnext
        simp only [hnext, tokenForStorage]
        by_cases hlt : next.value < 2 ^ 63
        · rw [if_pos hlt]
          exact .expired req existing token next hexp htoken hnext
        · rw [if_neg hlt]
          exact .unstorable req existing .fencingExhausted hexp (.inr (by omega))
  · rw [if_neg hexp]
    exact .live req existing (Int.not_le.mp hexp)

theorem moves_takeover (req : ReserveRequest) (existing : Row) (next : FencingToken)
    (nextRaw : Int) (at' : Timestamp) :
    Advances b table now scan (.reserveTakeover req existing next nextRaw at') := by
  simp only [Advances, advance, takeOver]
  cases hrow : table.lookup (b.rowKey req.operationId) with
  | none => exact .missed req existing next nextRaw at'
  | some row =>
    cases htake : row.takeable existing.fencingToken at' with
    | true =>
      simp only [htake, if_true]
      exact .takenOver req existing next nextRaw at' row hrow htake
    | false =>
      simp only [htake, Bool.false_eq_true, if_false]
      exact .missed req existing next nextRaw at'

theorem moves_mutateClock (call : Call) (fence : OwnerFence) :
    Advances b table now scan (.mutateClock call fence) := by
  simp only [Advances, advance, tokenForStorage]
  by_cases hlt : fence.fencingToken.value < 2 ^ 63
  · rw [if_pos hlt]
    exact .readClock call fence
  · rw [if_neg hlt]
    exact .unstorableFence call fence _ (Nat.not_lt.mp hlt)

theorem moves_mutate (call : Call) (fence : OwnerFence) (token : Int) (at' : Timestamp) :
    Advances b table now scan (.mutateStatement call fence token at') := by
  simp only [Advances, advance, mutateOwned]
  cases hrow : table.lookup (b.rowKey fence.operationId) with
  | none =>
    refine .stale call fence token at' ?_
    intro row hrow'
    rw [hrow] at hrow'
    cases hrow'
  | some row =>
    cases hheld : row.heldBy fence token at' with
    | true =>
      simp only [hheld, if_true]
      exact .mutated call fence token at' row hrow hheld
    | false =>
      simp only [hheld, Bool.false_eq_true, if_false]
      refine .stale call fence token at' ?_
      intro row' hrow'
      rw [hrow, Option.some.injEq] at hrow'
      rw [← hrow']
      exact hheld

theorem moves_purge (cutoff : Timestamp) (batch : Nat) :
    Advances b table now scan (.purgeStatement cutoff batch) := by
  cases b with
  | stoolap => exact .selected cutoff batch
  | postgres => exact .purged cutoff batch

theorem moves_delete (cutoff : Timestamp) (remaining : List RowKey) (count : Nat) :
    Advances b table now scan (.purgeDelete cutoff remaining count) := by
  cases remaining with
  | nil => exact .finished cutoff count
  | cons key rest =>
    simp only [Advances, advance, deleteCandidate]
    cases helig : eligible table cutoff key with
    | true =>
      simp only [if_true]
      exact .deleted cutoff key rest count helig
    | false =>
      simp only [Bool.false_eq_true, if_false]
      exact .gone cutoff key rest count helig

/-- Every step of a call that has not returned is one of the `Moves`. -/
theorem moves_advance (progress : Progress) (hrun : ∀ reply, progress ≠ .returned reply) :
    Advances b table now scan progress := by
  cases progress with
  | reserveInsert req => exact moves_insert b table now scan req
  | reserveSelect req => exact moves_select b table now scan req
  | reserveClock req existing => exact moves_clock b table now scan req existing
  | reserveTakeover req existing next nextRaw at' =>
    exact moves_takeover b table now scan req existing next nextRaw at'
  | reserveReread req at' =>
    show Moves b table now scan _ table (afterReread b req _)
    unfold afterReread
    cases hrow : table.lookup (b.rowKey req.operationId) with
    | none => exact .lost req at'
    | some row => exact .reread req at' row hrow
  | mutateClock call fence => exact moves_mutateClock b table now scan call fence
  | mutateStatement call fence token at' => exact moves_mutate b table now scan call fence token at'
  | purgeStatement cutoff batch => exact moves_purge b table now scan cutoff batch
  | purgeDelete cutoff remaining count => exact moves_delete b table now scan cutoff remaining count
  | returned reply => exact absurd rfl (hrun reply)

end

/-! ## Steps of the machine -/

/-- `t` is a step of call `i`: a statement of it, or a clock reading. -/
def StepOf (i : Nat) (t : Event) : Prop :=
  (∃ now scan, t.input = .advance i now scan) ∧ t.output ≠ .idle

variable {i : Nat} {t : Event} {b : Backend}

theorem StepOf.unique {j : Nat} (hi : StepOf i t) (hj : StepOf j t) : i = j := by
  obtain ⟨⟨now, scan, hi⟩, _⟩ := hi
  obtain ⟨⟨now', scan', hj⟩, _⟩ := hj
  rw [hi, Input.advance.injEq] at hj
  exact hj.1

theorem outputOf_ne_idle (i : Nat) (progress : Progress) : outputOf i progress ≠ .idle := by
  cases progress <;> simp [outputOf]

/-- What one transition of the machine is. -/
inductive Fires (b : Backend) (s : State) : Input → Output → State → Prop where
  | invoke (call : Call) :
      Fires b s (.invoke call) (.invoked s.calls.length)
        { s with calls := s.calls ++ [⟨call, begin call⟩] }
  /-- Nobody's step. -/
  | idle (i : Nat) (now : Timestamp) (scan : ScanOrder)
      (hidle : ∀ call progress, s.calls[i]? = some ⟨call, progress⟩ →
        ∃ reply, progress = .returned reply) :
      Fires b s (.advance i now scan) .idle s
  | moves (i : Nat) (now : Timestamp) (scan : ScanOrder) (call : Call)
      (progress progress' : Progress) (table' : Table)
      (hcall : s.calls[i]? = some ⟨call, progress⟩)
      (hrun : ∀ reply, progress ≠ .returned reply)
      (hmove : Moves b s.table now scan progress table' progress') :
      Fires b s (.advance i now scan) (outputOf i progress')
        ⟨table', s.calls.set i ⟨call, progress'⟩⟩

theorem fires_step (b : Backend) (s : State) (input : Input) :
    Fires b s input ((store b).step s input).2 ((store b).step s input).1 := by
  cases input with
  | invoke call => exact .invoke call
  | advance i now scan =>
    show Fires b s (.advance i now scan) (s.step b (.advance i now scan)).2
      (s.step b (.advance i now scan)).1
    cases hcall : s.calls[i]? with
    | none =>
      simp only [State.step, hcall]
      refine .idle i now scan ?_
      intro call progress hsome
      rw [hcall] at hsome
      cases hsome
    | some c =>
      obtain ⟨call, progress⟩ := c
      by_cases hret : ∃ reply, progress = .returned reply
      · obtain ⟨reply, rfl⟩ := hret
        simp only [State.step, hcall]
        refine .idle i now scan ?_
        intro call' progress' hsome
        rw [hcall, Option.some.injEq, CallState.mk.injEq] at hsome
        exact ⟨reply, hsome.2.symm⟩
      · have hrun : ∀ reply, progress ≠ .returned reply := by
          intro reply heq
          exact hret ⟨reply, heq⟩
        have hstep : s.step b (.advance i now scan) =
            (⟨(advance b s.table now scan progress).1,
              s.calls.set i ⟨call, (advance b s.table now scan progress).2⟩⟩,
              outputOf i (advance b s.table now scan progress).2) := by
          cases progress with
          | returned reply => exact absurd rfl (hrun reply)
          | _ => simp only [State.step, hcall]
        rw [hstep]
        exact .moves i now scan call progress _ _ hcall hrun
          (moves_advance b s.table now scan progress hrun)

/-- The `Fires` of a transition in a history of the store. -/
theorem fires_of_fire (h : t = (store b).fire t.pre t.input) :
    Fires b t.pre t.input t.output t.post := by
  rw [h]
  exact fires_step b t.pre t.input

/-- Calls are never forgotten. -/
theorem Fires.calls_length_le {s s' : State} {input : Input} {o : Output} (h : Fires b s input o s')
    : s.calls.length ≤ s'.calls.length := by
  cases h with
  | invoke | moves => simp
  | idle => exact Nat.le_refl _

/-- A step is a step of a call that has been made and has not returned. -/
theorem StepOf.running (hown : StepOf i t) (ht : t = (store b).fire t.pre t.input) :
    ∃ call progress, t.pre.calls[i]? = some ⟨call, progress⟩ ∧
      ∀ reply, progress ≠ .returned reply := by
  obtain ⟨⟨now, scan, hinput⟩, hout⟩ := hown
  have hfires := fires_of_fire ht
  rw [hinput] at hfires
  generalize t.output = o at hfires hout
  generalize t.post = s' at hfires
  cases hfires with
  | idle => exact absurd rfl hout
  | moves _ _ _ call progress _ _ hcall hrun =>
    exact ⟨call, progress, hcall, hrun⟩

theorem StepOf.made (hown : StepOf i t) (ht : t = (store b).fire t.pre t.input) :
    i < t.pre.calls.length := by
  obtain ⟨call, progress, hcall, _⟩ := hown.running ht
  exact (List.getElem?_eq_some_iff.mp hcall).1

end EgoRs.Durable
