import EgoRs.Framework.Transactions
import EgoRs.Operation.DurableContents
import EgoRs.ReadSide.Claim

/-! # Runs of a Claim Store

What the statements of either store do to the table comes to two things.
A claim is granted, where there is none or where the lease has lapsed, under
the next token; or the lease of a claim is set anew, under its own fence.
`ClaimSteps` says so, and it is all the fencing properties are proved from:
nothing in them depends on how many statements a store needs.
-/

namespace EgoRs.ReadSide

open Framework Durable

/-! ## What calls have read -/

/-- What a call has read is no later than the clock, and what it will write follows
from it. -/
def ClaimProgress.Timely (clock : Timestamp) : ClaimProgress → Prop
  | .takeOver _ displaced next nextRaw now =>
    now ≤ clock ∧ nextRaw = displaced + 1 ∧ (next.value : Int) = nextRaw ∧ next.value < 2 ^ 63
  | .upsert _ now => now ≤ clock
  | .mutateClock _ isRelease leaseUntil =>
    isRelease = true → ∀ lease, leaseUntil = some lease → lease ≤ clock
  | .mutate fence isRelease token leaseUntil now =>
    token = fence.fencingToken.value ∧ now ≤ clock ∧ (isRelease = true → leaseUntil ≤ now)
  | _ => True

variable {progress : ClaimProgress}

theorem ClaimProgress.Timely.mono {clock clock' : Timestamp}
    (h : progress.Timely clock) (hle : clock ≤ clock') : progress.Timely clock' := by
  cases progress with
  | takeOver => exact ⟨Int.le_trans h.1 hle, h.2⟩
  | upsert => exact Int.le_trans h hle
  | mutateClock =>
    intro hrelease lease hlease
    exact Int.le_trans (h hrelease lease hlease) hle
  | mutate => exact ⟨h.1, Int.le_trans h.2.1 hle, h.2.2⟩
  | _ => trivial

/-- Tokens are positive and fit the column. -/
def ClaimRow.WellFormed (row : ClaimRow) : Prop := 0 < row.fencingToken ∧ row.fencingToken < 2 ^ 63

/-- **What holds in every state of every run.** -/
structure ClaimInv (s : ClaimState) : Prop where
  calls : ∀ (k : Nat) (progress : ClaimProgress), s.calls[k]? = some progress →
    progress.Timely s.clock
  rows : ∀ id row, s.table.lookup id = some row → row.WellFormed

/-! ## Steps -/

/-- The state after call `k` has gone on. -/
def ClaimState.progressed (s : ClaimState) (k : Nat)
    (o : ClaimTable × ClaimProgress) : ClaimState :=
  { s with table := o.1, calls := s.calls.set k o.2 }

/-- Which call an input is about. -/
inductive CallStep (b : Backend) (s : ClaimState) :
    ClaimInput → ClaimState × ClaimOutput → Prop where
  | idle (input : ClaimInput) : CallStep b s input (s, .idle)
  | tick (time : Nat) : CallStep b s (.tick time) ({ s with clock := s.clock + time }, .idle)
  | invoke (call : ClaimCall) :
      CallStep b s (.invoke call)
        ({ s with calls := s.calls ++ [call.begin b] }, .invoked s.calls.length)
  | advance (k : Nat) (progress : ClaimProgress) (at' : s.calls[k]? = some progress)
      (pending : progress.pending = true) :
      CallStep b s (.advance k) (s.progressed k (advance b s.table s.clock progress),
        claimOutput k (advance b s.table s.clock progress).2)
  | fail (k : Nat) (e : ClaimError) (progress : ClaimProgress) (at' : s.calls[k]? = some progress)
      (pending : progress.pending = true) :
      CallStep b s (.fail k e) (s.progressed k (s.table, .returned (.failed e)),
        .returned k (.failed e))
  | lose (k : Nat) (e : ClaimError) (progress : ClaimProgress) (at' : s.calls[k]? = some progress)
      (pending : progress.pending = true) :
      CallStep b s (.lose k e)
        (s.progressed k ((advance b s.table s.clock progress).1, .returned (.failed e)),
          lostOutput k e (advance b s.table s.clock progress).2)

theorem callStep_step (b : Backend) (s : ClaimState) (input : ClaimInput) :
    CallStep b s input (s.step b input) := by
  cases input with
  | tick time => exact .tick time
  | invoke call => exact .invoke call
  | advance k | fail k | lose k =>
    simp only [ClaimState.step]
    cases hat : s.calls[k]? with
    | none => exact .idle _
    | some progress =>
      cases hpending : progress.pending with
      | false =>
        simp only [hpending, Bool.false_eq_true, if_false]
        exact .idle _
      | true =>
        simp only [hpending, if_true]
        first
        | exact .advance k progress hat hpending
        | exact .fail k _ progress hat hpending
        | exact .lose k _ progress hat hpending

/-- The reply is the one to a call that has written. -/
def ClaimReply.writes : ClaimReply → Bool
  | .claimed (some _) => true
  | .done => true
  | _ => false

/-- What the store answered, whether or not the caller was told. -/
def ClaimOutput.reply : ClaimOutput → Option ClaimReply
  | .returned _ reply => some reply
  | .lost _ reply => some reply
  | _ => none

def ClaimOutput.writes (output : ClaimOutput) : Bool := output.reply.any ClaimReply.writes

/-- Call `k` is answered, and the caller is told or not. -/
inductive Answered (k : Nat) (reply : ClaimReply) : ClaimInput → ClaimOutput → Prop where
  | returned : Answered k reply (.advance k) (.returned k reply)
  | lost (e : ClaimError) : Answered k reply (.lose k e) (.lost k reply)

/-- The claim is free, and `token` is its next one. -/
def Grantable (clock : Timestamp) (before : Option ClaimRow) (token : FencingToken) : Prop :=
  before = none ∧ token = .initial ∨
    ∃ row, before = some row ∧ row.leaseUntil ≤ clock ∧
      (token.value : Int) = row.fencingToken + 1

/-- The request of a call that takes a claim with its next step. -/
def ClaimProgress.taking : ClaimProgress → Option TryClaim
  | .insert req => some req
  | .takeOver req _ _ _ _ => some req
  | .upsert req _ => some req
  | _ => none

/-- What an input can do. -/
inductive ClaimSteps (s : ClaimState) : ClaimInput → ClaimState → ClaimOutput → Prop where
  | quiet {input : ClaimInput} {s' : ClaimState} {output : ClaimOutput}
      (clock : s.clock ≤ s'.clock) (table : s'.table = s.table) (silent : output.writes = false) :
      ClaimSteps s input s' output
  | granted {input : ClaimInput} {s' : ClaimState} {output : ClaimOutput} (k : Nat)
      (progress : ClaimProgress) (req : TryClaim) (token : FencingToken)
      (answered : Answered k (.claimed (some ⟨req.claimId, req.ownerId, token⟩)) input output)
      (at' : s.calls[k]? = some progress)
      (taking : progress.taking = some req)
      (free : Grantable s.clock (s.table.lookup req.claimId) token) (inRange : token.value < 2 ^ 63)
      (clock : s'.clock = s.clock)
      (table : s'.table =
        s.table.insert req.claimId ⟨req.ownerId, token.value, req.leaseUntil⟩) :
      ClaimSteps s input s' output
  | extended {input : ClaimInput} {s' : ClaimState} {output : ClaimOutput} (k : Nat)
      (fence : ClaimFence) (isRelease : Bool) (leaseUntil now : Timestamp) (row : ClaimRow)
      (answered : Answered k .done input output) (at' : s.calls[k]? =
        some (.mutate fence isRelease fence.fencingToken.value leaseUntil now))
      (found : s.table.lookup fence.claimId = some row) (owner : row.ownerId = fence.ownerId)
      (token : row.fencingToken = fence.fencingToken.value) (live : now < row.leaseUntil)
      (clock : s'.clock = s.clock)
      (table : s'.table = s.table.insert fence.claimId { row with leaseUntil := leaseUntil }) :
      ClaimSteps s input s' output

section
variable {b : Backend} {s : ClaimState} {k : Nat}

/-- Nothing a call does before its last statement is seen in the table. -/
theorem claimSteps_quiet {input : ClaimInput} (h : (claimOutput k progress).writes = false) :
    ClaimSteps s input (s.progressed k (s.table, progress)) (claimOutput k progress) :=
  .quiet (Int.le_refl _) rfl h

theorem claimSteps_insert (req : TryClaim) (hat : s.calls[k]? = some (.insert req)) :
    ClaimSteps s (.advance k) (s.progressed k (advance b s.table s.clock (.insert req)))
      (claimOutput k (advance b s.table s.clock (.insert req)).2) := by
  simp only [advance, insertClaim]
  cases hrow : s.table.lookup req.claimId with
  | none =>
    rw [Table.insertNew_of_none hrow]
    exact .granted k _ req .initial .returned hat rfl (.inl ⟨hrow, rfl⟩) (by decide) rfl rfl
  | some =>
    rw [Table.insertNew_of_some hrow]
    exact claimSteps_quiet rfl

theorem claimSteps_takeOver (hinv : ClaimInv s) (req : TryClaim) (displaced : Int)
    (next : FencingToken) (nextRaw : Int) (now : Timestamp)
    (hat : s.calls[k]? = some (.takeOver req displaced next nextRaw now)) :
    ClaimSteps s (.advance k)
      (s.progressed k (advance b s.table s.clock (.takeOver req displaced next nextRaw now)))
      (claimOutput k (advance b s.table s.clock (.takeOver req displaced next nextRaw now)).2) := by
  obtain ⟨hnow, hraw, hnext, hrange⟩ := hinv.calls k _ hat
  simp only [advance, takeOver]
  by_cases hmatch : ∃ row, s.table.lookup req.claimId = some row ∧ row.fencingToken = displaced ∧
      row.leaseUntil ≤ now
  · obtain ⟨row, hrow, htoken, hlease⟩ := hmatch
    rw [Table.updateRow_of_match _ hrow (by simp [htoken, hlease])]
    refine .granted k _ req next .returned hat rfl
      (.inr ⟨row, hrow, Int.le_trans hlease hnow, ?_⟩) hrange rfl ?_
    · rw [hnext, hraw, htoken]
    · rw [hnext]
      rfl
  · rw [Table.updateRow_of_not_match]
    · exact claimSteps_quiet rfl
    · intro row hrow
      by_contra hp
      apply hmatch
      refine ⟨row, hrow, ?_⟩
      simpa using hp

/-- The next token, as the column gives it back. -/
theorem exists_next_token (b : Backend) {stored : Int} (hpos : 0 < stored)
    (hfits : stored + 1 < 2 ^ 63) : ∃ token : FencingToken,
      (token.value : Int) = stored + 1 ∧ b.tokenFromStorage (stored + 1) = .ok token := by
  obtain ⟨n, rfl⟩ := Int.eq_ofNat_of_zero_le (Int.le_of_lt hpos)
  let token : FencingToken := ⟨n + 1, by omega⟩
  exact ⟨token, rfl, tokenFromStorage_value b (show 0 < token.value from Nat.succ_pos n)⟩

theorem claimSteps_upsert (hinv : ClaimInv s) (req : TryClaim) (now : Timestamp)
    (hat : s.calls[k]? = some (.upsert req now)) :
    ClaimSteps s (.advance k) (s.progressed k (advance b s.table s.clock (.upsert req now)))
      (claimOutput k (advance b s.table s.clock (.upsert req now)).2) := by
  have hnow : now ≤ s.clock := hinv.calls k _ hat
  simp only [advance, upsertClaim]
  cases hrow : s.table.lookup req.claimId with
  | none =>
    have htoken : b.tokenFromStorage 1 = .ok .initial :=
      tokenFromStorage_value b (show 0 < FencingToken.initial.value by decide)
    simp only [afterUpsert, htoken]
    exact .granted k _ req .initial .returned hat rfl (.inl ⟨hrow, rfl⟩) (by decide) rfl rfl
  | some row =>
    by_cases hlease : row.leaseUntil ≤ now
    · by_cases hfits : row.fencingToken + 1 < 2 ^ 63
      · obtain ⟨hpos, -⟩ := hinv.rows _ row hrow
        obtain ⟨token, hvalue, htoken⟩ := exists_next_token b hpos hfits
        simp only [if_pos hlease, if_pos hfits, afterUpsert, htoken]
        refine .granted k _ req token .returned hat rfl
          (.inr ⟨row, hrow, Int.le_trans hlease hnow, hvalue⟩) (by omega) rfl ?_
        rw [hvalue]
        rfl
      · simp only [if_pos hlease, if_neg hfits]
        exact claimSteps_quiet rfl
    · simp only [if_neg hlease]
      exact claimSteps_quiet rfl

theorem claimSteps_mutate (hinv : ClaimInv s) (fence : ClaimFence) (isRelease : Bool) (token : Int)
    (leaseUntil now : Timestamp)
    (hat : s.calls[k]? = some (.mutate fence isRelease token leaseUntil now)) :
    ClaimSteps s (.advance k)
      (s.progressed k (advance b s.table s.clock (.mutate fence isRelease token leaseUntil now)))
      (claimOutput k
        (advance b s.table s.clock (.mutate fence isRelease token leaseUntil now)).2) := by
  obtain ⟨rfl, -, -⟩ := hinv.calls k _ hat
  simp only [advance, setLease]
  by_cases hmatch : ∃ row, s.table.lookup fence.claimId = some row ∧
      row.ownerId = fence.ownerId ∧ row.fencingToken = fence.fencingToken.value ∧
      now < row.leaseUntil
  · obtain ⟨row, hrow, howner, htoken, hlive⟩ := hmatch
    rw [Table.updateRow_of_match _ hrow (by simp [howner, htoken, hlive])]
    exact .extended k fence isRelease leaseUntil now row .returned hat hrow howner htoken hlive
      rfl rfl
  · rw [Table.updateRow_of_not_match]
    · exact claimSteps_quiet rfl
    · intro row hrow
      by_contra hp
      apply hmatch
      refine ⟨row, hrow, ?_⟩
      simpa [and_assoc] using hp

theorem afterClock_cases (b : Backend) (req : TryClaim) (existing : ClaimRow) (now : Timestamp) :
    (∃ reply, afterClock b req existing now = .returned reply ∧ reply.writes = false) ∨
      ∃ next nextRaw, afterClock b req existing now =
          .takeOver req existing.fencingToken next nextRaw now ∧
        existing.leaseUntil ≤ now ∧ nextRaw = existing.fencingToken + 1 ∧
        (next.value : Int) = nextRaw ∧ next.value < 2 ^ 63 := by
  unfold afterClock
  by_cases hlive : now < existing.leaseUntil
  · exact .inl ⟨_, if_pos hlive, rfl⟩
  · rw [if_neg hlive]
    rcases tokenFromStorage_cases b existing.fencingToken with ⟨-, e, heq⟩ | ⟨-, e, heq⟩ |
      ⟨hpos, displaced, hdisplaced, heq⟩
    · rw [heq]
      exact .inl ⟨_, rfl, rfl⟩
    · rw [heq]
      exact .inl ⟨_, rfl, rfl⟩
    · rw [heq]
      cases hnext : displaced.next with
      | none => exact .inl ⟨.failed .fencingExhausted, by simp only [hnext], rfl⟩
      | some next =>
        have hvalue := FencingToken.next_value hnext
        by_cases hfits : next.value < 2 ^ 63
        · refine .inr ⟨next, next.value, ?_, Int.not_lt.mp hlive, by omega, rfl, hfits⟩
          simp only [hnext, tokenForStorage, if_pos hfits]
        · refine .inl ⟨.failed .fencingExhausted, ?_, rfl⟩
          simp only [hnext, tokenForStorage, if_neg hfits, toClaimError]

theorem claimSteps_advance (hinv : ClaimInv s)
    (hat : s.calls[k]? = some progress) (hpending : progress.pending = true) :
    ClaimSteps s (.advance k) (s.progressed k (advance b s.table s.clock progress))
      (claimOutput k (advance b s.table s.clock progress).2) := by
  cases progress with
  | insert req => exact claimSteps_insert req hat
  | select req =>
    simp only [advance]
    cases s.table.lookup req.claimId with
    | none | some => exact claimSteps_quiet rfl
  | takeOverClock req existing =>
    simp only [advance]
    rcases afterClock_cases b req existing s.clock with ⟨reply, heq, hsilent⟩ | ⟨next, raw, heq, -⟩
    · rw [heq]
      exact claimSteps_quiet hsilent
    · rw [heq]
      exact claimSteps_quiet rfl
  | takeOver req displaced next nextRaw now =>
    exact claimSteps_takeOver hinv req displaced next nextRaw now hat
  | upsertClock | releaseClock => exact claimSteps_quiet rfl
  | upsert req now => exact claimSteps_upsert hinv req now hat
  | mutateClock =>
    simp only [advance]
    split
    · exact claimSteps_quiet rfl
    · exact claimSteps_quiet rfl
  | mutate fence isRelease token leaseUntil now =>
    exact claimSteps_mutate hinv fence isRelease token leaseUntil now hat
  | returned => cases hpending

/-- A lost answer changes nothing about what the statement did. -/
theorem claimSteps_lose (e : ClaimError) {o : ClaimTable × ClaimProgress}
    (h : ClaimSteps s (.advance k) (s.progressed k o) (claimOutput k o.2)) :
    ClaimSteps s (.lose k e) (s.progressed k (o.1, .returned (.failed e)))
      (lostOutput k e o.2) := by
  obtain ⟨table, progress⟩ := o
  cases progress with
  | returned reply =>
    change ClaimSteps s _ _ (.returned k reply) at h
    cases h with
    | quiet clock same silent => exact .quiet clock same silent
    | granted _ progress req token answered at' taking free inRange clock table =>
      cases answered
      exact .granted k progress req token (.lost e) at' taking free inRange clock table
    | extended _ fence isRelease leaseUntil now row answered at' found owner token live
        clock table =>
      cases answered
      exact .extended k fence isRelease leaseUntil now row (.lost e) at' found owner token live
        clock table
  | _ =>
    change ClaimSteps s _ _ .advanced at h
    cases h with
    | quiet clock same => exact .quiet clock same rfl
    | granted _ _ _ _ answered | extended _ _ _ _ _ _ answered => cases answered

/-- **Every step is one of these**, in either store. -/
theorem claimSteps_step (b : Backend) (hinv : ClaimInv s) (input : ClaimInput) :
    ClaimSteps s input (s.step b input).1 (s.step b input).2 := by
  have hstep := callStep_step b s input
  generalize s.step b input = o at hstep
  cases hstep with
  | idle | invoke | fail => exact .quiet (Int.le_refl _) rfl rfl
  | tick time => exact .quiet (Int.le_add_of_nonneg_right (Int.natCast_nonneg time)) rfl rfl
  | advance _ _ at' pending => exact claimSteps_advance hinv at' pending
  | lose _ e _ at' pending => exact claimSteps_lose e (claimSteps_advance hinv at' pending)

end

/-! ## Every state of a run -/

section
variable {b : Backend} {s s' : ClaimState} {input : ClaimInput} {output : ClaimOutput}

theorem ClaimSteps.rows (hs : ClaimSteps s input s' output) (hinv : ClaimInv s) :
    ∀ id row, s'.table.lookup id = some row → row.WellFormed := by
  intro id row' hrow'
  cases hs with
  | quiet _ table =>
    rw [table] at hrow'
    exact hinv.rows id row' hrow'
  | granted _ _ req token _ _ _ free _ _ table =>
    rw [table] at hrow'
    obtain ⟨rfl, rfl⟩ | ⟨-, hold⟩ := lookup_insert_cases hrow'
    · refine ⟨?_, by show (token.value : Int) < 2 ^ 63; omega⟩
      show (0 : Int) < token.value
      rcases free with ⟨-, rfl⟩ | ⟨row, hrow, -, htoken⟩
      · decide
      · have hpos := (hinv.rows _ row hrow).1
        omega
    · exact hinv.rows id row' hold
  | extended _ fence _ _ _ row _ _ found _ _ _ _ table =>
    rw [table] at hrow'
    obtain ⟨rfl, rfl⟩ | ⟨-, hold⟩ := lookup_insert_cases hrow'
    · exact hinv.rows _ row found
    · exact hinv.rows id row' hold

theorem timely_begin (b : Backend) (call : ClaimCall) (clock : Timestamp) :
    (call.begin b).Timely clock := by
  cases call with
  | tryClaim => cases b <;> trivial
  | renew =>
    intro h
    cases h
  | release =>
    cases b with
    | stoolap => trivial
    | postgres =>
      intro _ lease hlease
      cases hlease

/-- A call that goes on reads the clock, and works with what it has read. -/
theorem timely_advance {table : ClaimTable} {clock : Timestamp}
    (h : progress.Timely clock) : (advance b table clock progress).2.Timely clock := by
  cases progress with
  | insert | takeOver | mutate =>
    simp only [advance]
    split <;> trivial
  | select req =>
    simp only [advance]
    cases table.lookup req.claimId <;> trivial
  | takeOverClock req existing =>
    simp only [advance]
    rcases afterClock_cases b req existing clock with ⟨reply, heq, -⟩ |
      ⟨next, raw, heq, -, hraw, hnext, hfits⟩
    · rw [heq]
      trivial
    · rw [heq]
      exact ⟨Int.le_refl _, hraw, hnext, hfits⟩
  | upsertClock => exact Int.le_refl _
  | upsert | returned => trivial
  | releaseClock =>
    intro _ lease hlease
    exact Int.le_of_eq (Option.some.inj hlease).symm
  | mutateClock _ _ leaseUntil =>
    simp only [advance, tokenForStorage]
    split
    · trivial
    · rename_i token htoken
      split at htoken
      · obtain rfl := Except.ok.inj htoken
        refine ⟨rfl, Int.le_refl _, ?_⟩
        intro hrelease
        cases leaseUntil with
        | none => exact Int.le_refl _
        | some lease => exact h hrelease lease rfl
      · cases htoken

theorem timely_step (hinv : ClaimInv s) :
    ∀ (k : Nat) (progress : ClaimProgress), (s.step b input).1.calls[k]? = some progress →
      progress.Timely (s.step b input).1.clock := by
  intro j progress' hj
  have hstep := callStep_step b s input
  generalize s.step b input = o at hstep hj
  cases hstep with
  | idle => exact hinv.calls j progress' hj
  | tick time =>
    exact (hinv.calls j progress' hj).mono (Int.le_add_of_nonneg_right (Int.natCast_nonneg time))
  | invoke call =>
    rcases getElem?_concat_cases hj with ⟨-, rfl⟩ | hold
    · exact timely_begin b call s.clock
    · exact hinv.calls j progress' hold
  | advance k progress at' =>
    rcases getElem?_set_cases at' hj with ⟨-, rfl⟩ | ⟨-, hold⟩
    · exact timely_advance (hinv.calls k progress at')
    · exact hinv.calls j progress' hold
  | fail _ _ _ at' | lose _ _ _ at' =>
    rcases getElem?_set_cases at' hj with ⟨-, rfl⟩ | ⟨-, hold⟩
    · trivial
    · exact hinv.calls j progress' hold

theorem claimInv_run {h : ClaimHistory} (he : (claimStore b).Run h s) : ClaimInv s := by
  refine he.invariant (P := fun _ s => ClaimInv s) ?_ ?_
  · refine ⟨?_, ?_⟩
    · intro k progress hat
      cases hat
    · intro id row hrow
      cases hrow
  · intro h s input _ hinv
    exact ⟨timely_step hinv, (claimSteps_step b hinv input).rows hinv⟩

end

end EgoRs.ReadSide
