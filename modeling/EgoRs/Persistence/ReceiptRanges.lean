import EgoRs.Persistence.Receipts
import EgoRs.Persistence.Streams

/-! # Receipts and the Events They Describe

A receipt names the versions its operation appended. The caller takes them
from what `append` answered, confirms the receipt in the same unit of work
and commits. In memory nothing ties the three together any more when
`commit` runs: the stream may have grown since the append, and another
unit may have committed a receipt under the same key.
-/

namespace EgoRs.EventStore

open Framework

variable {E : Type}

/-! ## Ranges -/

def receiptStream (receipt : OperationReceipt) : StreamKey where
  aggregateType := receipt.aggregateType
  aggregateId := receipt.aggregateId
  tenant := receipt.tenant.map TenantId.value

/-- The range of the outcome is the positions of `events` in the stream. -/
def Describes (stream events : List (StoredEvent E)) (outcome : AggregateOutcome) : Prop :=
  ∃ before after, stream = before ++ events ++ after ∧
    outcome = .events (before.length + 1) (before.length + events.length)

variable {outcome : AggregateOutcome}

theorem Describes.grows {stream events rest : List (StoredEvent E)}
    (h : Describes stream events outcome) : Describes (stream ++ rest) events outcome := by
  obtain ⟨before, after, rfl, hout⟩ := h
  exact ⟨before, after ++ rest, by simp, hout⟩

/-- The outcome is the range that the versions answered to the appends make up:
`length` events after the version `expected` by the first of them. -/
def namesRange (outcome : AggregateOutcome) (expected : Option Int) (length : Nat) : Bool :=
  match expected with
  | none => true
  | some version => decide (outcome = .events (version + 1) (version + length))

/-- Events that go to the end of a stream are where the range says, when the
first append expected that end. -/
theorem describes_of_namesRange {stream events : List (StoredEvent E)} {expected : Option Int}
    (hexpected : expected = some (stream.length : Int))
    (hnames : namesRange outcome expected events.length = true) :
    Describes (stream ++ events) events outcome := by
  subst hexpected
  have hout : outcome = .events (stream.length + 1) (stream.length + events.length) := by
    simpa [namesRange] using hnames
  exact ⟨stream, [], by simp, hout⟩

/-! ## The promise, in memory -/

/-- The events unit `u` has appended to `k`. -/
def unitEvents (h : History E) (u : Nat) (k : StreamKey) : List (StoredEvent E) :=
  (stagedBy h u k).flatMap Write.events

/-- The version the first append of unit `u` with events expected of `k`. -/
def unitExpected (h : History E) (u : Nat) (k : StreamKey) : Option Int :=
  ((stagedBy h u k).filter fun w => !w.events.isEmpty).head?.map Write.expectedVersion

/-- Unit `u` was committed in `h`. -/
def CommittedIn (h : History E) (u : Nat) : Prop :=
  ∃ t ∈ h, t.input = .commit u ∧ t.output = .committed (.ok ())

/-- **What a committed receipt promises** in the run `h` that ends in `s`. -/
structure ReceiptsDescribe (h : History E) (s : RunState E) : Prop where
  /-- It is the one that is found, and its range is the positions of the events
      its unit appended. -/
  describes : ∀ u r, ConfirmedIn h u r → CommittedIn h u → unitEvents h u (receiptStream r) ≠ [] →
    findReceiptOf s.committed r = .ok (some r) ∧
      Describes (s.stream (receiptStream r)) (unitEvents h u (receiptStream r)) r.outcome
  /-- One operation key is good for one unit that appends to the stream. -/
  once : ∀ u v r r', u ≠ v → ConfirmedIn h u r → CommittedIn h u →
    unitEvents h u (receiptStream r) ≠ [] → ConfirmedIn h v r' → CommittedIn h v →
    unitEvents h v (receiptStream r') ≠ [] → receiptKey r ≠ receiptKey r'

structure KeepsReceipts (h : History E) (t : Event E) : Prop where
  /-- A unit confirms one receipt for a key. -/
  confirms : ∀ u unit r, t.input = .confirmReceipt u r → t.pre.unit u = some unit →
    unit.stagedReceipts.lookup (receiptKey r) = none
  /-- When a unit that staged a receipt commits, no receipt is committed under
      its key, -/
  free : ∀ u unit, t.input = .commit u → t.pre.unit u = some unit →
    ∀ k r, unit.stagedReceipts.lookup k = some r → t.pre.committed.receipts.lookup k = none
  /-- the receipt's stream has not moved since the unit's appends, -/
  unmoved : ∀ u unit, t.input = .commit u → t.pre.unit u = some unit →
    ∀ k r, unit.stagedReceipts.lookup k = some r →
      ∀ w ∈ stagedBy h u (receiptStream r),
        w.seen.length = (t.pre.stream (receiptStream r)).length
  /-- and the receipt names the versions they answered. -/
  names : ∀ u unit, t.input = .commit u → t.pre.unit u = some unit →
    ∀ k r, unit.stagedReceipts.lookup k = some r →
      namesRange r.outcome (unitExpected h u (receiptStream r))
        (unitEvents h u (receiptStream r)).length = true

variable {t : Event E}

theorem KeepsReceipts.of_other {h : History E}
    (hconfirm : ∀ u r, t.input ≠ .confirmReceipt u r) (hcommit : ∀ u, t.input ≠ .commit u) :
    KeepsReceipts h t where
  confirms := fun u _ r hin => absurd hin (hconfirm u r)
  free := fun u _ hin => absurd hin (hcommit u)
  unmoved := fun u _ hin => absurd hin (hcommit u)
  names := fun u _ hin => absurd hin (hcommit u)

/-! ## Units that are gone -/

section
variable {h : History E} {s s' : RunState E} {req : Request E} {ans : Answer E} {u : Nat}

theorem committedIn_snoc : CommittedIn (h ++ [t]) u ↔
      CommittedIn h u ∨ (t.input = .commit u ∧ t.output = .committed (.ok ())) :=
  exists_mem_snoc

theorem unitEvents_gone (hm : Moves s req ans s') (hgone : s.unit u = none) (k : StreamKey) :
    unitEvents (h ++ [⟨s, req, ans, s'⟩]) u k = unitEvents h u k := by
  unfold unitEvents
  rw [stagedBy_snoc]
  cases hw : stagedWrite u k ⟨s, req, ans, s'⟩ with
  | none => simp
  | some =>
    obtain ⟨unit, hopen, _⟩ := hm.stagedWrite_checked hw
    rw [hgone] at hopen
    cases hopen

/-- A commit takes its unit away, and what it had is published. -/
theorem Moves.commit_of (hm : Moves s req ans s') (hreq : req = .commit u)
    (hans : ans = .committed (.ok ())) : ∃ unit, s.unit u = some unit ∧
      s' = { s.setUnit u none with committed := (unit.commit s.committed).1 } := by
  cases hm with
  | committed v unit opened =>
    obtain rfl : v = u := by simpa using hreq
    exact ⟨unit, opened, rfl⟩
  | _ => simp_all

/-- A unit that is gone stays away. -/
theorem Moves.gone_stays (hm : Moves s req ans s') (hgone : s.unit u = none)
    (hlt : u < s.units.length) : s'.unit u = none := by
  cases hu : s'.unit u with
  | none => rfl
  | some =>
    cases hm.unitChange hu with
    | kept opened | staged _ _ _ _ opened | confirmed _ _ opened =>
      rw [hgone] at opened
      cases opened
    | begun => omega

end

/-! ## The ledger -/

/-- What units have confirmed, are going to commit and have committed. -/
structure ReceiptLedger (h : History E) (s : RunState E) : Prop where
  staged : ∀ u unit, s.unit u = some unit → ∀ r, ConfirmedIn h u r →
    unit.stagedReceipts.lookup (receiptKey r) = some r
  ended : ∀ u, CommittedIn h u → s.unit u = none ∧ u < s.units.length
  found : ∀ u r, ConfirmedIn h u r → CommittedIn h u →
    s.committed.receipts.lookup (receiptKey r) = some r
  described : ∀ u r, ConfirmedIn h u r → CommittedIn h u → unitEvents h u (receiptStream r) ≠ [] →
    Describes (s.stream (receiptStream r)) (unitEvents h u (receiptStream r)) r.outcome
  once : ∀ u v r r', u ≠ v → ConfirmedIn h u r → CommittedIn h u → ConfirmedIn h v r' →
    CommittedIn h v → receiptKey r ≠ receiptKey r'

section
variable {h : History E} {s s' : RunState E} {req : Request E} {ans : Answer E}

theorem ledger_staged_step (hl : ReceiptLedger h s) (hf : ReceiptsTraced h s)
    (hm : Moves s req ans s') (hc : KeepsReceipts h ⟨s, req, ans, s'⟩) (u : Nat)
    (unit' : UnitOfWork E) (hu : s'.unit u = some unit') (r : OperationReceipt)
    (hr : ConfirmedIn (h ++ [⟨s, req, ans, s'⟩]) u r) :
    unit'.stagedReceipts.lookup (receiptKey r) = some r := by
  rw [confirmedIn_snoc] at hr
  cases hm.unitChange hu with
  | kept opened _ confirms =>
    rcases hr with hold | hnow
    · exact hl.staged u unit' opened r hold
    · exact absurd ⟨r, hnow⟩ confirms
  | begun new _ _ confirms =>
    rcases hr with hold | hnow
    · exact absurd hold (hf.fresh u r new)
    · exact absurd ⟨r, hnow⟩ confirms
  | staged unit _ _ _ opened request _ _ unit_eq =>
    subst request unit_eq
    rcases hr with hold | ⟨hreq, _⟩
    · exact hl.staged u unit opened r hold
    · cases hreq
  | confirmed unit receipt opened request _ _ unit_eq =>
    subst request unit_eq
    rcases hr with hold | ⟨hreq, -⟩
    · -- its key is new to the unit, so it is not the key of an earlier one
      have hnew := hc.confirms u unit receipt rfl opened
      have hold' := hl.staged u unit opened r hold
      have hk : receiptKey r ≠ receiptKey receipt := by
        intro hk
        rw [← hk, hold'] at hnew
        cases hnew
      exact (AList.lookup_insert_ne hk).trans hold'
    · obtain rfl : receipt = r := by simpa using hreq
      exact AList.lookup_insert _

variable {r : OperationReceipt}

/-- A unit whose commit was answered confirmed before it, and had it staged. -/
theorem ReceiptLedger.confirmed_before (hl : ReceiptLedger h s) (hm : Moves s req ans s') {u : Nat}
    (hr : ConfirmedIn (h ++ [⟨s, req, ans, s'⟩]) u r)
    (hu : CommittedIn (h ++ [⟨s, req, ans, s'⟩]) u) : ConfirmedIn h u r := by
  rw [confirmedIn_snoc] at hr
  rcases hr with hold | ⟨hreq, hans⟩
  · exact hold
  · obtain ⟨unit, hopen⟩ := (hm.confirms hreq hans).1
    rw [committedIn_snoc] at hu
    rcases hu with hcom | ⟨hreq', _⟩
    · have hgone := (hl.ended u hcom).1
      rw [hgone] at hopen
      cases hopen
    · have hreq₁ : req = .confirmReceipt u r := hreq
      rw [hreq₁] at hreq'
      cases hreq'

/-- Where the keys are free, commits agree with what is there. -/
theorem KeepsReceipts.commitsAgree (hc : KeepsReceipts h t) : CommitsAgree h t := by
  intro u unit hin hopen k r r' hst hr'
  have hfree := hc.free u unit hin hopen k r hst
  rw [hr'] at hfree
  cases hfree

/-- The events of a unit that commits on an unmoved stream are where its receipt
says. -/
theorem described_commit (he : (store E).Run h s) {u : Nat} {unit : UnitOfWork E}
    (hopen : s.unit u = some unit) (hunmoved : ∀ w ∈ stagedBy h u (receiptStream r),
      w.seen.length = (s.stream (receiptStream r)).length)
    (hnames : namesRange r.outcome (unitExpected h u (receiptStream r))
      (unitEvents h u (receiptStream r)).length = true)
    (hne : unitEvents h u (receiptStream r) ≠ []) :
    Describes (s.stream (receiptStream r) ++ unitEvents h u (receiptStream r))
      (unitEvents h u (receiptStream r)) r.outcome := by
  have htr := tracked_run he
  have hlaid : LaidOut Write.events Write.expectedVersion
      (s.stream (receiptStream r)).length (stagedBy h u (receiptStream r)) := by
    rw [← Int.zero_add ((s.stream (receiptStream r)).length : Int)]
    refine (htr.layout u unit hopen (receiptStream r)).shift _ ?_
    intro w hw
    rw [hunmoved w hw]
    omega
  exact describes_of_namesRange (hlaid.first_nonempty hne) hnames

theorem ledger_step (he : (store E).Run h s) (hl : ReceiptLedger h s)
    (hm : Moves s req ans s') (hc : KeepsReceipts h ⟨s, req, ans, s'⟩) :
    ReceiptLedger (h ++ [⟨s, req, ans, s'⟩]) s' where
  staged := ledger_staged_step hl (receiptsTraced_run he) hm hc
  ended := by
    intro u hu
    rw [committedIn_snoc] at hu
    rcases hu with hold | ⟨hreq, hans⟩
    · obtain ⟨hgone, hlt⟩ := hl.ended u hold
      exact ⟨hm.gone_stays hgone hlt, Nat.lt_of_lt_of_le hlt hm.units_length_le⟩
    · obtain ⟨unit, hopen, rfl⟩ := hm.commit_of hreq hans
      refine ⟨RunState.unit_setUnit hopen, ?_⟩
      have hlt := RunState.lt_of_unit hopen
      simpa [RunState.setUnit] using hlt
  found := by
    intro u r hr hu
    have hbefore := hl.confirmed_before hm hr hu
    rw [committedIn_snoc] at hu
    rcases hu with hold | ⟨hreq, hans⟩
    · exact hm.receipt_after hc.commitsAgree (hl.found u r hbefore hold)
    · obtain ⟨unit, hopen, rfl⟩ := hm.commit_of hreq hans
      show (unit.commit s.committed).1.receipts.lookup (receiptKey r) = some r
      rw [lookup_receipts_commit, hl.staged u unit hopen r hbefore, Option.some_or]
  described := by
    intro u r hr hu hne
    have hbefore := hl.confirmed_before hm hr hu
    rw [committedIn_snoc] at hu
    rcases hu with hold | ⟨hreq, hans⟩
    · rw [unitEvents_gone hm (hl.ended u hold).1] at hne ⊢
      rw [hm.stream_after (tracked_run he).staged]
      exact (hl.described u r hbefore hold hne).grows
    · obtain ⟨unit, hopen, hs'⟩ := hm.commit_of hreq hans
      have hst := hl.staged u unit hopen r hbefore
      have hsame : unitEvents (h ++ [⟨s, req, ans, s'⟩]) u (receiptStream r) =
          unitEvents h u (receiptStream r) := by
        have hreq' : req = .commit u := hreq
        unfold unitEvents
        rw [stagedBy_snoc]
        simp [stagedWrite, hreq']
      have hstream : s'.stream (receiptStream r) =
          s.stream (receiptStream r) ++ unitEvents h u (receiptStream r) := by
        rw [hs']
        show streamAt (unit.commit s.committed).1.streams (receiptStream r) = _
        rw [streamAt_commit, (tracked_run he).staged u unit hopen]
        rfl
      rw [hsame] at hne ⊢
      rw [hstream]
      exact described_commit he hopen (hc.unmoved u unit hreq hopen _ r hst)
        (hc.names u unit hreq hopen _ r hst) hne
  once := by
    -- whoever commits second finds the key taken
    have hsecond : ∀ u v r r', u ≠ v → ConfirmedIn h u r → CommittedIn h u → ConfirmedIn h v r' →
        req = .commit v → ans = .committed (.ok ()) → receiptKey r ≠ receiptKey r' := by
      intro u v r r' _ hr hu hr' hreq hans hk
      obtain ⟨unit, hopen, _⟩ := hm.commit_of hreq hans
      have hst := hl.staged v unit hopen r' hr'
      have hfree := hc.free v unit hreq hopen _ r' hst
      rw [← hk, hl.found u r hr hu] at hfree
      cases hfree
    intro u v r r' huv hr hu hr' hv
    have hr₁ := hl.confirmed_before hm hr hu
    have hr₂ := hl.confirmed_before hm hr' hv
    rw [committedIn_snoc] at hu hv
    rcases hu with hu | ⟨hreq, hans⟩
    · rcases hv with hv | ⟨hreq', hans'⟩
      · exact hl.once u v r r' huv hr₁ hu hr₂ hv
      · exact hsecond u v r r' huv hr₁ hu hr₂ hreq' hans'
    · rcases hv with hv | ⟨hreq', _⟩
      · exact Ne.symm (hsecond v u r' r (Ne.symm huv) hr₂ hv hr₁ hreq hans)
      · exfalso
        apply huv
        have hboth : req = .commit u := hreq
        rw [hboth] at hreq'
        simpa using hreq'

theorem receiptLedger_run (he : (store E).Run h s) (ha : Along KeepsReceipts h) :
    ReceiptLedger h s := by
  refine he.invariant_along (P := ReceiptLedger) ?_ ?_ ha
  · have hnone : ∀ u, ¬ CommittedIn ([] : History E) u := by
      rintro u ⟨t, ht, _⟩
      cases ht
    refine ⟨?_, ?_, ?_, ?_, ?_⟩
    · intro u unit hu
      simp [store, RunState.unit] at hu
    · intro u hu
      exact absurd hu (hnone u)
    · intro u r _ hu
      exact absurd hu (hnone u)
    · intro u r _ hu
      exact absurd hu (hnone u)
    · intro u v r r' _ _ hu
      exact absurd hu (hnone u)
  · intro h s i hex hl hc
    exact ledger_step hex hl (moves_step s i) hc

end

/-- **In memory, a committed receipt describes its events** in every run whose
steps keep to the condition. -/
theorem receiptsDescribe_memory {h : History E} {s : RunState E}
    (he : (store E).Run h s) (ha : Along KeepsReceipts h) : ReceiptsDescribe h s := by
  have hl := receiptLedger_run he ha
  constructor
  · intro u r hr hu hne
    refine ⟨?_, hl.described u r hr hu hne⟩
    rw [findReceiptOf_eq, hl.found u r hr hu]
  · intro u v r r' huv hr hu _ hr' hv _
    exact hl.once u v r r' huv hr hu hr' hv

end EgoRs.EventStore
