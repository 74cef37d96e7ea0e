import EgoRs.Persistence.StoreRun

/-! # Receipts of Completed Operations

A receipt says that one operation ran to completion against one
aggregate. `confirm_receipt` refuses a receipt whose fingerprint differs
from the committed or the staged one under the same key, but it is
`commit` that writes, and `commit` overwrites whatever it finds.
-/

namespace EgoRs.EventStore

open Framework

variable {E : Type}

/-! ## Reconciliation -/

theorem reconcile_ok_iff {existing : Option OperationReceipt} {incoming : OperationReceipt} :
    reconcile existing incoming = .ok () ↔
      ∀ found, existing = some found → found.fingerprint = incoming.fingerprint := by
  cases existing with
  | none => simp [reconcile]
  | some found =>
    by_cases hf : found.fingerprint = incoming.fingerprint <;> simp [reconcile, hf]

variable {committed : Committed E} {r : OperationReceipt}

/-! ## Lookups -/

/-- What `find_receipt` answers for the key of `receipt`. -/
def findReceiptOf (committed : Committed E) (receipt : OperationReceipt) :
    Except PersistenceError (Option OperationReceipt) :=
  findReceipt committed receipt.aggregateType receipt.aggregateId
    (receipt.tenant.map TenantId.value) receipt.operationKey.value

/-- A receipt's own tenant always resolves. -/
theorem findReceiptOf_eq (committed : Committed E) (receipt : OperationReceipt) :
    findReceiptOf committed receipt = .ok (committed.receipts.lookup (receiptKey receipt)) := by
  unfold findReceiptOf findReceipt receiptKey resolveTenant
  cases receipt.tenant with
  | none => rfl
  | some t =>
    simp only [Option.map_some, if_neg t.value_ne_empty]
    rfl

/-- A lookup that finds a receipt is a lookup in the committed map. -/
theorem findReceipt_some_iff {aggregateType aggregateId : String} {tenantId : Option String}
    {operationKey : String} :
    findReceipt committed aggregateType aggregateId tenantId operationKey = .ok (some r) ↔
      ∃ tenant, resolveTenant tenantId = .ok tenant ∧
        committed.receipts.lookup ⟨aggregateType, aggregateId, tenant, operationKey⟩ = some r := by
  unfold findReceipt
  cases resolveTenant tenantId with
  | error =>
    constructor
    · intro h
      cases h
    · rintro ⟨_, h, _⟩
      cases h
  | ok tenant =>
    constructor
    · intro h
      exact ⟨tenant, rfl, Except.ok.inj h⟩
    · rintro ⟨_, h, hl⟩
      cases h
      exact congrArg Except.ok hl

/-! ## The promise -/

/-- Unit `u` confirmed `r` somewhere in `h`. -/
def ConfirmedIn (h : History E) (u : Nat) (r : OperationReceipt) : Prop :=
  ∃ t ∈ h, t.input = .confirmReceipt u r ∧ t.output = .confirmed (.ok ())

/-- **Receipts never change** in the run `h` that ends in `s`. -/
structure ReceiptsImmutable (h : History E) (s : RunState E) : Prop where
  /-- What `find_receipt` once returned it returns ever after. -/
  stable : ∀ h₁ h₂ s₁, h = h₁ ++ h₂ → (store E).Exec (store E).init h₁ s₁ →
    ∀ aggregateType aggregateId tenantId operationKey r,
      findReceipt s₁.committed aggregateType aggregateId tenantId operationKey = .ok (some r) →
      findReceipt s.committed aggregateType aggregateId tenantId operationKey = .ok (some r)
  /-- A unit that confirmed a receipt does not commit over a visible one with
      another fingerprint. -/
  refused : ∀ h₁ t h₂ u r r', h = h₁ ++ t :: h₂ → t.input = .commit u → ConfirmedIn h₁ u r →
    findReceiptOf t.pre.committed r = .ok (some r') → r'.fingerprint ≠ r.fingerprint →
    t.output ≠ .committed (.ok ())

/-- The commit of a unit that has staged a receipt under `k`. -/
def publishes (k : ReceiptKey) (t : Event E) : Bool :=
  match t.input with
  | .commit u => ((t.pre.unit u).bind fun unit => unit.stagedReceipts.lookup k).isSome
  | _ => false

/-- If `c` is a confirmation by unit `u`, `t` publishes nothing under its key. -/
def spares (u : Nat) (c t : Event E) : Bool :=
  match c.input, c.output with
  | .confirmReceipt v receipt, .confirmed (.ok ()) => v != u || !publishes (receiptKey receipt) t
  | _, _ => true

/-- After no confirmation by unit `u` was a receipt committed under its key. -/
def Spared (u : Nat) (h : History E) : Prop := h.Pairwise fun c t => spares u c t = true

/-- No receipt is committed between a unit's confirmation under the same key and
the unit's commit. -/
def Unraced (h : History E) (t : Event E) : Prop := ∀ u, t.input = .commit u → Spared u h

/-- The receipts of the confirmations that are tried. -/
def offered (h : History E) : List OperationReceipt :=
  h.filterMap fun t =>
    match t.input with
    | .confirmReceipt _ receipt => some receipt
    | _ => none

/-- The same operation and fingerprint come with the same receipt. -/
def Reproducible (h : History E) : Prop :=
  ∀ r ∈ offered h, ∀ r' ∈ offered h, receiptKey r = receiptKey r' →
    r.fingerprint = r'.fingerprint → r = r'

/-- When a unit of work commits, each receipt it has staged is the committed
one under its key, if there is one. -/
def CommitsAgree (_ : History E) (t : Event E) : Prop :=
  ∀ u unit, t.input = .commit u → t.pre.unit u = some unit →
    ∀ k r r', unit.stagedReceipts.lookup k = some r →
      t.pre.committed.receipts.lookup k = some r' → r = r'

/-! ## Stability -/

section
variable {s s' : RunState E} {req : Request E} {ans : Answer E}

/-- A step of the condition keeps every committed receipt. -/
theorem Moves.receipt_after (hm : Moves s req ans s') {h : History E}
    (hc : CommitsAgree h ⟨s, req, ans, s'⟩) {k : ReceiptKey}
    (hr : s.committed.receipts.lookup k = some r) : s'.committed.receipts.lookup k = some r := by
  cases hm with
  | appended _ _ _ _ _ _ _ _ receipts
  | appendRefused _ _ _ _ receipts => rw [receipts, hr]
  | committed u unit opened =>
    show (unit.commit s.committed).1.receipts.lookup k = some r
    rw [lookup_receipts_commit, hr]
    cases hst : unit.stagedReceipts.lookup k with
    | none => rfl
    | some r₂ => rw [hc u unit rfl opened k r₂ r hst hr, Option.some_or]
  | _ => exact hr

theorem confirmedIn_snoc {h : History E} {u : Nat} {t : Event E} : ConfirmedIn (h ++ [t]) u r ↔
      ConfirmedIn h u r ∨ (t.input = .confirmReceipt u r ∧ t.output = .confirmed (.ok ())) :=
  exists_mem_snoc

theorem receipt_stable {h₁ h₂ : History E} (he : (store E).Exec s h₂ s')
    (ha : Along CommitsAgree (h₁ ++ h₂)) {k : ReceiptKey}
    (hr : s.committed.receipts.lookup k = some r) : s'.committed.receipts.lookup k = some r := by
  induction he with
  | nil => exact hr
  | @snoc h s₂ i hex ih =>
    rw [← List.append_assoc] at ha
    exact (moves_step s₂ i).receipt_after ha.last (ih ha.of_append)

end

/-! ## Where receipts come from -/

/-- Every receipt was offered, and a staged one was confirmed. What a unit has
confirmed agrees with the committed receipt, as it did then, if nothing was
committed under its key since. -/
structure ReceiptsTraced (h : History E) (s : RunState E) : Prop where
  committed : ∀ k r, s.committed.receipts.lookup k = some r → receiptKey r = k ∧ r ∈ offered h
  staged : ∀ u unit k r, s.unit u = some unit → unit.stagedReceipts.lookup k = some r →
    receiptKey r = k ∧ ConfirmedIn h u r
  fresh : ∀ u r, s.units.length ≤ u → ¬ ConfirmedIn h u r
  agreed : ∀ u r, ConfirmedIn h u r → Spared u h → ∀ r',
    s.committed.receipts.lookup (receiptKey r) = some r' → r'.fingerprint = r.fingerprint

section
variable {h : History E} {s s' : RunState E} {req : Request E} {ans : Answer E} {k : ReceiptKey}

theorem mem_offered {u : Nat} (hc : ConfirmedIn h u r) : r ∈ offered h := by
  obtain ⟨t, ht, hin, -⟩ := hc
  exact List.mem_filterMap.mpr ⟨t, ht, by rw [hin]⟩

theorem mem_offered_append (h₂ : History E) (hr : r ∈ offered h) : r ∈ offered (h ++ h₂) := by
  simp only [offered, List.filterMap_append, List.mem_append]
  exact .inl hr

/-- Only an open unit confirms. The receipt was reconciled with the committed
one, which stays. -/
theorem Moves.confirms (hm : Moves s req ans s') {u : Nat} (hreq : req = .confirmReceipt u r)
    (hans : ans = .confirmed (.ok ())) : (∃ unit, s.unit u = some unit) ∧
      s'.committed = s.committed ∧
      reconcile (s.committed.receipts.lookup (receiptKey r)) r = .ok () := by
  cases hm with
  | confirmed v unit receipt opened reconciled =>
    obtain ⟨rfl, rfl⟩ : v = u ∧ receipt = r := by simpa using hreq
    refine ⟨⟨unit, opened⟩, rfl, ?_⟩
    unfold UnitOfWork.reconciles at reconciled
    cases hc : reconcile (s.committed.receipts.lookup (receiptKey receipt)) receipt with
    | error =>
      rw [hc] at reconciled
      cases reconciled
    | ok => rfl
  | _ => simp_all

/-- Only a commit changes the committed receipts. -/
theorem Moves.receipts_before (hm : Moves s req ans s')
    (hr : s'.committed.receipts.lookup k = some r) : s.committed.receipts.lookup k = some r ∨
      ∃ u unit, req = .commit u ∧ s.unit u = some unit ∧
        unit.stagedReceipts.lookup k = some r := by
  cases hm with
  | appended _ _ _ _ _ _ _ _ receipts
  | appendRefused _ _ _ _ receipts => exact .inl (receipts ▸ hr)
  | committed u unit opened =>
    change (unit.commit s.committed).1.receipts.lookup k = some r at hr
    rw [lookup_receipts_commit] at hr
    rcases Option.or_eq_some_iff.mp hr with hst | ⟨-, hold⟩
    · exact .inr ⟨u, unit, rfl, opened, hst⟩
    · exact .inl hold
  | _ => exact .inl hr

theorem receiptsTraced_step (hi : ReceiptsTraced h s) (hm : Moves s req ans s') :
    ReceiptsTraced (h ++ [⟨s, req, ans, s'⟩]) s' where
  committed := by
    intro k r hr
    rcases hm.receipts_before hr with hold | ⟨u, unit, -, hu, hst⟩
    · exact (hi.committed k r hold).imp_right (mem_offered_append _)
    · obtain ⟨hkey, hconf⟩ := hi.staged u unit k r hu hst
      exact ⟨hkey, mem_offered_append _ (mem_offered hconf)⟩
  staged := by
    intro u unit' k r hu hl
    have earlier {unit : UnitOfWork E} (opened : s.unit u = some unit)
        (hl : unit.stagedReceipts.lookup k = some r) :
        receiptKey r = k ∧ ConfirmedIn (h ++ [⟨s, req, ans, s'⟩]) u r :=
      (hi.staged u unit k r opened hl).imp_right fun hc => confirmedIn_snoc.mpr (.inl hc)
    cases hm.unitChange hu with
    | kept opened => exact earlier opened hl
    | begun _ fresh =>
      rw [fresh] at hl
      cases hl
    | staged unit _ _ _ opened _ _ _ unit_eq =>
      subst unit_eq
      exact earlier opened hl
    | confirmed unit receipt opened request answer _ unit_eq =>
      subst unit_eq
      rcases lookup_insert_cases hl with ⟨rfl, rfl⟩ | ⟨-, hold⟩
      · exact ⟨rfl, confirmedIn_snoc.mpr (.inr ⟨request, answer⟩)⟩
      · exact earlier opened hold
  fresh := by
    intro u r hle hc
    have hle' : s.units.length ≤ u := Nat.le_trans hm.units_length_le hle
    rcases confirmedIn_snoc.mp hc with hold | ⟨hreq, hans⟩
    · exact hi.fresh u r hle' hold
    · obtain ⟨⟨unit, opened⟩, -⟩ := hm.confirms hreq hans
      have hlt := RunState.lt_of_unit opened
      omega
  agreed := by
    intro u r hc hspared r' hr'
    obtain ⟨hbefore, -, hlast⟩ := List.pairwise_append.mp hspared
    rcases confirmedIn_snoc.mp hc with hold | ⟨hreq, hans⟩
    · rcases hm.receipts_before hr' with hthere | ⟨v, unit, rfl, hv, hst⟩
      · exact hi.agreed u r hold hbefore r' hthere
      · -- the commit publishes under the key that `u` has confirmed
        obtain ⟨c, hc, hin, hout⟩ := hold
        have hfree := hlast c hc _ (List.mem_singleton.mpr rfl)
        simp [spares, hin, hout, publishes, hv, hst] at hfree
    · obtain ⟨-, hsame, hreconciled⟩ := hm.confirms hreq hans
      exact reconcile_ok_iff.mp hreconciled r' (hsame ▸ hr')

theorem receiptsTraced_run (he : (store E).Run h s) : ReceiptsTraced h s := by
  refine he.invariant ⟨?_, ?_, ?_, ?_⟩ fun h s i _ hi => receiptsTraced_step hi (moves_step s i)
  · intro k r hr
    cases hr
  · intro u unit k r hu
    simp [store, RunState.unit] at hu
  · rintro u r - ⟨t, ht, -⟩
    cases ht
  · rintro u r ⟨t, ht, -⟩
    cases ht

/-- Without races, a commit finds the receipts it brings or none. -/
theorem commits_agree (he : (store E).Run h s) (hu : Along Unraced h) (hr : Reproducible h) :
    Along CommitsAgree h := by
  intro h₁ t h₂ hh u unit hreq hunit k r r' hl hl'
  subst hh
  have hi := receiptsTraced_run he.split_at.1
  obtain ⟨rfl, hconf⟩ := hi.staged u unit k r hunit hl
  obtain ⟨hkey, hoffered⟩ := hi.committed _ r' hl'
  exact hr r (mem_offered_append _ (mem_offered hconf)) r' (mem_offered_append _ hoffered)
    hkey.symm (hi.agreed u r hconf (hu h₁ t h₂ rfl u hreq) r' hl').symm

end

/-! ## Immutability -/

/-- **Receipts are immutable** in every run in which no receipt is committed
between a confirmation under its key and that unit's commit, and an
operation that is repeated brings the same receipt. -/
theorem receipts_immutable {h : History E} {s : RunState E}
    (he : (store E).Exec (store E).init h s) (hu : Along Unraced h) (hr : Reproducible h) :
    ReceiptsImmutable h s where
  stable := by
    intro h₁ h₂ s₁ hh he₁ aggregateType aggregateId tenantId operationKey r hfind
    subst hh
    obtain ⟨s₂, he₂, hrest⟩ := he.split
    obtain rfl := he₁.state_unique he₂
    obtain ⟨tenant, htenant, hfound⟩ := findReceipt_some_iff.mp hfind
    exact findReceipt_some_iff.mpr
      ⟨tenant, htenant, receipt_stable hrest (commits_agree he hu hr) hfound⟩
  refused := by
    intro h₁ t h₂ u r r' hh hreq hconf hfind hne
    subst hh
    obtain ⟨he₁, -⟩ := he.split_at
    rw [findReceiptOf_eq, Except.ok.injEq] at hfind
    exact absurd ((receiptsTraced_run he₁).agreed u r hconf (hu h₁ t h₂ rfl u hreq) r' hfind) hne

/-- A receipt of one systemwide order operation that appended nothing. -/
def sampleReceipt (fingerprint : String) : OperationReceipt where
  aggregateType := "order"
  aggregateId := "o-1"
  tenant := none
  operationKey := ⟨"place-1", by decide, by decide⟩
  fingerprint := ⟨fingerprint⟩
  outcome := .noEvents

/-- A first execution, another request under the same key, and a retry of the
first one. -/
def retriedRequests : List (Request Nat) :=
  [.begin, .confirmReceipt 0 (sampleReceipt "a"), .commit 0,
    .begin, .confirmReceipt 1 (sampleReceipt "b"), .commit 1,
    .begin, .confirmReceipt 2 (sampleReceipt "a"), .commit 2]

/-- In that run the other request is refused when it confirms, the retry is
accepted, and the receipt stays. -/
theorem receipts_immutable_retried :
    findReceiptOf ((store Nat).after (store Nat).init retriedRequests).committed
        (sampleReceipt "a") = .ok (some (sampleReceipt "a")) ∧
      ReceiptsImmutable ((store Nat).trace (store Nat).init retriedRequests)
        ((store Nat).after (store Nat).init retriedRequests) := by
  refine ⟨by decide, receipts_immutable (Machine.exec_trace _ _ _) ?_ ?_⟩
  · refine ((((((((Along.nil.snoc ?_).snoc ?_).snoc ?_).snoc ?_).snoc ?_).snoc ?_).snoc ?_).snoc
      ?_).snoc ?_ <;> rintro u ⟨⟩ <;> unfold Spared <;> decide
  · unfold Reproducible
    decide

/-- Two different requests under one operation key, both confirmed before
either commits. -/
def racingConfirmations : List (Request Nat) :=
  [.begin, .begin, .confirmReceipt 0 (sampleReceipt "a"), .confirmReceipt 1 (sampleReceipt "b"),
    .commit 0, .commit 1]

/-- Both commits answer `Ok`, and the receipt that was visible after the first
is replaced by the second's. -/
theorem receipt_overwritten :
    findReceiptOf ((store Nat).after (store Nat).init (racingConfirmations.take 5)).committed
        (sampleReceipt "a") = .ok (some (sampleReceipt "a")) ∧
      findReceiptOf ((store Nat).after (store Nat).init racingConfirmations).committed
        (sampleReceipt "a") = .ok (some (sampleReceipt "b")) ∧
      ¬ ReceiptsImmutable ((store Nat).trace (store Nat).init racingConfirmations)
        ((store Nat).after (store Nat).init racingConfirmations) := by
  refine ⟨by decide, by decide, ?_⟩
  intro hi
  have hafter := hi.stable _ ((store Nat).trace _ (racingConfirmations.drop 5)) _ rfl
    (Machine.exec_trace (store Nat) (store Nat).init (racingConfirmations.take 5))
    "order" "o-1" none "place-1" (sampleReceipt "a") (by decide)
  revert hafter
  decide

end EgoRs.EventStore
