import EgoRs.ReadSide.Progress

/-! # Takeovers

Several owners work on one stream, each under a claim. An owner whose lease
has ended may be replaced while its batch is on the way, and is told so when
it renews its claim, before it marks anything.

The marks and the offset come after that, each in a call of its own, and none
of them looks at the claim. An owner that is slow here is replaced between
two of them, and its offset goes over the one of its successor. It is not, as
long as the lease it has renewed lasts to the end of its batch.
-/

namespace EgoRs.ReadSide

open Framework

variable {E : Type}

/-! ## Who may go on -/

/-- The phases after `renew`, which write. -/
def BatchPhase.commits : BatchPhase E → Bool
  | .mark _ _ _ => true
  | .write _ _ _ => true
  | _ => false

def BatchPhase.lease : BatchPhase E → Option Timestamp
  | .mark _ _ lease => lease
  | .write _ _ lease => lease
  | _ => none

@[simp] theorem afterMark_lease (offset : Offset) (rest : TagStream E)
    (lease : Option Timestamp) : (afterMark offset rest lease).lease = lease := by
  cases rest <;> rfl

@[simp] theorem afterFetch_commits (events : TagStream E) :
    (afterFetch events).commits = false := by
  cases events <;> rfl

@[simp] theorem afterCheck_commits (rest unique : TagStream E) :
    (afterCheck rest unique).commits = false := by
  cases rest with
  | nil => cases unique <;> rfl
  | cons => rfl

/-- The executions of the stream have a claim. -/
def claimedOnly (key : ClaimId) (t : ReadSideEvent E) : Bool :=
  match t.input with
  | .execute session => decide (session.claimId ≠ key) || session.claiming.isSome
  | _ => true

/-- The marks and the offset of the stream are written before the lease ends. -/
def withinLease (key : ClaimId) (t : ReadSideEvent E) : Bool :=
  match t.input with
  | .resume i _ =>
    match t.pre.sessions[i]? with
    | some (session, .batch _ phase) =>
      decide (session.claimId ≠ key) || !phase.commits ||
        phase.lease.all fun lease => decide (t.pre.stores.clock < lease)
    | _ => true
  | _ => true

variable {session : ReadSideSession}

theorem live_of_withinLease {key : ClaimId} {t : ReadSideEvent E} {i : Nat} {answer : Answer}
    {fence : Option ClaimFence} {phase : BatchPhase E}
    {lease : Timestamp} (hwithin : withinLease key t = true) (hinput : t.input = .resume i answer)
    (hat : t.pre.sessions[i]? = some (session, .batch fence phase)) (hkey : session.claimId = key)
    (hcommits : phase.commits = true) (hlease : phase.lease = some lease) :
    t.pre.stores.clock < lease := by
  unfold withinLease at hwithin
  rw [hinput] at hwithin
  simpa [hat, hkey, hcommits, hlease] using hwithin

/-! ## What an execution knows under its claim -/

/-- The events in hand come after the stored offset. -/
def BatchPhase.Ahead (stored : Int) : BatchPhase E → Prop
  | .fetch lastOffset => resumesAfter lastOffset = stored
  | .check rest unique =>
    (∀ e ∈ rest, stored < e.eventVersion) ∧ ∀ e ∈ unique, stored < e.eventVersion
  | .handle unique => unique ≠ [] ∧ ∀ e ∈ unique, stored < e.eventVersion
  | .renewClock unique => unique ≠ [] ∧ ∀ e ∈ unique, stored < e.eventVersion
  | .renew unique _ => unique ≠ [] ∧ ∀ e ∈ unique, stored < e.eventVersion
  | .mark offset _ _ => stored < resumesAfter (some offset)
  | .write offset _ _ => stored < resumesAfter (some offset)
  | _ => True

/-- The row is the one of the fence. -/
def ClaimRow.Names (row : ClaimRow) (fence : ClaimFence) : Prop :=
  row.ownerId = fence.ownerId ∧ row.fencingToken = fence.fencingToken.value

/-- The row of the stream is the one of the fence, or has a greater token. -/
def Issued (key : ClaimId) (claims : ClaimTable) (fence : ClaimFence) : Prop :=
  ∃ row, claims.lookup key = some row ∧
    (fence.fencingToken.value < row.fencingToken ∨ row.Names fence)

/-- An execution under a fence. Its events are ahead of the offset unless it was
replaced, and once it writes, it was not replaced before its lease ended. -/
structure Standing (key : ClaimId) (stores : Stores E) (fence : ClaimFence)
    (phase : BatchPhase E) : Prop where
  issued : Issued key stores.claims fence
  ahead : ∀ row, stores.claims.lookup key = some row →
    row.fencingToken = fence.fencingToken.value →
      phase.Ahead (resumesAfter (stores.offsets.lookup key))
  leased : phase.commits = true → ∃ lease, phase.lease = some lease ∧
    (stores.clock < lease →
      stores.claims.lookup key = some ⟨fence.ownerId, fence.fencingToken.value, lease⟩)

def Phase.Stands (key : ClaimId) (stores : Stores E) : Phase E → Prop
  | .batch (some fence) phase => Standing key stores fence phase
  | .batch none _ => False
  | .release fence _ => Issued key stores.claims fence
  | _ => True

def Phase.fence : Phase E → Option ClaimFence
  | .batch fence _ => fence
  | .release fence _ => some fence
  | _ => none

/-! ## What a step does to a stream -/

/-- What a call of an execution in `phase` does to the claim and the offset of a stream:
nothing, or it takes the claim, or it works under a claim that is its own. -/
inductive StreamEffect (key : ClaimId) (stores : Stores E) (phase : Phase E) (stores' : Stores E) :
    Prop where
  | aside (clock : stores.clock ≤ stores'.clock)
      (claims : stores'.claims.lookup key = stores.claims.lookup key)
      (offsets : stores'.offsets.lookup key = stores.offsets.lookup key)
  | granted (fence : ClaimFence) (row' : ClaimRow) (clock : stores'.clock = stores.clock)
      (free : Claimable stores.claims key fence.fencingToken stores.clock)
      (claims : stores'.claims.lookup key = some row') (names : row'.Names fence)
      (offsets : stores'.offsets.lookup key = stores.offsets.lookup key)
  | owned (fence : ClaimFence) (row row' : ClaimRow) (isFence : phase.fence = some fence)
      (clock : stores'.clock = stores.clock) (found : stores.claims.lookup key = some row)
      (names : row.Names fence) (claims : stores'.claims.lookup key = some row')
      (names' : row'.Names fence)
      (forward : resumesAfter (stores.offsets.lookup key) ≤
        resumesAfter (stores'.offsets.lookup key))

section
variable {key : ClaimId} {stores stores' : Stores E} {phase other : Phase E}

theorem StreamEffect.forward (h : StreamEffect key stores phase stores') :
    resumesAfter (stores.offsets.lookup key) ≤ resumesAfter (stores'.offsets.lookup key) := by
  cases h with
  | aside _ _ offsets | granted _ _ _ _ _ _ offsets =>
    exact Int.le_of_eq (by rw [offsets])
  | owned _ _ _ _ _ _ _ _ _ forward => exact forward

variable {fence : ClaimFence}

/-- A token that was issued is less than the next one. -/
theorem Issued.lt {claims : ClaimTable} (h : Issued key claims fence)
    {token : FencingToken} {now : Timestamp} (hfree : Claimable claims key token now) :
    fence.fencingToken.value < token.value := by
  obtain ⟨row, hrow, hcases⟩ := h
  have hnext := (hfree row hrow).2
  rcases hcases with hlt | ⟨-, heq⟩
  · omega
  · omega

theorem Issued.effect (h : Issued key stores.claims fence)
    (heffect : StreamEffect key stores phase stores')
    (hother : ∀ f, phase.fence = some f → fence.fencingToken.value ≠ f.fencingToken.value) :
    Issued key stores'.claims fence := by
  cases heffect with
  | aside _ claims =>
    obtain ⟨row, hrow, hcases⟩ := h
    exact ⟨row, claims.trans hrow, hcases⟩
  | granted _ row' _ free claims names =>
    have hlt := h.lt free
    have htoken := names.2
    exact ⟨row', claims, .inl (by omega)⟩
  | owned mover _ row' isFence _ found names claims names' =>
    refine ⟨row', claims, .inl ?_⟩
    obtain ⟨row₁, hrow, hcases⟩ := h
    obtain rfl := Option.mem_unique found hrow
    have hne := hother mover isFence
    have htoken := names.2
    have htoken' := names'.2
    rcases hcases with hlt | ⟨-, heq⟩
    · omega
    · omega

/-- **What others do leaves an execution standing**, if its token is its own. -/
theorem Standing.effect {batch : BatchPhase E}
    (h : Standing key stores fence batch) (heffect : StreamEffect key stores phase stores')
    (hother : ∀ f, phase.fence = some f → fence.fencingToken.value ≠ f.fencingToken.value) :
    Standing key stores' fence batch := by
  refine ⟨h.issued.effect heffect hother, ?_, ?_⟩
  · intro row' hrow' htoken
    cases heffect with
    | aside _ claims offsets =>
      rw [offsets]
      exact h.ahead row' (claims.symm.trans hrow') htoken
    | granted _ _ _ free claims names =>
      -- it has been replaced
      have hlt := h.issued.lt free
      have hnext := names.2
      obtain rfl := Option.mem_unique claims hrow'
      omega
    | owned mover _ _ clock _ _ _ claims names' =>
      have hne := hother mover clock
      have hnext := names'.2
      obtain rfl := Option.mem_unique claims hrow'
      omega
  · intro hcommits
    obtain ⟨lease, hlease, hrow⟩ := h.leased hcommits
    refine ⟨lease, hlease, ?_⟩
    intro hlive
    cases heffect with
    | aside clock claims => exact claims.trans (hrow (Int.lt_of_le_of_lt clock hlive))
    | granted granted _ clock free =>
      rw [clock] at hlive
      -- a claim is not granted before the lease has ended
      exact absurd hlive (Int.not_lt.mpr (free _ (hrow hlive)).1)
    | owned mover _ _ isFence clock found names =>
      rw [clock] at hlive
      have heq := Option.some.inj (found.symm.trans (hrow hlive))
      have hne := hother mover isFence
      have htoken := names.2
      rw [heq] at htoken
      exact absurd (Int.ofNat.inj htoken) hne

theorem Phase.Stands.effect (h : other.Stands key stores)
    (heffect : StreamEffect key stores phase stores')
    (hother : ∀ f f', other.fence = some f → phase.fence = some f' →
      f.fencingToken.value ≠ f'.fencingToken.value) : other.Stands key stores' := by
  cases other with
  | batch fence =>
    cases fence with
    | none => exact h
    | some fence => exact Standing.effect h heffect (hother fence · rfl)
  | release fence => exact Issued.effect h heffect (hother fence · rfl)
  | _ => exact h

end

/-! ## A call under a claim -/

section
variable {stored : Int}

theorem ahead_afterFetch (events : TagStream E) (tenant : String) {lastOffset : Option Offset}
    (batchSize : Nat) (h : resumesAfter lastOffset = stored) :
    (afterFetch (paginate events tenant lastOffset batchSize)).Ahead stored := by
  unfold afterFetch
  split
  · trivial
  · refine ⟨?_, by simp⟩
    intro e he
    unfold paginate at he
    split at he
    · cases he
    · have hfound := List.of_mem_filter (List.mem_of_mem_take he)
      simp only [Bool.and_eq_true, decide_eq_true_eq] at hfound
      rw [← h]
      exact hfound.2

theorem ahead_afterCheck {rest unique : TagStream E} (hrest : ∀ e ∈ rest, stored < e.eventVersion)
    (hunique : ∀ e ∈ unique, stored < e.eventVersion) : (afterCheck rest unique).Ahead stored := by
  cases rest with
  | nil =>
    cases unique with
    | nil => trivial
    | cons => exact ⟨by simp, hunique⟩
  | cons => exact ⟨hrest, hunique⟩

theorem ahead_afterMark {offset : Offset} (h : stored < resumesAfter (some offset))
    (rest : TagStream E) (lease : Option Timestamp) :
    (afterMark offset rest lease).Ahead stored := by
  cases rest <;> exact h

theorem ahead_newOffset {unique : TagStream E}
    (h : unique ≠ [] ∧ ∀ e ∈ unique, stored < e.eventVersion) :
    stored < resumesAfter (some (newOffset unique)) := by
  rw [newOffset_of_ne_nil h.1]
  exact h.2 _ (List.getLast_mem h.1)

end

section
variable {key : ClaimId} {backend : OffsetBackend} {session : ReadSideSession}
  {stores stores' : Stores E} {answer : Answer} {fence : ClaimFence} {phase phase' : BatchPhase E}

/-- A call that leaves the claim and the offset alone. -/
theorem Standing.next (h : Standing key stores fence phase) (hclock : stores'.clock = stores.clock)
    (hclaims : stores'.claims = stores.claims) (hoffsets : stores'.offsets = stores.offsets)
    (hahead : ∀ stored, phase.Ahead stored → phase'.Ahead stored)
    (hcommits : phase'.commits = true → phase.commits = true ∧ phase'.lease = phase.lease) :
    Standing key stores' fence phase' := by
  refine ⟨?_, ?_, ?_⟩
  · rw [hclaims]
    exact h.issued
  · intro row hrow htoken
    rw [hclaims] at hrow
    rw [hoffsets]
    exact hahead _ (h.ahead row hrow htoken)
  · intro hcommits'
    obtain ⟨hbefore, hlease⟩ := hcommits hcommits'
    rw [hclock, hclaims, hlease]
    exact h.leased hbefore

/-- A batch that is over has no more to do with the offset. -/
theorem standing_ended (h : Issued key stores.claims fence)
    (hclaims : stores'.claims = stores.claims)
    (result : BatchResult) : Standing key stores' fence (.ended result) := by
  refine ⟨?_, fun _ _ _ => trivial, fun hcommits => by cases hcommits⟩
  rw [hclaims]
  exact h

/-- The row after `renew` went through. -/
theorem lookup_leased (hkey : fence.claimId = key) (claims : ClaimTable) (leaseUntil : Timestamp) :
    (leased claims fence leaseUntil).lookup key =
      some ⟨fence.ownerId, fence.fencingToken.value, leaseUntil⟩ := by
  subst hkey
  exact AList.lookup_insert _

/-- A claim that is renewed or released is the execution's own. -/
theorem StreamEffect.of_held {mover : Phase E} (hkey : fence.claimId = key)
    (hfence : mover.fence = some fence) (hholds : HeldBy stores.claims fence stores.clock)
    (leaseUntil : Timestamp) : StreamEffect key stores mover
      { stores with claims := leased stores.claims fence leaseUntil } := by
  obtain ⟨row, hrow, howner, htoken, -⟩ := hholds
  rw [hkey] at hrow
  exact .owned fence row _ hfence rfl hrow ⟨howner, htoken⟩ (lookup_leased hkey _ _) ⟨rfl, rfl⟩
    (Int.le_refl _)

theorem standing_batch (hsession : session.claimId = key) (hfence : fence.claimId = key)
    (hclaiming : session.claiming.isSome = true) (h : Standing key stores fence phase)
    (hlive : phase.commits = true → ∀ lease, phase.lease = some lease → stores.clock < lease)
    (hmoves : BatchMoves backend session (some fence) stores answer phase stores' phase') :
    Standing key stores' fence phase' ∧
      StreamEffect key stores (.batch (some fence) phase) stores' := by
  have haside : StreamEffect key stores (.batch (some fence) phase) stores :=
    .aside (Int.le_refl _) rfl rfl
  -- after `renew`, the row is as the execution left it
  have howned : phase.commits = true → ∃ row, stores.claims.lookup key = some row ∧
      row.Names fence := by
    intro hcommits
    obtain ⟨lease, hlease, hrow⟩ := h.leased hcommits
    exact ⟨_, hrow (hlive hcommits lease hlease), rfl, rfl⟩
  -- and an offset is written over an earlier one
  have hwrite : ∀ offset stage lease, phase = .write offset stage lease →
      StreamEffect key stores (.batch (some fence) phase)
        { stores with offsets := stores.offsets.insert session.claimId offset } := by
    rintro offset stage lease rfl
    obtain ⟨row, hrow, hnames⟩ := howned rfl
    refine .owned fence row row rfl rfl hrow hnames hrow hnames ?_
    have hahead : resumesAfter (stores.offsets.lookup key) < resumesAfter (some offset) :=
      h.ahead row hrow hnames.2
    subst hsession
    rw [AList.lookup_insert]
    exact Int.le_of_lt hahead
  cases hmoves with
  | readOffset =>
    refine ⟨⟨h.issued, ?_, fun hcommits => by cases hcommits⟩, haside⟩
    intro row hrow htoken
    rw [hsession]
    rfl
  | fetched =>
    exact ⟨h.next rfl rfl rfl (fun _ => ahead_afterFetch _ _ _) (by simp), haside⟩
  | checked =>
    refine ⟨h.next rfl rfl rfl ?_ (by simp), haside⟩
    intro stored hahead
    refine ahead_afterCheck (fun e he => hahead.1 e (List.mem_cons_of_mem _ he)) ?_
    split
    · exact hahead.2
    · intro e he
      obtain hold | rfl := mem_snoc he
      · exact hahead.2 e hold
      · exact hahead.1 e List.mem_cons_self
  | checkedAll =>
    exact ⟨h.next rfl rfl rfl (fun _ hahead => ahead_afterCheck hahead.1 hahead.2)
      (by simp), haside⟩
  | handled unique =>
    obtain ⟨claiming, hsome⟩ := Option.isSome_iff_exists.mp hclaiming
    have hnext : afterHandle session (some fence) unique = .renewClock unique := by
      unfold afterHandle
      rw [hsome]
    rw [hnext]
    exact ⟨h.next rfl rfl rfl (fun _ hahead => hahead) (fun hcommits => by cases hcommits), haside⟩
  | renewClock =>
    exact ⟨h.next rfl rfl rfl (fun _ hahead => hahead) (fun hcommits => by cases hcommits), haside⟩
  | unclaimed _ _ free => cases free
  | renewed _ leaseUntil _ isFence holds =>
    cases isFence
    refine ⟨⟨⟨_, lookup_leased hfence _ _, .inr ⟨rfl, rfl⟩⟩, ?_, ?_⟩,
      .of_held hfence rfl holds leaseUntil⟩
    · intro _ _ _
      obtain ⟨row, hrow, -, htoken, -⟩ := holds
      rw [hfence] at hrow
      exact ahead_afterMark (ahead_newOffset (h.ahead row hrow htoken)) _ _
    · intro _
      exact ⟨leaseUntil, afterMark_lease _ _ _, fun _ => lookup_leased hfence _ _⟩
  | renewLost _ leaseUntil _ _ isFence holds =>
    cases isFence
    exact ⟨⟨⟨_, lookup_leased hfence _ _, .inr ⟨rfl, rfl⟩⟩, fun _ _ _ => trivial,
      fun hcommits => by cases hcommits⟩, .of_held hfence rfl holds leaseUntil⟩
  | marked =>
    exact ⟨h.next rfl rfl rfl (fun _ hahead => ahead_afterMark hahead _ _)
      (fun _ => ⟨rfl, afterMark_lease _ _ _⟩), .aside (Int.le_refl _) rfl rfl⟩
  | markedAll | writeMissed =>
    exact ⟨h.next rfl rfl rfl (fun _ hahead => hahead) (fun _ => ⟨rfl, rfl⟩), haside⟩
  | markLost =>
    exact ⟨standing_ended h.issued (by rfl) _, .aside (Int.le_refl _) rfl rfl⟩
  | wrote offset stage lease | writeLost offset stage lease =>
    exact ⟨standing_ended h.issued (by rfl) _, hwrite offset stage lease rfl⟩
  | ended => exact ⟨h, haside⟩
  | _ =>
    exact ⟨standing_ended h.issued (by rfl) _, haside⟩

variable {phase phase' : Phase E}

theorem stands_moves (hsession : session.claimId = key)
    (hfence : ∀ fence, phase.fence = some fence → fence.claimId = key)
    (hclaiming : session.claiming.isSome = true) (h : phase.Stands key stores)
    (hlive : ∀ held batch, phase = .batch held batch → batch.commits = true →
      ∀ lease, batch.lease = some lease → stores.clock < lease)
    (hmoves : SessionMoves backend session stores answer phase stores' phase') :
    phase'.Stands key stores' ∧ StreamEffect key stores phase stores' := by
  have haside : StreamEffect key stores phase stores := .aside (Int.le_refl _) rfl rfl
  cases hmoves with
  | claimClock | notClaimed | notReleased => exact ⟨trivial, haside⟩
  | claimed claiming _ free =>
    rw [hsession] at free ⊢
    refine ⟨⟨⟨_, lookup_leased rfl _ _, .inr ⟨rfl, rfl⟩⟩, fun _ _ _ => trivial,
      fun hcommits => by cases hcommits⟩, ?_⟩
    exact .granted ⟨key, claiming.owner, answer.token⟩ _ rfl free (lookup_leased rfl _ _) ⟨rfl, rfl⟩
      rfl
  | claimLost claiming _ _ free =>
    rw [hsession] at free ⊢
    exact ⟨trivial, .granted ⟨key, claiming.owner, answer.token⟩ _ rfl free (lookup_leased rfl _ _)
      ⟨rfl, rfl⟩ rfl⟩
  | batch held _ batch' _ moves =>
    cases held with
    | none => exact absurd h id
    | some fence =>
      obtain ⟨hstanding, heffect⟩ := standing_batch hsession (hfence fence rfl) hclaiming h
        (hlive _ _ rfl) moves
      refine ⟨?_, heffect⟩
      cases batch' with
      | ended => exact hstanding.issued
      | _ => exact hstanding
  | released fence _ holds => exact ⟨trivial, .of_held (hfence fence rfl) rfl holds _⟩

theorem effect_other (hsession : session.claimId ≠ key)
    (hfence : ∀ fence, phase.fence = some fence → fence.claimId ≠ key)
    (hmoves : SessionMoves backend session stores answer phase stores' phase') (mover : Phase E) :
    StreamEffect key stores mover stores' := by
  have hleased : ∀ fence leaseUntil, fence.claimId ≠ key →
      StreamEffect key stores mover
        { stores with claims := leased stores.claims fence leaseUntil } := by
    intro fence leaseUntil hne
    exact .aside (Int.le_refl _) (AList.lookup_insert_ne hne.symm) rfl
  cases hmoves with
  | claimClock | notClaimed | notReleased => exact .aside (Int.le_refl _) rfl rfl
  | claimed _ leaseUntil | claimLost _ leaseUntil =>
    exact hleased _ leaseUntil hsession
  | batch _ _ _ _ moves =>
    cases moves with
    | renewed _ leaseUntil fence isFence | renewLost _ leaseUntil fence _ isFence =>
      exact hleased fence leaseUntil (hfence fence isFence)
    | wrote | writeLost =>
      exact .aside (Int.le_refl _) rfl (AList.lookup_insert_ne hsession.symm)
    | _ => exact .aside (Int.le_refl _) rfl rfl
  | released fence => exact hleased fence _ (hfence fence rfl)

/-- The fence of an execution is the one it had, or it is new. -/
theorem fence_moves (hmoves : SessionMoves backend session stores answer phase stores' phase')
    {fence : ClaimFence} (hfence : phase'.fence = some fence) :
    phase.fence = some fence ∨ fence.claimId = session.claimId ∧
      Claimable stores.claims session.claimId fence.fencingToken stores.clock := by
  cases hmoves with
  | claimed _ _ free =>
    cases hfence
    exact .inr ⟨rfl, free⟩
  | batch held _ batch' =>
    left
    cases batch' with
    | ended =>
      cases held with
      | none => cases hfence
      | some => exact hfence
    | _ => exact hfence
  | _ => cases hfence

end

/-! ## Runs -/

/-- What holds of one execution. -/
structure Secured (key : ClaimId) (stores : Stores E) (session : ReadSideSession)
    (phase : Phase E) : Prop where
  fences : ∀ fence, phase.fence = some fence → fence.claimId = session.claimId
  claiming : session.claimId = key → session.claiming.isSome = true
  stands : session.claimId = key → phase.Stands key stores

/-- Execution `i` is one of the stream, under a fence. -/
def Holds (key : ClaimId) (sessions : List (ReadSideSession × Phase E)) (i : Nat)
    (fence : ClaimFence) : Prop :=
  ∃ session phase, sessions[i]? = some (session, phase) ∧ session.claimId = key ∧
    phase.fence = some fence

/-- The executions of the stream have fences with tokens of their own. -/
structure TakeoverInv (key : ClaimId) (s : ReadSideState E) : Prop where
  secured : ∀ (i : Nat) (session : ReadSideSession) (phase : Phase E),
    s.sessions[i]? = some (session, phase) → Secured key s.stores session phase
  sole : ∀ {i j fence fence'}, Holds key s.sessions i fence → Holds key s.sessions j fence' →
    fence.fencingToken.value = fence'.fencingToken.value → i = j

section
variable {key : ClaimId} {backend : OffsetBackend} {s : ReadSideState E}

theorem Phase.Stands.issued {stores : Stores E} {phase : Phase E} (h : phase.Stands key stores)
    {fence : ClaimFence} (hfence : phase.fence = some fence) : Issued key stores.claims fence := by
  cases phase with
  | batch =>
    cases hfence
    exact Standing.issued h
  | release =>
    cases hfence
    exact h
  | _ => cases hfence

/-- One execution has gone on, from `phase` to `phase'`. -/
theorem TakeoverInv.resume (hinv : TakeoverInv key s) {i : Nat}
    {phase phase' : Phase E} {stores' : Stores E} {answer : Answer}
    (hat : s.sessions[i]? = some (session, phase))
    (hmoves : SessionMoves backend session s.stores answer phase stores' phase')
    (hlive : session.claimId = key → ∀ held batch, phase = .batch held batch →
      batch.commits = true → ∀ lease, batch.lease = some lease → s.stores.clock < lease) :
    TakeoverInv key ⟨stores', s.sessions.set i (session, phase')⟩ ∧
      resumesAfter (s.stores.offsets.lookup key) ≤ resumesAfter (stores'.offsets.lookup key) := by
  have hsecured := hinv.secured i session phase hat
  have hown : (session.claimId = key → phase'.Stands key stores') ∧
      ∃ mover, StreamEffect key s.stores mover stores' ∧
        ∀ fence, mover.fence = some fence → session.claimId = key ∧ phase.fence = some fence := by
    by_cases hkey : session.claimId = key
    · obtain ⟨hstands, heffect⟩ := stands_moves hkey
        (fun fence h => (hsecured.fences fence h).trans hkey) (hsecured.claiming hkey)
        (hsecured.stands hkey) (hlive hkey) hmoves
      exact ⟨fun _ => hstands, phase, heffect, fun _ hheld => ⟨hkey, hheld⟩⟩
    · -- on another stream, for this one it is as if it had no claim
      refine ⟨fun h => absurd h hkey, .stopped, ?_, fun _ hheld => by cases hheld⟩
      exact effect_other hkey (fun fence h => (hsecured.fences fence h).trans_ne hkey) hmoves
        .stopped
  obtain ⟨hnext, mover, heffect, hmover⟩ := hown
  -- the fence of the execution is not the one of another
  have hapart : ∀ {j fence fence'}, j ≠ i → Holds key s.sessions j fence → session.claimId = key →
      phase'.fence = some fence' → fence.fencingToken.value ≠ fence'.fencingToken.value := by
    intro j fence fence' hne hholds hkey hheld heq
    rcases fence_moves hmoves hheld with hold | ⟨-, hfree⟩
    · exact hne (hinv.sole hholds ⟨session, phase, hat, hkey, hold⟩ heq)
    · obtain ⟨other, phase₁, hj, hkey', hheld'⟩ := hholds
      rw [hkey] at hfree
      have hlt := (((hinv.secured j other phase₁ hj).stands hkey').issued hheld').lt hfree
      omega
  have hcases : ∀ {j fence}, Holds key (s.sessions.set i (session, phase')) j fence →
      j = i ∧ session.claimId = key ∧ phase'.fence = some fence ∨
        j ≠ i ∧ Holds key s.sessions j fence := by
    rintro j fence ⟨other, phase₁, hj, hkey, hheld⟩
    rcases getElem?_set_cases hat hj with ⟨rfl, heq⟩ | ⟨hne, hold⟩
    · cases heq
      exact .inl ⟨rfl, hkey, hheld⟩
    · exact .inr ⟨hne, other, phase₁, hold, hkey, hheld⟩
  refine ⟨⟨?_, ?_⟩, heffect.forward⟩
  · intro j other phase₁ hj
    rcases getElem?_set_cases hat hj with ⟨-, heq⟩ | ⟨hne, hold⟩
    · cases heq
      refine ⟨?_, hsecured.claiming, hnext⟩
      intro fence hheld
      rcases fence_moves hmoves hheld with hbefore | ⟨hid, -⟩
      · exact hsecured.fences fence hbefore
      · exact hid
    · have hother := hinv.secured j other phase₁ hold
      refine ⟨hother.fences, hother.claiming, fun hkey => (hother.stands hkey).effect heffect ?_⟩
      intro fence fence' hheld hheld' heq
      obtain ⟨hkey', hbefore⟩ := hmover fence' hheld'
      exact hne (hinv.sole ⟨other, phase₁, hold, hkey, hheld⟩
        ⟨session, phase, hat, hkey', hbefore⟩ heq)
  · intro j k fence fence' hj hk heq
    rcases hcases hj with ⟨rfl, hkey, hheld⟩ | ⟨hnej, holdj⟩ <;>
      rcases hcases hk with ⟨rfl, hkey', hheld'⟩ | ⟨hnek, holdk⟩
    · rfl
    · exact absurd heq.symm (hapart hnek holdk hkey hheld)
    · exact absurd heq (hapart hnej holdj hkey' hheld')
    · exact hinv.sole holdj holdk heq

theorem fence_begin (session : ReadSideSession) : (session.begin : Phase E).fence = none := by
  unfold ReadSideSession.begin
  split <;> rfl

theorem stands_begin (hclaiming : session.claiming.isSome = true)
    (stores : Stores E) : session.begin.Stands key stores := by
  obtain ⟨claiming, hsome⟩ := Option.isSome_iff_exists.mp hclaiming
  unfold ReadSideSession.begin
  rw [hsome]
  trivial

/-- Executions that have no fence, because they have just started or have stopped. -/
theorem TakeoverInv.unfenced (hinv : TakeoverInv key s)
    {sessions : List (ReadSideSession × Phase E)}
    (hcases : ∀ (j : Nat) (other : ReadSideSession) (phase : Phase E),
      sessions[j]? = some (other, phase) → s.sessions[j]? = some (other, phase) ∨
        phase.fence = none ∧ (other.claimId = key →
          other.claiming.isSome = true ∧ phase.Stands key s.stores)) :
    TakeoverInv key { s with sessions := sessions } := by
  have hfenced : ∀ {j fence}, Holds key sessions j fence → Holds key s.sessions j fence := by
    rintro j fence ⟨other, phase, hj, hkey, hheld⟩
    rcases hcases j other phase hj with hold | ⟨hnone, -⟩
    · exact ⟨other, phase, hold, hkey, hheld⟩
    · rw [hnone] at hheld
      cases hheld
  refine ⟨?_, ?_⟩
  · intro j other phase hj
    rcases hcases j other phase hj with hold | ⟨hnone, hnew⟩
    · exact hinv.secured j other phase hold
    · refine ⟨?_, fun hkey => (hnew hkey).1, fun hkey => (hnew hkey).2⟩
      intro fence hheld
      rw [hnone] at hheld
      cases hheld
  · intro j k fence fence' hj hk heq
    exact hinv.sole (hfenced hj) (hfenced hk) heq

theorem TakeoverInv.aside (hinv : TakeoverInv key s) {stores : Stores E}
    (hclock : s.stores.clock ≤ stores.clock) (hclaims : stores.claims = s.stores.claims)
    (hoffsets : stores.offsets = s.stores.offsets) :
    TakeoverInv key { s with stores := stores } := by
  refine ⟨?_, hinv.sole⟩
  intro i session phase hat
  have heffect : StreamEffect key s.stores (.stopped : Phase E) stores :=
    .aside hclock (by rw [hclaims]) (by rw [hoffsets])
  have hold := hinv.secured i session phase hat
  refine ⟨hold.fences, hold.claiming, fun hkey => (hold.stands hkey).effect heffect ?_⟩
  intro _ _ _ hnone
  cases hnone

/-- **Every step keeps the fences apart**, and the offset does not go back. -/
theorem TakeoverInv.step (hinv : TakeoverInv key s) {input : ReadSideInput E} {s' : ReadSideState E}
    {output : ReadSideOutput E} (hs : ReadSideSteps backend s input s' output)
    (hclaimed : claimedOnly key ⟨s, input, output, s'⟩ = true)
    (hwithin : withinLease key ⟨s, input, output, s'⟩ = true) :
    TakeoverInv key s' ∧ resumesAfter (s.stores.offsets.lookup key) ≤
      resumesAfter (s'.stores.offsets.lookup key) := by
  cases hs with
  | idle => exact ⟨hinv, Int.le_refl _⟩
  | tick time =>
    refine ⟨hinv.aside (Int.le_add_of_nonneg_right (Int.natCast_nonneg time)) rfl rfl, ?_⟩
    exact Int.le_refl _
  | insert => exact ⟨hinv.aside (Int.le_refl _) rfl rfl, Int.le_refl _⟩
  | execute session =>
    refine ⟨hinv.unfenced ?_, Int.le_refl _⟩
    intro j other phase hj
    rcases getElem?_concat_cases hj with ⟨-, heq⟩ | hold
    · cases heq
      refine .inr ⟨fence_begin session, fun hkey => ?_⟩
      have hclaiming : session.claiming.isSome = true := by
        simpa [claimedOnly, hkey] using hclaimed
      exact ⟨hclaiming, stands_begin hclaiming s.stores⟩
    · exact .inl hold
  | resume _ _ _ _ _ _ at' _ moves =>
    refine hinv.resume at' moves ?_
    rintro hkey held batch rfl hcommits lease hlease
    exact live_of_withinLease hwithin rfl at' hkey hcommits hlease
  | stop i session phase at' =>
    refine ⟨hinv.unfenced ?_, Int.le_refl _⟩
    intro j other phase₁ hj
    rcases getElem?_set_cases at' hj with ⟨-, heq⟩ | ⟨-, hold⟩
    · cases heq
      exact .inr ⟨rfl, fun hkey => ⟨(hinv.secured i session phase at').claiming hkey, trivial⟩⟩
    · exact .inl hold

/-- Who writes within its lease has the claim. -/
theorem TakeoverInv.held (hinv : TakeoverInv key s) {i : Nat} {answer : Answer}
    {fence : Option ClaimFence} {phase : BatchPhase E}
    (hat : s.sessions[i]? = some (session, .batch fence phase)) (hkey : session.claimId = key)
    (hcommits : phase.commits = true)
    (hwithin : withinLease key ((readSide E backend).fire s (.resume i answer)) = true) :
    ∃ held, fence = some held ∧ HeldBy s.stores.claims held s.stores.clock := by
  have hsecured := hinv.secured i session _ hat
  have hstands := hsecured.stands hkey
  cases fence with
  | none => exact absurd hstands id
  | some held =>
    obtain ⟨lease, hlease, hrow⟩ := Standing.leased hstands hcommits
    have hlive : s.stores.clock < lease := live_of_withinLease hwithin rfl hat hkey hcommits hlease
    refine ⟨held, rfl, ⟨held.ownerId, held.fencingToken.value, lease⟩, ?_, rfl, rfl, hlive⟩
    rw [hsecured.fences held rfl, hkey]
    exact hrow hlive

end

/-- What holds of the steps of a run: the offset of the stream does not go back, and who
marks an event or writes the offset has the claim, under a live lease. -/
structure OwnersFenced (key : ClaimId) (h : ReadSideHistory E) : Prop where
  forward : ∀ t ∈ h, resumesAfter (t.pre.stores.offsets.lookup key) ≤
    resumesAfter (t.post.stores.offsets.lookup key)
  owned : ∀ t ∈ h, ∀ i answer session fence phase, t.input = .resume i answer →
    t.pre.sessions[i]? = some (session, .batch fence phase) → session.claimId = key →
    phase.commits = true →
      ∃ held, fence = some held ∧ HeldBy t.pre.stores.claims held t.pre.stores.clock

theorem takeover_run {backend : OffsetBackend} {key : ClaimId} {h : ReadSideHistory E}
    {s : ReadSideState E} (he : (readSide E backend).Run h s)
    (hclaimed : Along (fun _ t => claimedOnly key t = true) h)
    (hwithin : Along (fun _ t => withinLease key t = true) h) :
    TakeoverInv key s ∧ OwnersFenced key h := by
  revert hwithin
  refine he.invariant_along (P := fun h s => Along (fun _ t => withinLease key t = true) h →
    TakeoverInv key s ∧ OwnersFenced key h) ?_ ?_ hclaimed
  · intro _
    refine ⟨⟨?_, ?_⟩, ⟨by simp, by simp⟩⟩
    · intro i session phase hat
      cases hat
    · rintro i j fence fence' ⟨session, phase, hat, -⟩
      cases hat
  · intro h s input _ ih hclaimed hwithin
    obtain ⟨hinv, hfenced⟩ := ih hwithin.of_append
    obtain ⟨hinv', hforward⟩ :=
      hinv.step (readSideSteps_step backend s input) hclaimed hwithin.last
    refine ⟨hinv', ⟨?_, ?_⟩⟩
    · intro t ht
      obtain hold | rfl := mem_snoc ht
      · exact hfenced.forward t hold
      · exact hforward
    · intro t ht i answer session fence phase hinput hat hkey hcommits
      obtain hold | rfl := mem_snoc ht
      · exact hfenced.owned t hold i answer session fence phase hinput hat hkey hcommits
      · cases hinput
        exact hinv.held hat hkey hcommits hwithin.last

/-- **A replaced owner does not rewind**, if every lease that is renewed lasts for the marks
and the offset. -/
theorem owners_fenced {backend : OffsetBackend} {key : ClaimId} {h : ReadSideHistory E}
    {s : ReadSideState E} (he : (readSide E backend).Exec (readSide E backend).init h s)
    (hclaimed : Along (fun _ t => claimedOnly key t = true) h)
    (hwithin : Along (fun _ t => withinLease key t = true) h) : OwnersFenced key h :=
  (takeover_run he hclaimed hwithin).2

/-- A call that goes well, with the token a claim is granted under. -/
def grantedUnder (token : Nat) (h : token < 2 ^ 64) : Answer := ⟨none, .ok (), ⟨token, h⟩⟩

/-- `ann`'s lease ends before it renews its claim. `bob` does the batch. -/
def replacedBeforeRenew : List (ReadSideInput Unit) :=
  [.insert firstOrder, .execute (ordersSession 2 (some ⟨⟨"ann"⟩, 10⟩))] ++
  List.replicate 6 (.resume 0 (grantedUnder 1 FencingToken.initial.inRange)) ++
  [.tick 10, .execute (ordersSession 2 (some ⟨⟨"bob"⟩, 10⟩))] ++
  List.replicate 12 (.resume 1 (grantedUnder 2 (by decide))) ++
  List.replicate 3 (.resume 0 wentWell)

theorem owners_fenced_replaced_before_renew :
    let store := readSide Unit .stoolap
    let h := store.trace store.init replacedBeforeRenew
    let key := (ordersSession 2 none).claimId
    (store.after store.init replacedBeforeRenew).stores.offsets.lookup key = some (.sequence 1) ∧
      (store.after store.init replacedBeforeRenew).sessions.map Prod.snd =
        [.returned (.error (.transient staleOwnerMessage)), .returned (.ok (some (.sequence 1)))] ∧
      OwnersFenced key h :=
  ⟨by decide, rfl, owners_fenced ((readSide Unit .stoolap).exec_trace _ _)
    (.of_positions (by decide)) (.of_positions (by decide))⟩

/-- `ann` has renewed its claim for the first event when its lease ends. `bob` does that
event and another. -/
def replacedAfterRenew : List (ReadSideInput Unit) :=
  [.insert firstOrder, .execute (ordersSession 2 (some ⟨⟨"ann"⟩, 10⟩))] ++
  List.replicate 8 (.resume 0 (grantedUnder 1 FencingToken.initial.inRange)) ++
  [.tick 10, .insert secondOrder, .execute (ordersSession 2 (some ⟨⟨"bob"⟩, 10⟩))] ++
  List.replicate 14 (.resume 1 (grantedUnder 2 (by decide)))

/-- Now `ann` goes on, marks its event and writes its offset. -/
theorem replaced_owner_rewinds :
    let store := readSide Unit .stoolap
    let rest := List.replicate 2 (.resume 0 wentWell)
    let h := store.trace store.init (replacedAfterRenew ++ rest)
    let s := store.after store.init replacedAfterRenew
    let key := (ordersSession 2 none).claimId
    Along (fun _ t => claimedOnly key t = true) h ∧ Along (fun _ t => appendsOnly t = true) h ∧
      s.stores.claims.lookup key = some ⟨⟨"bob"⟩, 2, 10⟩ ∧
      s.sessions[0]? = some (ordersSession 2 (some ⟨⟨"ann"⟩, 10⟩),
        .batch (some ⟨key, ⟨"ann"⟩, .initial⟩) (.mark (.sequence 1)
          [orderEvent "a" 1 (by decide) (by decide)] (some 10))) ∧
      s.stores.offsets.lookup key = some (.sequence 2) ∧
      (store.after s rest).sessions.map Prod.snd =
        [.release ⟨key, ⟨"ann"⟩, .initial⟩ (.ok (some (.sequence 1))),
          .returned (.ok (some (.sequence 2)))] ∧
      (store.after s rest).stores.offsets.lookup key = some (.sequence 1) :=
  ⟨.of_positions (by decide), .of_positions (by decide), by decide, rfl, by decide, rfl, by decide⟩

end EgoRs.ReadSide
