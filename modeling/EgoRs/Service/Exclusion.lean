import EgoRs.Service.DispatchRun

/-! # At Most One Live Permit

Dispatches over the in-memory store. Between two permits for one tenant
and key, the first one's lease ran out, or it was abandoned, or it was
completed and the completed record purged; and a takeover carries a token
above every token granted since the record was created.
-/

namespace EgoRs

open Framework Memory

variable {Op Out Err : Type}

/-- A transition over the in-memory store. -/
abbrev MemTransition (Op Out Err : Type) : Type := RunTransition Memory.port Op Out Err

abbrev MemHistory (Op Out Err : Type) : Type := RunHistory Memory.port Op Out Err

/-! ### Statements over a history -/

/-- When the transition runs, the record is in progress under `fence` and the
clock has reached the `lease_until` recorded in it. -/
def LeaseReached (t : MemTransition Op Out Err) (fence : OwnerFence) : Prop :=
  ∃ fp lease, t.pre.records.lookup fence.operationId =
      some ⟨fp, .inProgress fence.ownerId fence.fencingToken lease⟩ ∧ lease ≤ t.input.now

def AbandonedBy (t : MemTransition Op Out Err) (fence : OwnerFence) : Prop :=
  ∃ now choice, t.input = .maintain now choice (.abandon fence) ∧ t.output = .maintained .done

def CompletedBy (t : MemTransition Op Out Err) (fence : OwnerFence) : Prop :=
  ∃ response, t.output = .finished (some (.complete fence response, .done))

def PurgedBy (t : MemTransition Op Out Err) (id : OperationId) : Prop :=
  ∃ now choice cutoff batch,
    t.input = .maintain now choice (.purgeCompletedBefore cutoff batch) ∧
    t.pre.records.lookup id ≠ none ∧ t.post.records.lookup id = none

/-- The transition is a dispatch on `id` that was told to proceed. -/
def ProceedsOn (t : MemTransition Op Out Err) (id : OperationId) : Prop :=
  ∃ fence, Proceeds t fence ∧ fence.operationId = id

/-- Somewhere in `k`, before anybody else is told to proceed on the id, the
lease of `fence` ran out, or it was abandoned, or its completed record
purged. -/
def Released (k : MemHistory Op Out Err) (fence : OwnerFence) : Prop :=
  ∃ k₁ t k₂, k = k₁ ++ t :: k₂ ∧ (∀ u ∈ k₁, ¬ ProceedsOn u fence.operationId) ∧
    (LeaseReached t fence ∨ AbandonedBy t fence ∨
      (PurgedBy t fence.operationId ∧ ∃ c ∈ k₁, CompletedBy c fence))

/-- Between any two permits for one tenant and key, the first was released. -/
def OneLivePermit (sys : Deployment Op Out Err) (h : MemHistory Op Out Err) : Prop :=
  ∀ h₁ g₁ h₂ g₂ h₃ op₁ op₂ tenant key value₁ value₂ fence₁ fence₂,
    h = h₁ ++ g₁ :: (h₂ ++ g₂ :: h₃) →
    Presents sys g₁ op₁ tenant key value₁ → Proceeds g₁ fence₁ →
    Presents sys g₂ op₂ tenant key value₂ → Proceeds g₂ fence₂ →
    Released (h₂ ++ [g₂]) fence₁

/-- The transition is a dispatch that created the record of `id`. -/
def CreatesOn (t : MemTransition Op Out Err) (id : OperationId) : Prop :=
  ProceedsOn t id ∧ t.pre.records.lookup id = none

/-- A permit given over an existing record (a takeover) carries a token above
every token granted on the id since the record was last created. -/
def TakeoverTokensGrow (h : MemHistory Op Out Err) : Prop :=
  ∀ h₁ g h₂ t h₃ fence fence',
    h = h₁ ++ g :: (h₂ ++ t :: h₃) →
    Proceeds g fence → Proceeds t fence' → fence'.operationId = fence.operationId →
    t.pre.records.lookup fence.operationId ≠ none →
    (∀ u ∈ h₂, ¬ CreatesOn u fence.operationId) →
    fence.fencingToken.value < fence'.fencingToken.value

/-! ### What a step does to one record -/

/-- What the run shows of the store call a step made. -/
structure Shows (t : MemTransition Op Out Err) (call : Call) (reply : Reply) : Prop where
  proceeds : ∀ fence, Proceeds t fence ↔ reply.Grants fence
  completes : ∀ fence response, call = .complete fence response → reply = .done →
    CompletedBy t fence
  abandons : ∀ fence, call = .abandon fence → reply = .done → AbandonedBy t fence
  purges : ∀ cutoff batch, call = .purgeCompletedBefore cutoff batch →
    ∃ now choice, t.input = .maintain now choice (.purgeCompletedBefore cutoff batch)

variable {t : MemTransition Op Out Err} {reply : Reply} {sys : Deployment Op Out Err}
  {k : MemHistory Op Out Err} {fence : OwnerFence}

/-- A `reserve` neither completes, nor abandons, nor purges. -/
theorem Shows.of_reserve {req : ReserveRequest} (h : ∀ fence, Proceeds t fence ↔ reply.Grants fence)
    : Shows t (.reserve req) reply :=
  ⟨h, by simp, by simp, by simp⟩

theorem not_proceeds_of_begun_error {r : Except Err Out} (h : t.output = .begun (.error r))
    (fence : OwnerFence) : ¬ Proceeds t fence := by
  rintro ⟨ctx, hout⟩
  rw [h] at hout
  cases hout

theorem not_grants_of_error {rejection : ReservationRejection}
    (h : decideOutcome reply = .error rejection) (fence : OwnerFence) : ¬ reply.Grants fence := by
  intro hg
  cases reply with
  | outcome o =>
    cases o with
    | fresh | takenOver => cases h
    | _ => cases hg
  | done | purged | failed => cases hg

/-- A step leaves the records alone and tells nobody to proceed, or shows its one reply. -/
theorem step_shows (ht : t = (sys.machine Memory.port).fire t.pre t.input) :
    (t.post.records = t.pre.records ∧ ∀ fence, ¬ Proceeds t fence) ∨
    ∃ call reply, Step t.pre.records t.input.now call t.post.records reply ∧
      Shows t call reply := by
  have hm := moves_of_fire ht
  obtain ⟨pre, input, output, post⟩ := t
  simp only at hm
  cases hm with
  | refused =>
    exact Or.inl ⟨rfl, not_proceeds_of_begun_error rfl⟩
  | unreserved | idle | unrecorded _ _ _ c hc =>
    refine Or.inl ⟨rfl, ?_⟩
    rintro fence ⟨c, hc⟩
    cases hc
  | rejected _ _ turn _ _ config tenant key value _ _ hreply =>
    refine Or.inr ⟨.reserve _, (sys.asks pre turn config tenant key value).2,
      Memory.port_step pre.store turn.storeClock turn.choice _, .of_reserve ?_⟩
    intro fence
    exact iff_of_false (not_proceeds_of_begun_error rfl fence) (not_grants_of_error hreply fence)
  | replayed _ _ turn _ _ config tenant key value _ _ hreply =>
    refine Or.inr ⟨.reserve _, (sys.asks pre turn config tenant key value).2,
      Memory.port_step pre.store turn.storeClock turn.choice _, .of_reserve ?_⟩
    intro fence
    refine iff_of_false (not_proceeds_of_begun_error rfl fence) ?_
    rw [decideOutcome_replay hreply]
    intro hgrants
    cases hgrants
  | granted _ _ turn _ ctx' _ config tenant key value _ _ _ _ hreply =>
    refine Or.inr ⟨.reserve _, (sys.asks pre turn config tenant key value).2,
      Memory.port_step pre.store turn.storeClock turn.choice _, .of_reserve ?_⟩
    intro fence
    have hgrants := decideOutcome_proceed hreply
    unfold Reply.Grants at hgrants ⊢
    rw [hgrants, Option.some.injEq]
    constructor
    · rintro ⟨c, hc⟩
      cases hc
      rfl
    · rintro rfl
      exact ⟨ctx', rfl⟩
  | recorded _ turn _ c permit stored hc =>
    have hs := Memory.port_step pre.store turn.storeClock turn.choice
      (.complete permit.fence stored)
    refine Or.inr ⟨.complete permit.fence stored, _, hs, ?_⟩
    refine ⟨fun fence => ?_, ?_, by simp, by simp⟩
    · refine iff_of_false ?_ (hs.not_grants (by simp) fence)
      rintro ⟨c, hc⟩
      cases hc
    · intro fence response hcall hdone
      cases hcall
      exact ⟨stored, by simp only [hdone]⟩
  | maintained now choice m =>
    have hs := Memory.port_step pre.store now choice m.call
    refine Or.inr ⟨m.call, _, hs, ?_⟩
    refine ⟨fun fence => ?_, ?_, ?_, ?_⟩
    · have hcall : ∀ req, m.call ≠ .reserve req := by cases m <;> simp [Maintenance.call]
      refine iff_of_false ?_ (hs.not_grants hcall fence)
      rintro ⟨c, hc⟩
      cases hc
    · intro fence response hcall
      cases m <;> cases hcall
    · intro fence hcall hdone
      cases m with
      | abandon =>
        cases hcall
        exact ⟨now, choice, rfl, by simp only [hdone]⟩
      | renew | purgeCompletedBefore => cases hcall
    · intro cutoff batch hcall
      cases m with
      | purgeCompletedBefore =>
        cases hcall
        exact ⟨now, choice, rfl⟩
      | renew | abandon => cases hcall

section
variable {sys : Deployment Op Out Err} {t : MemTransition Op Out Err}

theorem not_proceedsOn_of_not_grantsOn {call : Call} {reply : Reply} {id : OperationId}
    (hshows : Shows t call reply) (hno : ¬ reply.GrantsOn id) : ¬ ProceedsOn t id := by
  rintro ⟨fence, hp, rfl⟩
  exact hno ((hshows.proceeds fence).mp hp).grantsOn

variable {fence : OwnerFence}

/-- A permit is for the tenant and key that were presented. -/
theorem proceeds_operationId (ht : t = (sys.machine Memory.port).fire t.pre t.input) {op : Op}
    {tenant : Option TenantId} {key : OperationKey} {value : JsonValue}
    (hpres : Presents sys t op tenant key value) (hp : Proceeds t fence) :
    fence.operationId = ⟨tenant, key⟩ := by
  have hm := moves_of_fire ht
  obtain ⟨handle, turn, ctx, hin, hkey, hscope⟩ := hpres
  obtain ⟨ctx', hout⟩ := hp
  rw [hin, hout] at hm
  generalize t.post = post at hm
  cases hm with
  | granted _ _ _ _ _ _ config tenant' key' value' _ hr _ _ hreply =>
    have hk : key = key' := Option.mem_unique hkey hr.key
    have hten : tenant = tenant' := Option.mem_unique hscope hr.scope
    subst hk hten
    have hs := Memory.port_step t.pre.store turn.storeClock turn.choice (.reserve
      (config.request turn tenant key (operationFingerprint sys.plat.sha256 value')))
    exact hs.grants_operationId (decideOutcome_proceed hreply)

/-- A dispatch told to proceed leaves the record in progress under its fence. -/
theorem record_of_proceeds (ht : t = (sys.machine Memory.port).fire t.pre t.input)
    (hp : Proceeds t fence) : (∃ fp lease, t.post.records.lookup fence.operationId =
      some ⟨fp, .inProgress fence.ownerId fence.fencingToken lease⟩) ∧
    (t.pre.records.lookup fence.operationId = none ∨
      ∃ fp owner token lease, t.pre.records.lookup fence.operationId =
        some ⟨fp, .inProgress owner token lease⟩ ∧ fence.fencingToken.value = token.value + 1) := by
  rcases step_shows ht with ⟨-, hno⟩ | ⟨call, reply, hs, hshows⟩
  · exact absurd hp (hno fence)
  · have hg := (hshows.proceeds fence).mp hp
    obtain ⟨id, holder, given⟩ := fence
    have hc := hs.change id
    generalize t.pre.records.lookup id = before, t.post.records.lookup id = after at hc
    cases hc with
    | kept _ hgrant => exact absurd hg.grantsOn hgrant
    | created _ _ _ hreply =>
      rw [hreply] at hg
      cases hg
      exact ⟨⟨_, _, rfl⟩, Or.inl rfl⟩
    | takenOver _ _ token _ _ _ _ _ hnext hreply =>
      rw [hreply] at hg
      cases hg
      exact ⟨⟨_, _, rfl⟩, Or.inr ⟨_, _, token, _, rfl, FencingToken.next_value hnext⟩⟩
    | renewed _ _ _ _ _ _ hreply | completed _ _ _ _ _ _ hreply | abandoned _ _ _ _ _ hreply
    | purged _ _ _ _ _ _ _ hreply =>
      rw [hreply] at hg
      cases hg

end

/-! ### The first permit stands until it is released -/

/-- Nobody else was told to proceed, and the record is still held or completed under the fence. -/
def Standing (k : MemHistory Op Out Err) (st : RunState Memory.port Op) (fence : OwnerFence) :
    Prop :=
  (∀ u ∈ k, ¬ ProceedsOn u fence.operationId) ∧
    ((∃ fp lease, st.records.lookup fence.operationId =
        some ⟨fp, .inProgress fence.ownerId fence.fencingToken lease⟩) ∨
      ((∃ fp response at', st.records.lookup fence.operationId =
        some ⟨fp, .completed response at'⟩) ∧ ∃ c ∈ k, CompletedBy c fence))

theorem Released.snoc (hr : Released k fence) (t : MemTransition Op Out Err) :
    Released (k ++ [t]) fence := by
  obtain ⟨k₁, u, k₂, rfl, rest⟩ := hr
  exact ⟨k₁, u, k₂ ++ [t], by simp, rest⟩

theorem forall_mem_snoc {α : Type} {p : α → Prop} {l : List α} {x : α} (hl : ∀ u ∈ l, p u)
    (hx : p x) : ∀ u ∈ l ++ [x], p u := by
  intro u hu
  obtain hu | rfl := mem_snoc hu
  · exact hl u hu
  · exact hx

/-- One step releases a standing permit or leaves it standing. -/
theorem standing_step (ht : t = (sys.machine Memory.port).fire t.pre t.input)
    (hst : Standing k t.pre fence) :
    Released (k ++ [t]) fence ∨ Standing (k ++ [t]) t.post fence := by
  obtain ⟨hquiet, hrec⟩ := hst
  rcases step_shows ht with ⟨hsame, hno⟩ | ⟨call, reply, hs, hshows⟩
  · right
    refine ⟨forall_mem_snoc hquiet ?_, ?_⟩
    · rintro ⟨fence', hp, -⟩
      exact hno fence' hp
    · rw [hsame]
      exact hrec.imp id fun ⟨hdone, c, hc, hcb⟩ => ⟨hdone, c, List.mem_append_left _ hc, hcb⟩
  obtain ⟨id, holder, held⟩ := fence
  have hc := hs.change id
  have hquiet' (hno : ¬ reply.GrantsOn id) : ∀ u ∈ k ++ [t], ¬ ProceedsOn u id :=
    forall_mem_snoc hquiet (not_proceedsOn_of_not_grantsOn hshows hno)
  rcases hrec with ⟨fp, lease, hpre⟩ | ⟨⟨fp, response, at', hpre⟩, c, hcmem, hcb⟩
  · -- in progress under the fence
    simp only at hpre
    rw [hpre] at hc
    generalize hpost : t.post.records.lookup id = after at hc
    cases hc with
    | kept _ hgrant =>
      right
      exact ⟨hquiet' hgrant, Or.inl ⟨fp, lease, hpost⟩⟩
    | takenOver _ _ _ _ _ _ _ hexp =>
      left
      exact ⟨k, t, [], rfl, hquiet, Or.inl ⟨_, lease, hpre, hexp⟩⟩
    | renewed _ _ _ _ until' _ hreply =>
      right
      exact ⟨hquiet' (hreply ▸ Reply.not_grantsOn_done id), Or.inl ⟨fp, until', hpost⟩⟩
    | completed _ _ _ _ response hcall hreply =>
      right
      exact ⟨hquiet' (hreply ▸ Reply.not_grantsOn_done id),
        Or.inr ⟨⟨fp, response, _, hpost⟩, t, by simp, hshows.completes _ response hcall hreply⟩⟩
    | abandoned _ _ _ _ hcall hreply =>
      left
      exact ⟨k, t, [], rfl, hquiet, Or.inr (Or.inl (hshows.abandons _ hcall hreply))⟩
  · -- completed under the fence
    simp only at hpre
    rw [hpre] at hc
    generalize hpost : t.post.records.lookup id = after at hc
    cases hc with
    | kept _ hgrant =>
      right
      exact ⟨hquiet' hgrant,
        Or.inr ⟨⟨fp, response, at', hpost⟩, c, List.mem_append_left _ hcmem, hcb⟩⟩
    | purged cutoff batch _ _ _ _ hcall =>
      left
      obtain ⟨now, choice, hin⟩ := hshows.purges cutoff batch hcall
      exact ⟨k, t, [], rfl, hquiet, Or.inr (Or.inr
        ⟨⟨now, choice, cutoff, batch, hin, by simp [hpre], hpost⟩, c, hcmem, hcb⟩)⟩

variable {s s' : RunState Memory.port Op}

theorem standing_run (he : (sys.machine Memory.port).Exec s k s')
    (hs : ∃ fp lease, s.records.lookup fence.operationId =
      some ⟨fp, .inProgress fence.ownerId fence.fencingToken lease⟩) :
    Released k fence ∨ Standing k s' fence := by
  induction he with
  | nil => exact Or.inr ⟨by simp, Or.inl hs⟩
  | @snoc k v i _ ih =>
    rcases ih with hr | hst
    · exact Or.inl (hr.snoc _)
    · exact standing_step (t := (sys.machine Memory.port).fire v i) rfl hst

variable {h : MemHistory Op Out Err} {st : RunState Memory.port Op}

theorem oneLivePermit (he : (sys.machine Memory.port).Run h st) : OneLivePermit sys h := by
  intro h₁ g₁ h₂ g₂ h₃ op₁ op₂ tenant key value₁ value₂ fence₁ fence₂ hh hpres₁ hp₁ hpres₂ hp₂
  subst hh
  obtain ⟨-, hfire₁, hrest⟩ := he.split_at
  obtain ⟨hmid, hfire₂, -⟩ := hrest.split_at
  have hid : fence₁.operationId = fence₂.operationId :=
    (proceeds_operationId hfire₁ hpres₁ hp₁).trans (proceeds_operationId hfire₂ hpres₂ hp₂).symm
  have hfirst := (record_of_proceeds hfire₁ hp₁).1
  have hrun : (sys.machine Memory.port).Exec g₁.post (h₂ ++ [g₂]) g₂.post := by
    rw [hfire₂]
    exact Machine.Exec.snoc g₂.input hmid
  -- the second permit is itself one, so the first does not stand any more
  rcases standing_run hrun hfirst with hr | ⟨hquiet, -⟩
  · exact hr
  · exact absurd ⟨fence₂, hp₂, hid.symm⟩ (hquiet g₂ (by simp))

/-! ### Tokens grow while the record lives -/

/-- The record of `id`, while it is in progress, has a token from `n` on. -/
def TokenFrom (n : Nat) (records : Records) (id : OperationId) : Prop :=
  ∀ fp owner token lease,
    records.lookup id = some ⟨fp, .inProgress owner token lease⟩ → n ≤ token.value

/-- One step keeps the token from falling, unless it creates the record anew. -/
theorem token_step {id : OperationId} {n : Nat}
    (ht : t = (sys.machine Memory.port).fire t.pre t.input) (hpre : TokenFrom n t.pre.records id) :
    CreatesOn t id ∨ TokenFrom n t.post.records id := by
  rcases step_shows ht with ⟨hsame, -⟩ | ⟨call, reply, hstep, hshows⟩
  · right
    rw [hsame]
    exact hpre
  have hc := hstep.change id
  unfold TokenFrom at hpre ⊢
  generalize hbefore : t.pre.records.lookup id = before at hc hpre
  generalize t.post.records.lookup id = after at hc
  cases hc with
  | created req _ _ hreply =>
    left
    have hgrants : reply.Grants ⟨id, req.ownerId, .initial⟩ := by
      rw [hreply]
      rfl
    exact ⟨⟨_, (hshows.proceeds _).mpr hgrants, rfl⟩, hbefore⟩
  | kept => exact Or.inr hpre
  | takenOver _ _ _ _ _ _ _ _ hnext =>
    right
    intro fp owner' token'' lease' heq
    cases heq
    have hold := hpre _ _ _ _ rfl
    have hnew := FencingToken.next_value hnext
    omega
  | renewed =>
    right
    intro fp' owner' token' lease' heq
    cases heq
    exact hpre _ _ _ _ rfl
  | completed | abandoned | purged =>
    right
    intro fp' owner' token' lease' heq
    cases heq

/-- From a state where the token on `id` is at least `n`, it stays so until a
dispatch creates the record anew. -/
theorem token_run {id : OperationId} {n : Nat}
    (he : (sys.machine Memory.port).Exec s k s') (hs : TokenFrom n s.records id) :
    (∃ u ∈ k, CreatesOn u id) ∨ TokenFrom n s'.records id := by
  induction he with
  | nil => exact Or.inr hs
  | @snoc k v i _ ih =>
    rcases ih with ⟨u, hu, hcreates⟩ | hv
    · exact Or.inl ⟨u, List.mem_append_left _ hu, hcreates⟩
    · rcases token_step (t := (sys.machine Memory.port).fire v i) rfl hv with hcreates | hnext
      · exact Or.inl ⟨_, List.mem_append_right k (List.mem_singleton_self _), hcreates⟩
      · exact Or.inr hnext

theorem takeoverTokensGrow (he : (sys.machine Memory.port).Run h st) : TakeoverTokensGrow h := by
  intro h₁ g h₂ t h₃ fence fence' hh hg ht hid hpre hnone
  subst hh
  obtain ⟨-, hfire, hrest⟩ := he.split_at
  obtain ⟨hmid, hfire', -⟩ := hrest.split_at
  obtain ⟨⟨fp, lease, hpost⟩, -⟩ := record_of_proceeds hfire hg
  have hstart : TokenFrom fence.fencingToken.value g.post.records fence.operationId := by
    intro fp' owner' token' lease' heq
    rw [hpost] at heq
    cases heq
    exact Nat.le_refl _
  rcases token_run hmid hstart with ⟨u, hu, hcreates⟩ | hbound
  · exact absurd hcreates (hnone u hu)
  · obtain ⟨-, habs | ⟨fp', owner', token', lease', hrec, hnext⟩⟩ := record_of_proceeds hfire' ht
    · rw [hid] at habs
      exact absurd habs hpre
    · rw [hid] at hrec
      have hle := hbound fp' owner' token' lease' hrec
      omega

/-- **At most one live permit per operation.** In every run of dispatches over
the in-memory store, with any operations, runtimes, owners and clock. -/
theorem at_most_one_live_permit {sys : Deployment Op Out Err} {h : MemHistory Op Out Err}
    {st : RunState Memory.port Op}
    (he : (sys.machine Memory.port).Exec (sys.machine Memory.port).init h st) :
    OneLivePermit sys h ∧ TakeoverTokensGrow h :=
  ⟨oneLivePermit he, takeoverTokensGrow he⟩

def oneOperation : Deployment Unit Json (SecurityError ⊕ ReservationRejection) where
  plat := samplePlatform
  decl := fun _ => sampleOperation "place"

/-- Two calls of it with the same key, the second when the lease of the first
has just run out. -/
def retriedAtExpiry : List
    (RunInput Memory.port Unit Json (SecurityError ⊕ ReservationRejection)) :=
  [.begin () sampleHandle (sampleTurn 0) sampleContext (some ⟨.null, trivial⟩),
    .begin () sampleHandle (sampleTurn 10) sampleContext (some ⟨.null, trivial⟩)]

theorem at_most_one_live_permit_retried :
    (((oneOperation.machine Memory.port).after (oneOperation.machine Memory.port).init
        retriedAtExpiry).calls.map fun c => c.decision) =
      [some (.proceed ⟨⟨some ⟨"t", by decide⟩, sampleKey⟩, ⟨"a"⟩, ⟨1, by decide⟩⟩),
        some (.proceed ⟨⟨some ⟨"t", by decide⟩, sampleKey⟩, ⟨"a"⟩, ⟨2, by decide⟩⟩)] ∧
      OneLivePermit oneOperation ((oneOperation.machine Memory.port).trace
        (oneOperation.machine Memory.port).init retriedAtExpiry) ∧
      TakeoverTokensGrow ((oneOperation.machine Memory.port).trace
        (oneOperation.machine Memory.port).init retriedAtExpiry) :=
  ⟨by decide, at_most_one_live_permit ((oneOperation.machine Memory.port).exec_trace _ _)⟩

end EgoRs
