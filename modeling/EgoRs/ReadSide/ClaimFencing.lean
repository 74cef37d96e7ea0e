import EgoRs.ReadSide.ClaimRun

/-! # Fencing of Read-Side Claims

The row of a claim is never deleted, so its token counts every grant there
was, and a fence works only while the row has its token. That makes the
tokens increase, leaves one holder at a time and shuts out a fence that was
superseded.

A released fence still has its token in the row. What shuts it out is the
lapsed lease, and whether that has lapsed is judged by the clock reading a
call comes with: a `renew` that has read the clock before the `release` of
the same fence did, and reaches the table after it, goes through. And a token
that fills its column has no successor, so the last holder's release frees
nothing.
-/

namespace EgoRs.ReadSide

open Framework Durable

/-! ## Histories -/

def ClaimOutput.granted (output : ClaimOutput) : Option ClaimFence :=
  match output.reply with
  | some (.claimed (some fence)) => some fence
  | _ => none

def grants (h : ClaimHistory) : List ClaimFence := h.filterMap fun t => t.output.granted

/-- The call that goes on, as far as it had got. -/
def resumed (t : ClaimEvent) : Option ClaimProgress :=
  match t.input with
  | .advance k => t.pre.calls[k]?
  | .lose k _ => t.pre.calls[k]?
  | _ => none

/-- The fence a step has set the lease of, and that lease. -/
def leaseSet (t : ClaimEvent) : Option (ClaimFence × Timestamp) :=
  match resumed t, t.output.reply with
  | some progress, some (.claimed (some fence)) =>
    progress.taking.map fun req => (fence, req.leaseUntil)
  | some (.mutate fence _ _ leaseUntil _), some .done => some (fence, leaseUntil)
  | _, _ => none

/-- The lease of a fence: the last one that was set. -/
def leaseOf (h : ClaimHistory) (fence : ClaimFence) : Option Timestamp :=
  h.foldl (fun held t =>
    match leaseSet t with
    | some (other, lease) => if other = fence then some lease else held
    | none => held) none

/-- The fence a step has released, and the reading it was released with. -/
def releaseOf (t : ClaimEvent) : Option (ClaimFence × Timestamp) :=
  match resumed t, t.output.reply with
  | some (.mutate fence true _ leaseUntil _), some .done => some (fence, leaseUntil)
  | _, _ => none

def ClaimProgress.fence : ClaimProgress → Option ClaimFence
  | .releaseClock fence => some fence
  | .mutateClock fence _ _ => some fence
  | .mutate fence _ _ _ _ => some fence
  | _ => none

def Superseded (h : ClaimHistory) (fence : ClaimFence) : Prop :=
  ∃ later ∈ grants h, later.claimId = fence.claimId ∧
    fence.fencingToken.value < later.fencingToken.value

/-- How many steps of its own a call has left, at most. -/
def ClaimProgress.remaining : ClaimProgress → Nat
  | .insert _ => 4
  | .select _ => 3
  | .takeOverClock _ _ => 2
  | .takeOver _ _ _ _ _ => 1
  | .upsertClock _ => 2
  | .upsert _ _ => 1
  | .releaseClock _ => 3
  | .mutateClock _ _ _ => 2
  | .mutate _ _ _ _ _ => 1
  | .returned _ => 0

/-- An UPDATE of `renew` or `release` under this fence comes with a reading no older
than the one the fence was released with. -/
def ReadsAfterRelease (fence : ClaimFence) (h : ClaimHistory) (t : ClaimEvent) : Prop :=
  ∀ isRelease token leaseUntil now reading,
    resumed t = some (.mutate fence isRelease token leaseUntil now) →
    (fence, reading) ∈ h.filterMap releaseOf → reading ≤ now

/-- After the step `t`, call `k` is made to take the claim `id`, and returns `reply` by
a step of its own, with the row as `t` left it until then. -/
def NextReply (t : ClaimEvent) (h : ClaimHistory) (id : ClaimId) (req : TryClaim) (k : Nat)
    (reply : ClaimReply) : Prop :=
  req.claimId = id ∧ ∃ (m n : Nat) (u v : ClaimEvent), m < n ∧
    h[m]? = some u ∧ u.input = .invoke (.tryClaim req) ∧ u.output = .invoked k ∧
    h[n]? = some v ∧ v.input = .advance k ∧ v.output = .returned k reply ∧
    ∀ w ∈ h.take n, w.post.table.lookup id = t.post.table.lookup id

/-- **Claims are fenced.** -/
structure ClaimFencing (h : ClaimHistory) (s : ClaimState) : Prop where
  /-- The tokens of a claim increase over the whole history. -/
  increasing : (grants h).Pairwise fun f g => f.claimId = g.claimId →
    f.fencingToken.value < g.fencingToken.value
  /-- One fence at most is unexpired. -/
  exclusive : ∀ f g lease lease', f.claimId = g.claimId → leaseOf h f = some lease →
    s.clock < lease → leaseOf h g = some lease' → s.clock < lease' → f = g
  /-- A superseded fence never works again. -/
  superseded : ∀ n t progress fence reply, h[n]? = some t → resumed t = some progress →
    progress.fence = some fence → Superseded (h.take n) fence → t.output.reply = some reply →
    ∃ e, reply = .failed e
  /-- Nor does a released one, if no call of its own reads the clock before the release
      and writes after it. -/
  released : ∀ fence, Along (ReadsAfterRelease fence) h →
    ∀ n t progress reading reply, h[n]? = some t → resumed t = some progress →
    progress.fence = some fence → (fence, reading) ∈ (h.take n).filterMap releaseOf →
    t.output.reply = some reply → ∃ e, reply = .failed e
  /-- A call that is refused or fails, or is not over, leaves the table, unless what is
      lost is the answer to a success. -/
  unchanged : ∀ t ∈ h, t.output.writes = false → t.post.table = t.pre.table
  /-- The next call to take a released claim gets it, unless its tokens are used up. -/
  reclaimed : ∀ h₁ t h₂ fence reading, h = h₁ ++ t :: h₂ → releaseOf t = some (fence, reading) →
    ∀ req k reply, NextReply t h₂ fence.claimId req k reply →
    (∃ token : FencingToken, token.value = fence.fencingToken.value + 1 ∧
      reply = .claimed (some ⟨fence.claimId, req.ownerId, token⟩)) ∨
    fence.fencingToken.value + 1 = 2 ^ 63 ∧ reply = .failed .fencingExhausted
  /-- A call is over after at most four steps of its own. -/
  ends : ∀ t ∈ h, ∀ k progress, t.input = .advance k → t.pre.calls[k]? = some progress →
    progress.remaining ≤ 4 ∧ (progress.pending = true →
      ∃ progress', t.post.calls[k]? = some progress' ∧ progress'.remaining < progress.remaining)

/-! ## What a step adds to the history -/

section
variable {h : ClaimHistory} {s s' : ClaimState} {input : ClaimInput} {output : ClaimOutput}
  {t : ClaimEvent}

theorem leaseOf_snoc (h : ClaimHistory) (t : ClaimEvent) (fence : ClaimFence) :
    leaseOf (h ++ [t]) fence =
      match leaseSet t with
      | some (other, lease) => if other = fence then some lease else leaseOf h fence
      | none => leaseOf h fence := by
  unfold leaseOf
  rw [List.foldl_append]
  rfl

theorem grants_snoc (h : ClaimHistory) (t : ClaimEvent) :
    grants (h ++ [t]) = grants h ++ t.output.granted.toList := by
  unfold grants
  rw [List.filterMap_append]
  cases hgranted : t.output.granted <;> simp [hgranted]

theorem granted_of_silent (hsilent : output.writes = false) : output.granted = none := by
  unfold ClaimOutput.granted
  unfold ClaimOutput.writes at hsilent
  split
  · rename_i hreply
    rw [hreply] at hsilent
    cases hsilent
  · rfl

theorem leaseSet_of_silent (hsilent : t.output.writes = false) : leaseSet t = none := by
  unfold leaseSet
  unfold ClaimOutput.writes at hsilent
  split
  · rename_i houtput
    rw [houtput] at hsilent
    cases hsilent
  · rename_i houtput
    rw [houtput] at hsilent
    cases hsilent
  · rfl

theorem leaseSet_of_releaseOf {r : ClaimFence × Timestamp} (hr : releaseOf t = some r) :
    leaseSet t = some r := by
  unfold releaseOf at hr
  split at hr
  · rename_i hresumed houtput
    unfold leaseSet
    rw [hresumed, houtput]
    exact hr
  · cases hr

end

/-! ## Tokens and leases -/

/-- A row has one owner and one token, so it works for one fence. -/
theorem ClaimFence.eq_of_row {f g : ClaimFence} (hid : f.claimId = g.claimId)
    (howner : f.ownerId = g.ownerId)
    (htoken : (f.fencingToken.value : Int) = g.fencingToken.value) : f = g := by
  have htokens : f.fencingToken = g.fencingToken := FencingToken.ext_value (by omega)
  cases f
  cases g
  simp only at hid howner htokens
  rw [hid, howner, htokens]

/-- What the table says about the history. -/
structure Fenced (h : ClaimHistory) (s : ClaimState) : Prop where
  granted : ∀ f ∈ grants h, ∃ row, s.table.lookup f.claimId = some row ∧
    (f.fencingToken.value : Int) ≤ row.fencingToken
  increasing : (grants h).Pairwise fun f g => f.claimId = g.claimId →
    f.fencingToken.value < g.fencingToken.value
  held : ∀ f lease, leaseOf h f = some lease → s.clock < lease →
    s.table.lookup f.claimId = some ⟨f.ownerId, f.fencingToken.value, lease⟩

section
variable {h : ClaimHistory} {s s' : ClaimState} {input : ClaimInput} {output : ClaimOutput}

theorem Fenced.quiet (hf : Fenced h s) (hclock : s.clock ≤ s'.clock) (htable : s'.table = s.table)
    (hsilent : output.writes = false) : Fenced (h ++ [⟨s, input, output, s'⟩]) s' := by
  have hgrants : grants (h ++ [⟨s, input, output, s'⟩]) = grants h := by
    rw [grants_snoc, granted_of_silent hsilent]
    exact List.append_nil _
  refine ⟨?_, ?_, ?_⟩
  · rw [hgrants, htable]
    exact hf.granted
  · rw [hgrants]
    exact hf.increasing
  · intro f lease hlease hlive
    rw [leaseOf_snoc, leaseSet_of_silent hsilent] at hlease
    rw [htable]
    exact hf.held f lease hlease (Int.lt_of_le_of_lt hclock hlive)

/-- When the row of a fence is written, every other fence of the claim is older and has lapsed. -/
theorem Fenced.writing (hf : Fenced h s) {fence : ClaimFence} {leaseUntil : Timestamp}
    (hset : leaseSet ⟨s, input, output, s'⟩ = some (fence, leaseUntil))
    (hgrants : ∀ f ∈ output.granted, f = fence ∧ ∀ g ∈ grants h, g.claimId = fence.claimId →
      g.fencingToken.value < fence.fencingToken.value)
    (hle : ∀ g ∈ grants h, g.claimId = fence.claimId →
      g.fencingToken.value ≤ fence.fencingToken.value)
    (hlapsed : ∀ f lease, f.claimId = fence.claimId → s.clock < lease →
      s.table.lookup fence.claimId = some ⟨f.ownerId, f.fencingToken.value, lease⟩ → fence = f)
    (hclock : s'.clock = s.clock) (htable : s'.table =
      s.table.insert fence.claimId ⟨fence.ownerId, fence.fencingToken.value, leaseUntil⟩) :
    Fenced (h ++ [⟨s, input, output, s'⟩]) s' := by
  refine ⟨?_, ?_, ?_⟩
  · intro f hmem
    rw [grants_snoc] at hmem
    rw [htable]
    by_cases hid : f.claimId = fence.claimId
    · rw [hid]
      refine ⟨_, AList.lookup_insert _, Int.ofNat_le.mpr ?_⟩
      rcases List.mem_append.mp hmem with hold | hnew
      · exact hle f hold hid
      · rw [(hgrants f (Option.mem_toList.mp hnew)).1]
    · rw [AList.lookup_insert_ne hid]
      rcases List.mem_append.mp hmem with hold | hnew
      · exact hf.granted f hold
      · exact absurd (congrArg _ (hgrants f (Option.mem_toList.mp hnew)).1) hid
  · rw [grants_snoc]
    refine List.pairwise_append.mpr ⟨hf.increasing, ?_, ?_⟩
    · cases output.granted with
      | none => exact List.Pairwise.nil
      | some f => exact List.pairwise_singleton _ _
    · intro f hold g hnew hid
      obtain ⟨rfl, hlt⟩ := hgrants g (Option.mem_toList.mp hnew)
      exact hlt f hold hid
  · intro f lease hlease hlive
    rw [leaseOf_snoc, hset] at hlease
    rw [hclock] at hlive
    rw [htable]
    by_cases hsame : fence = f
    · subst hsame
      simp only [if_true] at hlease
      rw [← Option.some.inj hlease]
      exact AList.lookup_insert _
    · simp only [hsame, if_false] at hlease
      have hheld := hf.held f lease hlease hlive
      by_cases hid : f.claimId = fence.claimId
      · rw [hid] at hheld
        exact absurd (hlapsed f lease hid hlive hheld) hsame
      · rw [AList.lookup_insert_ne hid]
        exact hheld

theorem Fenced.step (hf : Fenced h s) (hs : ClaimSteps s input s' output) :
    Fenced (h ++ [⟨s, input, output, s'⟩]) s' := by
  cases hs with
  | quiet clock table silent => exact hf.quiet clock table silent
  | granted k _ req token answered at' taking free _ clock table =>
    -- every fence granted before has a smaller token
    have hbefore : ∀ f ∈ grants h, f.claimId = req.claimId →
        f.fencingToken.value < token.value := by
      intro f hmem hid
      obtain ⟨row, hrow, hle⟩ := hf.granted f hmem
      rw [hid] at hrow
      rcases free with ⟨hnone, -⟩ | ⟨row', hrow', -, htoken⟩
      · rw [hnone] at hrow
        cases hrow
      · obtain rfl := Option.mem_unique hrow hrow'
        omega
    have hset : leaseSet ⟨s, input, output, s'⟩ =
        some (⟨req.claimId, req.ownerId, token⟩, req.leaseUntil) := by
      cases answered <;> simp [leaseSet, resumed, ClaimOutput.reply, at', taking]
    refine hf.writing hset ?_ (fun f hmem hid => Nat.le_of_lt (hbefore f hmem hid)) ?_ clock table
    · intro f hnew
      cases answered <;> exact ⟨(Option.some.inj hnew).symm, hbefore⟩
    · -- a claim with a live lease is not granted
      intro f lease hid hlive hheld
      rcases free with ⟨hnone, -⟩ | ⟨row, hrow, hlapsed, -⟩
      · cases hnone.symm.trans hheld
      · cases hheld.symm.trans hrow
        exact absurd hlive (Int.not_lt.mpr hlapsed)
  | extended k fence _ leaseUntil _ row answered at' found owner token _ clock table =>
    have hset : leaseSet ⟨s, input, output, s'⟩ = some (fence, leaseUntil) := by
      cases answered <;> simp [leaseSet, resumed, ClaimOutput.reply, at']
    rw [owner, token] at table
    refine hf.writing hset ?_ ?_ ?_ clock table
    · intro f hnew
      cases answered <;> cases hnew
    · intro f hmem hid
      obtain ⟨row', hrow', hle⟩ := hf.granted f hmem
      rw [hid, found] at hrow'
      obtain rfl := Option.some.inj hrow'
      omega
    · intro f lease hid _ hheld
      cases found.symm.trans hheld
      exact (ClaimFence.eq_of_row hid owner token).symm

theorem fenced_run {b : Backend} (he : (claimStore b).Run h s) : Fenced h s := by
  refine he.invariant (P := Fenced) ?_ ?_
  · refine ⟨?_, List.Pairwise.nil, ?_⟩
    · intro f hmem
      cases hmem
    · intro f lease hlease
      cases hlease
  · intro h s input hexec hf
    exact hf.step (claimSteps_step b (claimInv_run hexec) input)

end

/-! ## Fences that no longer work -/

/-- An UPDATE under the fence is next, and finds its row with a lease that is live by
the call's own reading. -/
def FindsLive (s : ClaimState) (fence : ClaimFence) (progress : ClaimProgress) : Prop :=
  ∃ isRelease token leaseUntil now row, progress = .mutate fence isRelease token leaseUntil now ∧
    s.table.lookup fence.claimId = some row ∧ row.ownerId = fence.ownerId ∧
    row.fencingToken = fence.fencingToken.value ∧ now < row.leaseUntil

section
variable {b : Backend} {h : ClaimHistory} {s : ClaimState} {input : ClaimInput}
  {progress : ClaimProgress} {fence : ClaimFence} {reply : ClaimReply}

/-- `renew` and `release` either fail, or find their fence live. -/
theorem advance_mutation (hinv : ClaimInv s) {k : Nat} (hat : s.calls[k]? = some progress)
    (hfence : progress.fence = some fence)
    (hreturned : (advance b s.table s.clock progress).2 = .returned reply) :
    (∃ e, reply = .failed e) ∨ FindsLive s fence progress := by
  cases progress with
  | releaseClock => cases hreturned
  | mutateClock =>
    simp only [advance] at hreturned
    split at hreturned
    · cases hreturned
      exact .inl ⟨_, rfl⟩
    · cases hreturned
  | mutate f isRelease token leaseUntil now =>
    obtain rfl := Option.some.inj hfence
    have hsteps := claimSteps_mutate (b := b) hinv f isRelease token leaseUntil now hat
    simp only [advance] at hreturned hsteps
    split at hreturned
    · rename_i table' hset
      rw [hset] at hsteps
      generalize s.progressed k (table', .returned .done) = s' at hsteps
      cases hsteps with
      | quiet _ _ silent => cases silent
      | granted _ _ _ _ answered => cases answered
      | extended _ _ _ _ _ row answered at' found owner token' live =>
        cases answered
        rw [hat] at at'
        cases at'
        exact .inr ⟨_, _, _, _, row, rfl, found, owner, token', live⟩
    · cases hreturned
      exact .inl ⟨_, rfl⟩
  | _ => cases hfence

/-- So it is at every step of theirs, whether or not the answer is lost. -/
theorem mutation_cases (hinv : ClaimInv s)
    (hresumed : resumed ((claimStore b).fire s input) = some progress)
    (hfence : progress.fence = some fence) (hreply : (s.step b input).2.reply = some reply) :
    (∃ e, reply = .failed e) ∨ FindsLive s fence progress := by
  have hcall := callStep_step b s input
  generalize s.step b input = o at hcall hreply
  cases hcall with
  | idle | tick | invoke => cases hreply
  | fail => cases hresumed
  | advance k progress' at' =>
    obtain rfl : progress' = progress := Option.mem_unique at' hresumed
    refine advance_mutation (b := b) hinv at' hfence ?_
    generalize (advance b s.table s.clock progress').2 = after at hreply ⊢
    cases after with
    | returned => rw [Option.some.inj hreply]
    | _ => cases hreply
  | lose k e progress' at' =>
    obtain rfl : progress' = progress := Option.mem_unique at' hresumed
    cases hafter : (advance b s.table s.clock progress').2 with
    | returned =>
      rw [hafter] at hreply
      exact advance_mutation hinv at' hfence (hafter.trans (by rw [Option.some.inj hreply]))
    | _ =>
      rw [hafter] at hreply
      exact .inl ⟨e, (Option.some.inj hreply).symm⟩

theorem superseded_fails (hf : Fenced h s) (hinv : ClaimInv s)
    (hresumed : resumed ((claimStore b).fire s input) = some progress)
    (hfence : progress.fence = some fence) (hsuperseded : Superseded h fence)
    (hreply : (s.step b input).2.reply = some reply) : ∃ e, reply = .failed e := by
  rcases mutation_cases hinv hresumed hfence hreply with hfailed |
    ⟨_, _, _, _, row, -, hrow, -, htoken, -⟩
  · exact hfailed
  · obtain ⟨later, hmem, hid, hlt⟩ := hsuperseded
    obtain ⟨row', hrow', hle⟩ := hf.granted later hmem
    rw [hid, hrow] at hrow'
    obtain rfl := Option.some.inj hrow'
    omega

/-- What a release of the fence leaves: the claim lapsed, until it is granted again. -/
def Lapsed (f : ClaimFence) (h : ClaimHistory) (s : ClaimState) : Prop :=
  ∀ reading, (f, reading) ∈ h.filterMap releaseOf →
    ∃ row, s.table.lookup f.claimId = some row ∧
      ((f.fencingToken.value : Int) < row.fencingToken ∨
        row = ⟨f.ownerId, f.fencingToken.value, reading⟩)

theorem filterMap_releaseOf_snoc {h : ClaimHistory} {t : ClaimEvent} {r : ClaimFence × Timestamp}
    (hmem : r ∈ (h ++ [t]).filterMap releaseOf) :
    r ∈ h.filterMap releaseOf ∨ releaseOf t = some r := by
  rw [List.filterMap_append] at hmem
  rcases List.mem_append.mp hmem with hold | hnew
  · exact .inl hold
  · rw [List.mem_filterMap] at hnew
    obtain ⟨u, hu, hr⟩ := hnew
    rw [List.mem_singleton.mp hu] at hr
    exact .inr hr

theorem Lapsed.step {f : ClaimFence} (hl : Lapsed f h s) {s' : ClaimState} {output : ClaimOutput}
    (hs : ClaimSteps s input s' output)
    (hreads : ReadsAfterRelease f h ⟨s, input, output, s'⟩) :
    Lapsed f (h ++ [⟨s, input, output, s'⟩]) s' := by
  intro reading hmem
  cases hs with
  | quiet _ table silent =>
    rw [table]
    rcases filterMap_releaseOf_snoc hmem with hold | hnew
    · exact hl reading hold
    · have hset := leaseSet_of_releaseOf hnew
      rw [leaseSet_of_silent silent] at hset
      cases hset
  | granted _ _ req token answered _ _ free _ _ table =>
    rcases filterMap_releaseOf_snoc hmem with hold | hnew
    · obtain ⟨row, hrow, hcase⟩ := hl reading hold
      rw [table]
      by_cases hid : f.claimId = req.claimId
      · rw [hid] at hrow ⊢
        refine ⟨_, AList.lookup_insert _, .inl ?_⟩
        rcases free with ⟨hnone, -⟩ | ⟨row', hrow', -, htoken⟩
        · rw [hnone] at hrow
          cases hrow
        · obtain rfl := Option.mem_unique hrow hrow'
          show (f.fencingToken.value : Int) < token.value
          rcases hcase with hlt | rfl
          · omega
          · have htoken' : (token.value : Int) = f.fencingToken.value + 1 := htoken
            omega
      · rw [AList.lookup_insert_ne hid]
        exact ⟨row, hrow, hcase⟩
    · cases answered <;> simp [releaseOf, ClaimOutput.reply] at hnew
  | extended k fence isRelease leaseUntil now row answered at' found owner token live _ table =>
    have hresumed : resumed ⟨s, input, output, s'⟩ =
        some (.mutate fence isRelease fence.fencingToken.value leaseUntil now) := by
      cases answered <;> exact at'
    have hdone : output.reply = some .done := by cases answered <;> rfl
    rw [table]
    rcases filterMap_releaseOf_snoc hmem with hold | hnew
    · obtain ⟨row', hrow', hcase⟩ := hl reading hold
      by_cases hid : f.claimId = fence.claimId
      · rw [hid, found] at hrow'
        obtain rfl := Option.some.inj hrow'
        rw [hid]
        refine ⟨{ row with leaseUntil := leaseUntil }, AList.lookup_insert _, ?_⟩
        rcases hcase with hlt | rfl
        · exact .inl hlt
        · -- the released fence itself, whose lease has lapsed by every later reading
          obtain rfl := ClaimFence.eq_of_row hid owner token
          exact absurd live (Int.not_lt.mpr (hreads _ _ _ _ _ hresumed hold))
      · rw [AList.lookup_insert_ne hid]
        exact ⟨row', hrow', hcase⟩
    · have hset := leaseSet_of_releaseOf hnew
      simp only [leaseSet, hresumed, hdone, Option.some.injEq, Prod.mk.injEq] at hset
      obtain ⟨rfl, rfl⟩ := hset
      refine ⟨{ row with leaseUntil := leaseUntil }, AList.lookup_insert _, .inr ?_⟩
      rw [← owner, ← token]

theorem lapsed_run (he : (claimStore b).Run h s) (halong : Along (ReadsAfterRelease fence) h) :
    Lapsed fence h s := by
  refine he.invariant_along (P := Lapsed fence) ?_ ?_ halong
  · intro reading hmem
    cases hmem
  · intro h s input hexec hl hreads
    exact hl.step (claimSteps_step b (claimInv_run hexec) input) hreads

theorem released_fails (hl : Lapsed fence h s) (hinv : ClaimInv s)
    (hreads : ReadsAfterRelease fence h ((claimStore b).fire s input)) {reading : Timestamp}
    (hresumed : resumed ((claimStore b).fire s input) = some progress)
    (hfence : progress.fence = some fence) (hreleased : (fence, reading) ∈ h.filterMap releaseOf)
    (hreply : (s.step b input).2.reply = some reply) : ∃ e, reply = .failed e := by
  rcases mutation_cases hinv hresumed hfence hreply with hfailed |
    ⟨isRelease, token, leaseUntil, now, row, rfl, hrow, -, htoken, hlive⟩
  · exact hfailed
  · obtain ⟨row', hrow', hcase⟩ := hl reading hreleased
    obtain rfl := Option.mem_unique hrow hrow'
    rcases hcase with hlt | rfl
    · omega
    · exact absurd hlive (Int.not_lt.mpr (hreads _ _ _ _ _ hresumed hreleased))

end

end EgoRs.ReadSide
