import EgoRs.ReadSide.ClaimFencing

/-! # Reclaiming

After a release, the row of the claim has lapsed by every later reading of
the clock, so a call to take it that meets the row as the release left it is
not refused: it gets the next token, or learns that there is none. With that,
the fencing of both stores is assembled at the end, and the run at which it
ends is exhibited.
-/

namespace EgoRs.ReadSide

open Framework Durable

/-! ## A call that meets a lapsed row -/

/-- Where a call to take the claim can be, if the row has been `row` since it was made. -/
def Trying (req : TryClaim) (row : ClaimRow) : ClaimProgress → Prop
  | .insert r => r = req
  | .select r => r = req
  | .takeOverClock r existing => r = req ∧ existing = row
  | .takeOver r displaced next nextRaw now => r = req ∧ displaced = row.fencingToken ∧
      row.leaseUntil ≤ now ∧ (next.value : Int) = row.fencingToken + 1 ∧ nextRaw = next.value
  | .upsertClock r => r = req
  | .upsert r now => r = req ∧ row.leaseUntil ≤ now
  | .returned _ => True
  | _ => False

/-- The claim is granted under the token after that of `row`, or there is none. -/
def Reclaims (req : TryClaim) (row : ClaimRow) (reply : ClaimReply) : Prop :=
  (∃ token : FencingToken, (token.value : Int) = row.fencingToken + 1 ∧
    reply = .claimed (some ⟨req.claimId, req.ownerId, token⟩)) ∨
  row.fencingToken + 1 = 2 ^ 63 ∧ reply = .failed .fencingExhausted

section
variable {b : Backend} {req : TryClaim} {row : ClaimRow} {table : ClaimTable} {clock : Timestamp}

theorem trying_begin : Trying req row ((ClaimCall.tryClaim req).begin b) := by
  cases b <;> rfl

theorem afterClock_of_lapsed (b : Backend) (req : TryClaim) (hrow : row.WellFormed)
    (hlapsed : row.leaseUntil ≤ clock) :
    (∃ next : FencingToken, (next.value : Int) = row.fencingToken + 1 ∧
      afterClock b req row clock = .takeOver req row.fencingToken next next.value clock) ∨
    row.fencingToken + 1 = 2 ^ 63 ∧
      afterClock b req row clock = .returned (.failed .fencingExhausted) := by
  obtain ⟨hpos, hfits⟩ := hrow
  obtain ⟨n, hn⟩ : ∃ n : Nat, row.fencingToken = n := ⟨row.fencingToken.toNat, by omega⟩
  let displaced : FencingToken := ⟨n, by omega⟩
  let next : FencingToken := ⟨n + 1, by omega⟩
  have hdisplaced : b.tokenFromStorage row.fencingToken = .ok displaced := by
    rw [hn]
    exact tokenFromStorage_value b (show 0 < displaced.value by show 0 < n; omega)
  have hnext : displaced.next = some next := dif_pos (show n + 1 < 2 ^ 64 by omega)
  simp only [afterClock, if_neg (Int.not_lt.mpr hlapsed), hdisplaced, hnext, tokenForStorage]
  by_cases hlast : next.value < 2 ^ 63
  · refine .inl ⟨next, ?_, by rw [if_pos hlast]⟩
    show ((n + 1 : Nat) : Int) = _
    omega
  · refine .inr ⟨?_, by rw [if_neg hlast]; rfl⟩
    have hlast' : ¬ n + 1 < 2 ^ 63 := hlast
    omega

/-- A statement or reading of the call keeps it on its way, and does not refuse it. -/
theorem trying_advance (hfound : table.lookup req.claimId = some row) (hrow : row.WellFormed)
    (hlapsed : row.leaseUntil ≤ clock) {progress : ClaimProgress} (h : Trying req row progress)
    (hpending : progress.pending = true) : Trying req row (advance b table clock progress).2 ∧
      ∀ reply, (advance b table clock progress).2 = .returned reply → Reclaims req row reply := by
  cases progress with
  | insert =>
    obtain rfl := h
    simp only [advance, insertClaim]
    rw [Table.insertNew_of_some hfound]
    refine ⟨rfl, ?_⟩
    rintro reply ⟨⟩
  | select =>
    obtain rfl := h
    simp only [advance, hfound]
    refine ⟨⟨rfl, rfl⟩, ?_⟩
    rintro reply ⟨⟩
  | takeOverClock r =>
    obtain ⟨rfl, rfl⟩ := h
    simp only [advance]
    rcases afterClock_of_lapsed b r hrow hlapsed with ⟨next, hnext, heq⟩ | ⟨hlast, heq⟩
    · rw [heq]
      refine ⟨⟨rfl, rfl, hlapsed, hnext, rfl⟩, ?_⟩
      rintro reply ⟨⟩
    · rw [heq]
      refine ⟨trivial, ?_⟩
      rintro reply ⟨⟩
      exact .inr ⟨hlast, rfl⟩
  | takeOver _ _ next =>
    obtain ⟨rfl, rfl, hnow, hnext, -⟩ := h
    simp only [advance, takeOver]
    rw [Table.updateRow_of_match _ hfound (by simp [hnow])]
    refine ⟨trivial, ?_⟩
    rintro reply ⟨⟩
    exact .inl ⟨next, hnext, rfl⟩
  | upsertClock =>
    refine ⟨⟨h, hlapsed⟩, ?_⟩
    rintro reply ⟨⟩
  | upsert =>
    refine ⟨trivial, ?_⟩
    intro reply hreply
    obtain ⟨rfl, hnow⟩ := h
    obtain ⟨hpos, hfits⟩ := hrow
    simp only [advance, upsertClaim, hfound, if_pos hnow] at hreply
    by_cases hlast : row.fencingToken + 1 < 2 ^ 63
    · obtain ⟨token, hvalue, htoken⟩ := exists_next_token b hpos hlast
      simp only [if_pos hlast, afterUpsert, htoken] at hreply
      cases hreply
      exact .inl ⟨token, hvalue, rfl⟩
    · simp only [if_neg hlast, afterUpsert] at hreply
      cases hreply
      exact .inr ⟨by omega, rfl⟩
  | releaseClock | mutateClock | mutate => cases h
  | returned => cases hpending

end

/-! ## While the row stays -/

section
variable {b : Backend} {s s₀ s' : ClaimState} {h : ClaimHistory} {input : ClaimInput}
  {output : ClaimOutput}

theorem clock_le_step (b : Backend) (s : ClaimState) (input : ClaimInput) :
    s.clock ≤ (s.step b input).1.clock := by
  have hcall := callStep_step b s input
  generalize s.step b input = o at hcall
  cases hcall with
  | tick time => exact Int.le_add_of_nonneg_right (Int.natCast_nonneg time)
  | _ => exact Int.le_refl _

theorem clock_le_run (he : (claimStore b).Exec s₀ h s) : s₀.clock ≤ s.clock := by
  refine he.invariant (P := fun _ s => s₀.clock ≤ s.clock) (Int.le_refl _) ?_
  intro h s input _ hle
  exact Int.le_trans hle (clock_le_step b s input)

variable {req : TryClaim} {row : ClaimRow} {k : Nat}

/-- One step of anybody, while the row stays: the call is still on its way. -/
theorem trying_step {progress : ClaimProgress} (hfound : s.table.lookup req.claimId = some row)
    (hrow : row.WellFormed) (hlapsed : row.leaseUntil ≤ s.clock) (hat : s.calls[k]? = some progress)
    (h : Trying req row progress) (input : ClaimInput) :
    ∃ progress', (s.step b input).1.calls[k]? = some progress' ∧ Trying req row progress' := by
  obtain ⟨hk, -⟩ := List.getElem?_eq_some_iff.mp hat
  have hcall := callStep_step b s input
  generalize s.step b input = o at hcall
  cases hcall with
  | idle | tick => exact ⟨progress, hat, h⟩
  | invoke => exact ⟨progress, by rw [List.getElem?_append_left hk]; exact hat, h⟩
  | advance j _ at' pending =>
    by_cases hj : j = k
    · subst hj
      obtain rfl := Option.mem_unique at' hat
      exact ⟨_, List.getElem?_set_self hk, (trying_advance hfound hrow hlapsed h pending).1⟩
    · exact ⟨progress, by rw [← hat]; exact List.getElem?_set_ne hj, h⟩
  | fail j | lose j =>
    by_cases hj : j = k
    · subst hj
      exact ⟨_, List.getElem?_set_self hk, trivial⟩
    · exact ⟨progress, by rw [← hat]; exact List.getElem?_set_ne hj, h⟩

theorem trying_run (he : (claimStore b).Exec s₀ h s) (hrow : row.WellFormed)
    (hlapsed : row.leaseUntil ≤ s₀.clock) (hfound : s₀.table.lookup req.claimId = some row)
    (hstays : ∀ w ∈ h, w.post.table.lookup req.claimId = some row)
    (hstart : ∃ progress, s₀.calls[k]? = some progress ∧ Trying req row progress) :
    s.table.lookup req.claimId = some row ∧
      ∃ progress, s.calls[k]? = some progress ∧ Trying req row progress := by
  revert hstays
  refine he.invariant (P := fun h s => (∀ w ∈ h, w.post.table.lookup req.claimId = some row) →
    s.table.lookup req.claimId = some row ∧
      ∃ progress, s.calls[k]? = some progress ∧ Trying req row progress) ?_ ?_
  · intro _
    exact ⟨hfound, hstart⟩
  · intro h s input hexec ih hstays
    obtain ⟨hsame, progress, hat, htrying⟩ :=
      ih fun w hw => hstays w (List.mem_append_left _ hw)
    refine ⟨hstays _ (List.mem_append_right _ (List.mem_singleton.mpr rfl)), ?_⟩
    exact trying_step hsame hrow (Int.le_trans hlapsed (clock_le_run hexec)) hat htrying input

theorem row_of_releaseOf (hsteps : ClaimSteps s input s' output) (hinv : ClaimInv s)
    {fence : ClaimFence} {reading : Timestamp}
    (hrelease : releaseOf ⟨s, input, output, s'⟩ = some (fence, reading)) :
    s'.table.lookup fence.claimId = some ⟨fence.ownerId, fence.fencingToken.value, reading⟩ ∧
      reading ≤ s'.clock := by
  have hset := leaseSet_of_releaseOf hrelease
  cases hsteps with
  | quiet _ _ silent =>
    rw [leaseSet_of_silent silent] at hset
    cases hset
  | granted _ _ _ _ answered =>
    cases answered <;> simp [releaseOf, ClaimOutput.reply] at hrelease
  | extended k _ isRelease _ _ _ answered at' _ owner token _ clock table =>
    obtain ⟨-, hnow, hrelease'⟩ := hinv.calls k _ at'
    have hreply : output.reply = some .done := by cases answered <;> rfl
    have hresumed : resumed ⟨s, input, output, s'⟩ = s.calls[k]? := by cases answered <;> rfl
    cases isRelease with
    | false => simp [releaseOf, hresumed, hreply, at'] at hrelease
    | true =>
      simp only [releaseOf, hresumed, hreply, at', Option.some.injEq, Prod.mk.injEq] at hrelease
      obtain ⟨rfl, rfl⟩ := hrelease
      refine ⟨?_, ?_⟩
      · rw [table, ← owner, ← token]
        exact AList.lookup_insert _
      · rw [clock]
        exact Int.le_trans (hrelease' rfl) hnow

theorem reclaims_next {t : ClaimEvent} {h₂ : ClaimHistory} {reply : ClaimReply}
    (he : (claimStore b).Exec t.post h₂ s) (hrow : row.WellFormed)
    (hfound : t.post.table.lookup req.claimId = some row) (hlapsed : row.leaseUntil ≤ t.post.clock)
    (hnext : NextReply t h₂ req.claimId req k reply) : Reclaims req row reply := by
  obtain ⟨-, m, n, u, v, hlt, hu, huin, huout, hv, hvin, hvout, hstays⟩ := hnext
  rw [hfound] at hstays
  obtain ⟨hupto, hstep, -⟩ := he.split_position hv
  have hu' : (h₂.take n)[m]? = some u := by
    rw [List.getElem?_take_of_lt hlt]
    exact hu
  obtain ⟨hbefore, hmade, hwhile⟩ := hupto.split_position hu'
  -- the call is made
  have hustart : ∃ progress, u.post.calls[k]? = some progress ∧ Trying req row progress := by
    rw [hmade, huin] at huout ⊢
    obtain rfl : u.pre.calls.length = k := by
      injection huout
    exact ⟨_, List.getElem?_concat_length, trying_begin⟩
  have hufound : u.post.table.lookup req.claimId = some row :=
    hstays u (List.mem_of_getElem? hu')
  have hulapsed : row.leaseUntil ≤ u.post.clock := by
    refine Int.le_trans hlapsed (Int.le_trans (clock_le_run hbefore) ?_)
    rw [hmade]
    exact clock_le_step b u.pre u.input
  -- and goes on
  obtain ⟨hvfound, progress, hat, htrying⟩ := trying_run hwhile hrow hulapsed hufound
    (fun w hw => hstays w (List.mem_of_mem_drop hw)) hustart
  have hvlapsed : row.leaseUntil ≤ v.pre.clock := Int.le_trans hulapsed (clock_le_run hwhile)
  rw [hstep, hvin] at hvout
  have hcall := callStep_step b v.pre (.advance k)
  change (v.pre.step b (.advance k)).2 = _ at hvout
  generalize v.pre.step b (.advance k) = o at hcall hvout
  cases hcall with
  | idle => cases hvout
  | advance _ progress' at' pending =>
    obtain rfl := Option.mem_unique at' hat
    refine (trying_advance (b := b) hvfound hrow hvlapsed htrying pending).2 reply ?_
    generalize (advance b v.pre.table v.pre.clock progress').2 = after at hvout
    cases after with
    | returned =>
      injection hvout with _ hr
      rw [hr]
    | _ => cases hvout

end

/-! ## Every call is over soon -/

theorem remaining_le (progress : ClaimProgress) : progress.remaining ≤ 4 := by
  cases progress <;> simp [ClaimProgress.remaining]

theorem remaining_advance (b : Backend) (table : ClaimTable) (clock : Timestamp)
    {progress : ClaimProgress} (hpending : progress.pending = true) :
    (advance b table clock progress).2.remaining < progress.remaining := by
  cases progress with
  | select req =>
    simp only [advance]
    cases table.lookup req.claimId <;> simp [afterSelect, ClaimProgress.remaining]
  | takeOverClock req existing =>
    simp only [advance]
    rcases afterClock_cases b req existing clock with ⟨reply, heq, -⟩ | ⟨next, raw, heq, -⟩
    · rw [heq]
      simp [ClaimProgress.remaining]
    · rw [heq]
      simp [ClaimProgress.remaining]
  | upsertClock | upsert | releaseClock => exact Nat.lt_succ_self _
  | returned => cases hpending
  | _ =>
    simp only [advance]
    split <;> simp [ClaimProgress.remaining]

/-! ## Fencing -/

section
variable {b : Backend} {h : ClaimHistory} {s : ClaimState}

theorem Fenced.exclusive (hf : Fenced h s) {f g : ClaimFence} {lease lease' : Timestamp}
    (hid : f.claimId = g.claimId) (hlease : leaseOf h f = some lease) (hlive : s.clock < lease)
    (hlease' : leaseOf h g = some lease') (hlive' : s.clock < lease') : f = g := by
  have hrow := hf.held f lease hlease hlive
  have hrow' := hf.held g lease' hlease' hlive'
  rw [← hid, hrow] at hrow'
  simp only [Option.some.injEq, ClaimRow.mk.injEq] at hrow'
  exact ClaimFence.eq_of_row hid hrow'.1 hrow'.2.1

theorem table_of_silent {s' : ClaimState} {input : ClaimInput} {output : ClaimOutput}
    (hsteps : ClaimSteps s input s' output) (hsilent : output.writes = false) :
    s'.table = s.table := by
  cases hsteps with
  | quiet _ table => exact table
  | granted _ _ _ _ answered | extended _ _ _ _ _ _ answered => cases answered <;> cases hsilent

/-- **The two stores fence their claims**, however their statements and readings of the
clock interleave. -/
theorem claims_fenced (b : Backend) {h : ClaimHistory} {s : ClaimState}
    (he : (claimStore b).Exec (claimStore b).init h s) : ClaimFencing h s where
  increasing := (fenced_run he).increasing
  exclusive := fun _ _ _ _ hid hlease hlive hlease' hlive' =>
    (fenced_run he).exclusive hid hlease hlive hlease' hlive'
  superseded := by
    intro n t progress fence reply hn hresumed hfence hsuperseded hreply
    obtain ⟨hbefore, hstep, -⟩ := he.split_position hn
    rw [hstep] at hresumed hreply
    exact superseded_fails (fenced_run hbefore) (claimInv_run hbefore) hresumed hfence hsuperseded
      hreply
  released := by
    intro fence halong n t progress reading reply hn hresumed hfence hreleased hreply
    obtain ⟨hbefore, hstep, -⟩ := he.split_position hn
    have hreads := halong.at_position hn
    rw [← List.take_append_drop n h] at halong
    rw [hstep] at hresumed hreply hreads
    exact released_fails (lapsed_run hbefore halong.of_append) (claimInv_run hbefore) hreads
      hresumed hfence hreleased hreply
  unchanged := by
    intro t hmem hsilent
    obtain ⟨n, hn⟩ := List.getElem?_of_mem hmem
    obtain ⟨hbefore, hstep, -⟩ := he.split_position hn
    rw [hstep] at hsilent ⊢
    exact table_of_silent (claimSteps_step b (claimInv_run hbefore) t.input) hsilent
  reclaimed := by
    intro h₁ t h₂ fence reading hh hrelease req k reply hnext
    rw [hh] at he
    obtain ⟨hbefore, hstep, hrest⟩ := he.split_at
    have hinv := claimInv_run hbefore
    have hsteps : ClaimSteps t.pre t.input t.post t.output := by
      rw [hstep]
      exact claimSteps_step b hinv t.input
    obtain ⟨hfound, hlapsed⟩ := row_of_releaseOf hsteps hinv hrelease
    have hid : req.claimId = fence.claimId := hnext.1
    rw [← hid] at hfound hnext ⊢
    have hafter : (claimStore b).Exec (claimStore b).init (h₁ ++ [t]) t.post := by
      rw [hstep]
      exact .snoc t.input hbefore
    have hwell := (claimInv_run hafter).rows _ _ hfound
    rcases reclaims_next hrest hwell hfound hlapsed hnext with ⟨token, htoken, hreply⟩ |
      ⟨hlast, hreply⟩
    · refine .inl ⟨token, ?_, hreply⟩
      have htoken' : (token.value : Int) = fence.fencingToken.value + 1 := htoken
      omega
    · refine .inr ⟨?_, hreply⟩
      have hlast' : (fence.fencingToken.value : Int) + 1 = 2 ^ 63 := hlast
      omega
  ends := by
    intro t hmem k progress hinput hat
    refine ⟨remaining_le progress, ?_⟩
    intro hpending
    obtain ⟨n, hn⟩ := List.getElem?_of_mem hmem
    obtain ⟨-, hstep, -⟩ := he.split_position hn
    obtain ⟨hk, -⟩ := List.getElem?_eq_some_iff.mp hat
    refine ⟨(advance b t.pre.table t.pre.clock progress).2, ?_,
      remaining_advance b t.pre.table t.pre.clock hpending⟩
    rw [hstep, hinput]
    show (t.pre.step b (.advance k)).1.calls[k]? = _
    simp only [ClaimState.step, hat, hpending, if_true]
    exact List.getElem?_set_self hk

def ordersClaim : ClaimId := ⟨"orders", orderTag, "acme"⟩

/-- A claim is taken and released, and taken by another owner. -/
def handover : List ClaimInput :=
  [.invoke (.tryClaim ⟨ordersClaim, ⟨"ann"⟩, 10⟩), .advance 0,
    .invoke (.release ⟨ordersClaim, ⟨"ann"⟩, .initial⟩), .advance 1, .advance 1, .advance 1,
    .invoke (.tryClaim ⟨ordersClaim, ⟨"bob"⟩, 10⟩), .advance 2, .advance 2, .advance 2, .advance 2]

theorem claims_fenced_handover :
    let store := claimStore .stoolap
    (grants (store.trace store.init handover)).map (fun f => f.fencingToken.value) = [1, 2] ∧
      ClaimFencing (store.trace store.init handover) (store.after store.init handover) :=
  ⟨by decide, claims_fenced .stoolap ((claimStore .stoolap).exec_trace _ _)⟩

end

/-! ## Where fencing ends -/

/-- A `renew` reads the clock, the fence is released, and the `renew` goes on. -/
def lateRenew : Backend → List ClaimInput
  | .stoolap =>
    [.invoke (.tryClaim ⟨ordersClaim, ⟨"ann"⟩, 10⟩), .advance 0,
      .invoke (.renew ⟨ordersClaim, ⟨"ann"⟩, .initial⟩ 20), .advance 1, .tick 1,
      .invoke (.release ⟨ordersClaim, ⟨"ann"⟩, .initial⟩), .advance 2, .advance 2, .advance 2,
      .advance 1]
  | .postgres =>
    [.invoke (.tryClaim ⟨ordersClaim, ⟨"ann"⟩, 10⟩), .advance 0, .advance 0,
      .invoke (.renew ⟨ordersClaim, ⟨"ann"⟩, .initial⟩ 20), .advance 1, .tick 1,
      .invoke (.release ⟨ordersClaim, ⟨"ann"⟩, .initial⟩), .advance 2, .advance 2, .advance 1]

/-- In that run of the store, the last step is of a fence released before, and returns
`Ok`. -/
def ReleasedWorks (b : Backend) : Prop :=
  let h := (claimStore b).trace (claimStore b).init (lateRenew b)
  ∃ t fence reading k, h[9]? = some t ∧ (resumed t).bind ClaimProgress.fence = some fence ∧
    (fence, reading) ∈ (h.take 9).filterMap releaseOf ∧ t.output = .returned k .done

/-- The `renew` of the released fence returns `Ok`, in both stores. -/
theorem released_fence_works : ReleasedWorks .stoolap ∧ ReleasedWorks .postgres := by
  constructor
  · exact ⟨_, ⟨ordersClaim, ⟨"ann"⟩, .initial⟩, 1, 1, rfl, rfl, by decide, rfl⟩
  · exact ⟨_, ⟨ordersClaim, ⟨"ann"⟩, .initial⟩, 1, 1, rfl, rfl, by decide, rfl⟩

end EgoRs.ReadSide
