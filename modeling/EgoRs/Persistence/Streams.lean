import EgoRs.Framework.Layout
import EgoRs.Persistence.StoreRun

/-! # Optimistic Concurrency of the Event Store

An append says which version it expects the stream to have. The store
checks that when the append is made. A direct append publishes under the
same lock; a unit of work publishes later, in `commit`, which checks
nothing.

The writes that reported success are read off the history (`published`).
Whatever happens, a stream is the concatenation of its published writes
(`tracked_run`). That each of them also stands at the version its caller
expected needs that no stream moved between a unit's append and its
commit.
-/

namespace EgoRs.EventStore

open Framework

variable {E : Type}

/-! ## The writes of a run -/

/-- An append that was answered with a version. -/
structure Write (E : Type) where
  expectedVersion : Int
  events : List (StoredEvent E)
  /-- The committed stream at the moment of the version check. -/
  seen : List (StoredEvent E)

/-- The write of an append to `k` made in `t`. -/
def writeOf (t : Event E) (args : AppendArgs E) (k : StreamKey) : Write E where
  expectedVersion := args.expectedVersion
  events := args.events
  seen := t.pre.stream k

/-- The successful append to `k` that unit `u` makes in `t`, if it is one. -/
def stagedWrite (u : Nat) (k : StreamKey) (t : Event E) : Option (Write E) :=
  match t.input, t.output with
  | .unitAppend v args, .version (.ok _) =>
    if v = u ∧ args.key = .ok k then some (writeOf t args k) else none
  | _, _ => none

/-- The successful appends of unit `u` to `k`, in order. -/
def stagedBy (h : History E) (u : Nat) (k : StreamKey) : List (Write E) :=
  h.filterMap (stagedWrite u k)

/-- The writes to `k` that step `t`, coming after `h`, reports as done: its own
when it is a direct append, all of the unit's when it is a commit. -/
def publishedBy (h : History E) (t : Event E) (k : StreamKey) : List (Write E) :=
  match t.input, t.output with
  | .append args, .version (.ok _) => if args.key = .ok k then [writeOf t args k] else []
  | .commit u, .committed (.ok ()) => stagedBy h u k
  | _, _ => []

def publishedFrom (past : History E) (k : StreamKey) : History E → List (Write E)
  | [] => []
  | t :: rest => publishedBy past t k ++ publishedFrom (past ++ [t]) k rest

/-- Every write to `k` that was reported as done in the run `h`, in the order
of the reports. -/
def published (h : History E) (k : StreamKey) : List (Write E) := publishedFrom [] k h

/-- The write takes position `p`; the first event of a stream is at `1`. -/
def Write.Occupies (w : Write E) (p : Int) : Prop :=
  w.expectedVersion < p ∧ p ≤ w.expectedVersion + w.events.length

/-- **What optimistic concurrency promises** of a run `h` that ends in `s`. -/
structure Serialized (h : History E) (s : RunState E) : Prop where
  /-- A write that reported success stands, contiguous, right after the
      version it expected. -/
  contiguous : ∀ k, ∀ w ∈ published h k, ∃ before after,
    s.stream k = before ++ w.events ++ after ∧ (before.length : Int) = w.expectedVersion
  /-- No two of them take the same position. -/
  disjoint : ∀ k, (published h k).Pairwise fun w w' => ∀ p, ¬ (w.Occupies p ∧ w'.Occupies p)
  /-- A unit that commits finds its streams as its appends saw them. -/
  unmoved : ∀ h₁ t h₂ u, h = h₁ ++ t :: h₂ → t.input = .commit u →
    t.output = .committed (.ok ()) → ∀ k, ∀ w ∈ stagedBy h₁ u k, w.seen = t.pre.stream k

section
variable (h : History E) (t : Event E) (k : StreamKey)

theorem stagedBy_snoc (u : Nat) :
    stagedBy (h ++ [t]) u k = stagedBy h u k ++ (stagedWrite u k t).toList := by
  unfold stagedBy
  rw [List.filterMap_append]
  cases hw : stagedWrite u k t <;> simp [hw]

theorem publishedFrom_snoc (past : History E) : publishedFrom past k (h ++ [t]) =
      publishedFrom past k h ++ publishedBy (past ++ h) t k := by
  induction h generalizing past with
  | nil => simp [publishedFrom]
  | cons _ _ ih => simp [publishedFrom, ih]

theorem published_snoc : published (h ++ [t]) k = published h k ++ publishedBy h t k := by
  unfold published
  rw [publishedFrom_snoc, List.nil_append]

end

/-! ## What a step does to one stream -/

section
variable {s s' : RunState E} {req : Request E} {ans : Answer E}

theorem stagedWrite_eq_none {u : Nat} (k : StreamKey) (hs : ¬ StagesIn u req ans) :
    stagedWrite u k ⟨s, req, ans, s'⟩ = none := by
  unfold stagedWrite
  split
  · rename_i v args n hreq hans
    have hv : v ≠ u := by
      intro hvu
      subst hvu
      exact hs ⟨args, n, hreq, hans⟩
    simp [hv]
  · rfl

/-- A unit open after a step was open before, with its new write added, or is the fresh one. -/
theorem Moves.unit_after (hm : Moves s req ans s') {u : Nat} {unit' : UnitOfWork E}
    (hu : s'.unit u = some unit') (k : StreamKey) : (∃ unit, s.unit u = some unit ∧
      streamAt unit'.staged k = streamAt unit.staged k ++
        (stagedWrite u k ⟨s, req, ans, s'⟩).toList.flatMap Write.events) ∨
    (s.units.length ≤ u ∧ unit' = .fresh ∧ stagedWrite u k ⟨s, req, ans, s'⟩ = none) := by
  cases hm.unitChange hu with
  | kept opened stages =>
    rw [stagedWrite_eq_none k stages]
    exact .inl ⟨unit', opened, by simp⟩
  | begun new fresh stages =>
    exact .inr ⟨new, fresh, stagedWrite_eq_none k stages⟩
  | staged unit args k' _ opened request answer key unit_eq =>
    subst request answer unit_eq
    refine .inl ⟨unit, opened, ?_⟩
    by_cases hk : k = k'
    · subst hk
      simp [stagedWrite, key, writeOf]
    · have hne : ¬ args.key = .ok k := by
        rw [key]
        intro h
        exact hk (Except.ok.inj h).symm
      simp [stagedWrite, hne, streamAt_extend_ne hk]
  | confirmed unit _ opened request answer _ unit_eq =>
    subst request answer unit_eq
    exact .inl ⟨unit, opened, by simp [stagedWrite]⟩

/-- A write is staged only after its version check, on the stream as it then
is. -/
theorem Moves.stagedWrite_checked (hm : Moves s req ans s') {u : Nat} {k : StreamKey}
    {w : Write E} (hw : stagedWrite u k ⟨s, req, ans, s'⟩ = some w) :
    ∃ unit, s.unit u = some unit ∧ w.seen = s.stream k ∧ s'.stream = s.stream ∧
      w.expectedVersion = (s.stream k).length + (streamAt unit.staged k).length := by
  cases hm with
  | staged _ unit _ _ _ opened key version =>
    simp only [stagedWrite, Option.ite_none_right_eq_some, Option.some.injEq] at hw
    obtain ⟨⟨rfl, hk⟩, rfl⟩ := hw
    rw [key, Except.ok.injEq] at hk
    subst hk
    exact ⟨unit, opened, rfl, rfl, version.symm⟩
  | _ => simp [stagedWrite] at hw

/-- **A stream grows by what the step publishes**, when what a unit has staged
is what its successful appends carried. -/
theorem Moves.stream_after (hm : Moves s req ans s') {h : History E}
    (hstaged : ∀ u unit, s.unit u = some unit → ∀ k,
      streamAt unit.staged k = (stagedBy h u k).flatMap Write.events) (k : StreamKey) :
    s'.stream k = s.stream k ++ (publishedBy h ⟨s, req, ans, s'⟩ k).flatMap Write.events := by
  cases hm with
  | appended args k' _ _ key _ stream others =>
    by_cases hk : k = k'
    · subst hk
      simp [publishedBy, key, writeOf, stream]
    · have hne : ¬ args.key = .ok k := by
        rw [key]
        intro h
        exact hk (Except.ok.inj h).symm
      simp [publishedBy, hne, others k hk]
  | appendRefused _ _ _ stream => simp [publishedBy, stream]
  | committed u unit opened =>
    show streamAt (unit.commit s.committed).1.streams k = _
    rw [streamAt_commit, hstaged u unit opened k]
    rfl
  | _ => simp [publishedBy, RunState.stream]

end

/-! ## Streams and staged events along a run -/

/-- The streams and the open units of work are what the history says. -/
structure Tracked (h : History E) (s : RunState E) : Prop where
  /-- A stream is its published writes, one after the other. -/
  streams : ∀ k, s.stream k = (published h k).flatMap Write.events
  /-- What an open unit has staged is what its appends carried. -/
  staged : ∀ u unit, s.unit u = some unit → ∀ k,
    streamAt unit.staged k = (stagedBy h u k).flatMap Write.events
  /-- Each append of an open unit expected the stream it saw plus what the unit
      had staged by then. -/
  layout : ∀ u unit, s.unit u = some unit → ∀ k,
    LaidOut Write.events (fun w => w.expectedVersion - w.seen.length) 0 (stagedBy h u k)
  /-- What an append saw is still there. -/
  seen : ∀ u k, ∀ w ∈ stagedBy h u k, w.seen <+: s.stream k
  /-- A unit that has not begun has staged nothing. -/
  fresh : ∀ u k, s.units.length ≤ u → stagedBy h u k = []

section
variable {h : History E} {s s' : RunState E} {req : Request E} {ans : Answer E}

section
variable (hi : Tracked h s) (hm : Moves s req ans s')
include hi hm

theorem staged_step (u : Nat) (unit' : UnitOfWork E) (hu : s'.unit u = some unit') (k : StreamKey) :
    streamAt unit'.staged k = (stagedBy (h ++ [⟨s, req, ans, s'⟩]) u k).flatMap Write.events := by
  rw [stagedBy_snoc, List.flatMap_append]
  rcases hm.unit_after hu k with ⟨unit, hold, hst⟩ | ⟨hnew, hfresh, hnone⟩
  · rw [hst, hi.staged u unit hold k]
  · rw [hi.fresh u k hnew, hnone, hfresh]
    simp [UnitOfWork.fresh]

theorem layout_step (u : Nat) (unit' : UnitOfWork E) (hu : s'.unit u = some unit') (k : StreamKey) :
    LaidOut Write.events (fun w => w.expectedVersion - w.seen.length) 0
      (stagedBy (h ++ [⟨s, req, ans, s'⟩]) u k) := by
  rw [stagedBy_snoc, LaidOut.append_iff]
  rcases hm.unit_after hu k with ⟨unit, hold, _⟩ | ⟨hnew, _, hnone⟩
  · refine ⟨hi.layout u unit hold k, ?_⟩
    cases hw : stagedWrite u k ⟨s, req, ans, s'⟩ with
    | none => trivial
    | some w =>
      -- the check counted the stream the write saw and what was staged before it
      obtain ⟨unit₂, hold₂, hseen, _, hv⟩ := hm.stagedWrite_checked hw
      rw [hold, Option.some.injEq] at hold₂
      subst hold₂
      have hst := hi.staged u unit hold k
      rw [← hst]
      refine ⟨?_, trivial⟩
      show w.expectedVersion - w.seen.length = _
      rw [hseen, hv]
      omega
  · rw [hi.fresh u k hnew, hnone]
    exact ⟨trivial, trivial⟩

theorem seen_step (u : Nat) (k : StreamKey) (w : Write E)
    (hw : w ∈ stagedBy (h ++ [⟨s, req, ans, s'⟩]) u k) : w.seen <+: s'.stream k := by
  rw [stagedBy_snoc, List.mem_append] at hw
  rcases hw with hold | hnew
  · rw [hm.stream_after hi.staged k]
    exact (hi.seen u k w hold).trans (List.prefix_append _ _)
  · have hsome : stagedWrite u k ⟨s, req, ans, s'⟩ = some w := by simpa using hnew
    obtain ⟨_, _, hseen, hstream, _⟩ := hm.stagedWrite_checked hsome
    have hnow : w.seen = s'.stream k := by rw [hseen, hstream]
    exact hnow ▸ List.prefix_rfl

theorem fresh_step (u : Nat) (k : StreamKey) (hle : s'.units.length ≤ u) :
    stagedBy (h ++ [⟨s, req, ans, s'⟩]) u k = [] := by
  have hle' : s.units.length ≤ u := Nat.le_trans hm.units_length_le hle
  rw [stagedBy_snoc, hi.fresh u k hle', List.nil_append]
  cases hw : stagedWrite u k ⟨s, req, ans, s'⟩ with
  | none => rfl
  | some =>
    obtain ⟨unit, hopen, _⟩ := hm.stagedWrite_checked hw
    have hlt := RunState.lt_of_unit hopen
    omega

theorem tracked_step : Tracked (h ++ [⟨s, req, ans, s'⟩]) s' where
  streams := by
    intro k
    rw [published_snoc, List.flatMap_append, hm.stream_after hi.staged k, hi.streams k]
  staged := staged_step hi hm
  layout := layout_step hi hm
  seen := seen_step hi hm
  fresh := fresh_step hi hm

end

theorem tracked_init : Tracked [] (store E).init where
  streams := by
    intro k
    exact streamAt_empty k
  staged := by
    intro u unit hu
    simp [store, RunState.unit] at hu
  layout := by
    intro u unit hu
    simp [store, RunState.unit] at hu
  seen := by
    intro u k w hw
    simp [stagedBy] at hw
  fresh := by
    intro u k _
    rfl

/-- **A run's streams are its published writes**, with nothing lost. -/
theorem tracked_run (he : (store E).Run h s) : Tracked h s :=
  he.invariant tracked_init fun _ t i _ hi => tracked_step hi (moves_step t i)

end

/-! ## Every write at the version it expected -/

/-- When a unit of work commits, every stream it appended to is as long as it
was when the append checked it. -/
def CommitsUnmoved (h : History E) (t : Event E) : Prop :=
  ∀ u, t.input = .commit u → (t.pre.unit u).isSome →
    ∀ k, ∀ w ∈ stagedBy h u k, w.seen.length = (t.pre.stream k).length

section
variable {h : History E} {s s' : RunState E} {req : Request E} {ans : Answer E}

/-- What a step publishes on a stream starts where the stream ends. -/
theorem Moves.publishedBy_laidOut (hm : Moves s req ans s') (hi : Tracked h s)
    (hc : CommitsUnmoved h ⟨s, req, ans, s'⟩) (k : StreamKey) :
    LaidOut Write.events Write.expectedVersion (s.stream k).length
      (publishedBy h ⟨s, req, ans, s'⟩ k) := by
  cases hm with
  | appended args k' _ _ key version =>
    by_cases hk : args.key = .ok k
    · have hk' : k' = k := by
        rw [key] at hk
        exact Except.ok.inj hk
      subst hk'
      simp only [publishedBy, key, if_true]
      exact ⟨version.symm, trivial⟩
    · simp only [publishedBy, hk, if_false]
      trivial
  | committed u unit opened =>
    show LaidOut _ _ _ (stagedBy h u k)
    have hlen : ∀ w ∈ stagedBy h u k, w.seen.length = (s.stream k).length :=
      hc u rfl (by simp [opened]) k
    rw [← Int.zero_add ((s.stream k).length : Int)]
    refine (hi.layout u unit opened k).shift _ ?_
    intro w hw
    rw [hlen w hw]
    omega
  | _ => simp [publishedBy, LaidOut]

theorem published_laidOut (he : (store E).Run h s) (ha : Along CommitsUnmoved h) (k : StreamKey) :
    LaidOut Write.events Write.expectedVersion 0 (published h k) := by
  refine he.invariant_along (P := fun h _ =>
    LaidOut Write.events Write.expectedVersion 0 (published h k)) trivial ?_ ha
  intro h t i hex ih hc
  have htr := tracked_run hex
  rw [published_snoc, LaidOut.append_iff]
  refine ⟨ih, ?_⟩
  have hnext := (moves_step t i).publishedBy_laidOut htr hc k
  rw [htr.streams k] at hnext
  rw [Int.zero_add]
  exact hnext

/-- A commit that succeeded was of an open unit. -/
theorem open_of_committed {u : Nat} (hm : Moves s req ans s') (hreq : req = .commit u)
    (hans : ans = .committed (.ok ())) : (s.unit u).isSome := by
  cases hm with
  | committed v _ opened =>
    obtain rfl : v = u := by simpa using hreq
    simp [opened]
  | _ => simp_all

/-- **Optimistic concurrency.** In a run in which no stream moves between a
unit's append and its commit, every write that reported success stands at
the version it expected, no two share a position, and a unit commits on
the streams its appends saw. -/
theorem writes_land_where_expected (he : (store E).Exec (store E).init h s)
    (ha : Along CommitsUnmoved h) : Serialized h s where
  contiguous := by
    intro k w hw
    obtain ⟨before, after, hflat, hpos⟩ := (published_laidOut he ha k).located hw
    refine ⟨before, after, ?_, by omega⟩
    rw [(tracked_run he).streams k, hflat]
  disjoint := by
    intro k
    refine (published_laidOut he ha k).pairwise.imp ?_
    intro w w' hle p hp
    obtain ⟨⟨_, hp₁⟩, ⟨hp₂, _⟩⟩ := hp
    omega
  unmoved := by
    intro h₁ t h₂ u hh hreq hans k w hw
    subst hh
    obtain ⟨he₁, ht, _⟩ := he.split_at
    have hm := moves_step t.pre t.input
    rw [ht] at hans
    have hopen := open_of_committed hm hreq hans
    -- append-only: the same length means the same events
    have hprefix := (tracked_run he₁).seen u k w hw
    exact hprefix.eq_of_length (ha h₁ t h₂ rfl u hreq hopen k w hw)

end

/-- A unit that appends twice, with a direct append after its commit. -/
def serializedRequests : List (Request Nat) :=
  [.begin, .unitAppend 0 (sampleAppend 0 10), .unitAppend 0 (sampleAppend 1 11), .commit 0,
    .append (sampleAppend 2 12)]

/-- The three writes of that run meet the condition and land at `0`, `1` and
`2`. -/
theorem writes_land_where_expected_in_turn :
    ((published ((store Nat).trace (store Nat).init serializedRequests) sampleStream).map
        Write.expectedVersion = [0, 1, 2]) ∧
      Serialized ((store Nat).trace (store Nat).init serializedRequests)
        ((store Nat).after (store Nat).init serializedRequests) := by
  refine ⟨by decide, writes_land_where_expected (Machine.exec_trace _ _ _) ?_⟩
  refine ((((Along.nil.snoc ?_).snoc ?_).snoc ?_).snoc ?_).snoc ?_
  · intro u hu
    cases hu
  · intro u hu
    cases hu
  · intro u hu
    cases hu
  · -- nothing was published before this commit: every stream is still empty
    intro u hu _ k w hw
    have htr := tracked_run (Machine.exec_trace (store Nat) (store Nat).init
      (serializedRequests.take 3))
    have hseen : w.seen <+: streamAt ∅ k := htr.seen u k w hw
    show w.seen.length = (streamAt ∅ k).length
    rw [streamAt_empty] at hseen ⊢
    rw [List.prefix_nil.mp hseen]
  · intro u hu
    cases hu

/-- Two units that append to one stream before either commits. -/
def racingRequests : List (Request Nat) :=
  [.begin, .begin, .unitAppend 0 (sampleAppend 0 10), .unitAppend 1 (sampleAppend 0 20),
    .commit 0, .commit 1]

/-- Both units expected version `0`, both commits answer `Ok`, and both writes
claim position `1`; the second unit's event stands at `2`. -/
theorem moved_unit_commits :
    (((store Nat).trace (store Nat).init racingRequests).map
        fun t => decide (t.output = .committed (.ok ()))) =
          [false, false, false, false, true, true] ∧
      ((store Nat).after (store Nat).init racingRequests).stream sampleStream =
        [⟨10, none⟩, ⟨20, none⟩] ∧
      ¬ Serialized ((store Nat).trace (store Nat).init racingRequests)
        ((store Nat).after (store Nat).init racingRequests) := by
  refine ⟨by decide, by decide, ?_⟩
  intro hs
  have hd := hs.disjoint sampleStream
  have hp : published ((store Nat).trace (store Nat).init racingRequests) sampleStream =
      [⟨0, [⟨10, none⟩], []⟩, ⟨0, [⟨20, none⟩], []⟩] := rfl
  rw [hp, List.pairwise_cons] at hd
  refine hd.1 _ List.mem_cons_self 1 ?_
  simp [Write.Occupies]

end EgoRs.EventStore
