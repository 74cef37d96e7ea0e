import EgoRs.Operation.DurableEffect
import EgoRs.Operation.Lifecycle

/-! # The Durable Stores Against the In-Memory One

The results of concurrent calls on a durable store, and the table they
leave, are those of the same calls one after the other on the in-memory
store, in an order that agrees with real time.

That needs the run to be undisturbed. A reserve reads a row and takes it
over in two statements, and the second one does not look at the
fingerprint: a reservation that was abandoned and made again in between,
for another request, is taken over as if it were the one that was read.
-/

set_option linter.unusedSectionVars false

namespace EgoRs.Durable

open Framework Memory

section base64
variable [Base64]

/-! ## Linearizability -/

def Finished (s : State) : Prop :=
  ∀ c ∈ s.calls, ∃ reply, c.progress = .returned reply

def clockReadings (h : History) : List Timestamp :=
  h.filterMap fun t =>
    match t.input with
    | .invoke _ => none
    | .advance _ now _ => some now

def ClockMonotone (h : History) : Prop :=
  (clockReadings h).Pairwise (· ≤ ·)

instance (h : History) : Decidable (ClockMonotone h) :=
  inferInstanceAs (Decidable (List.Pairwise _ _))

/-- Call `i` returned before call `j` was made. -/
def Precedes (h : History) (i j : Nat) : Prop :=
  ∃ h₁ t h₂ u h₃, h = h₁ ++ t :: (h₂ ++ u :: h₃) ∧
    (∃ reply, t.output = .returned i reply) ∧ u.output = .invoked j

/-- Call `i` returned, with something else than the request to try again. -/
def Effective (s : State) (i : Nat) : Prop :=
  ∃ call reply, s.calls[i]? = some ⟨call, .returned reply⟩ ∧ ¬ Disappeared reply

/-- The transition of the in-memory store is call `i`: the same call, the same
reply, with a clock reading taken during the call. -/
def Executes (h : History) (s : State) (i : Nat)
    (t : Transition Records Memory.Input Reply) : Prop :=
  s.calls[i]? = some ⟨t.input.call, .returned t.output⟩ ∧ ReadBy h i t.input.now

/-- The table and the map hold the same reservations. -/
structure Holds (b : Backend) (table : Table) (records : Records) : Prop where
  named : ∀ key row, table.lookup key = some row → ∃ id, b.rowKey id = key
  same : ∀ id, (table.lookup (b.rowKey id)).map (Row.record b) = (records.lookup id).map some

/-- `run` carries out the calls of the history one after the other, in the
order `order`, on the in-memory store. -/
structure Linearization (b : Backend) (h : History) (s : State) (order : List Nat)
    (run : Memory.History) (records : Records) : Prop where
  exec : Memory.store.Exec Memory.store.init run records
  /-- Every call that took effect occurs once, and no other. -/
  nodup : order.Nodup
  effective : ∀ i, i ∈ order ↔ Effective s i
  executes : List.Forall₂ (Executes h s) order run
  /-- No call comes after one that was made when it had returned already. -/
  realTime : order.Pairwise fun i j => ¬ Precedes h j i
  holds : Holds b s.table records

def Linearizable (b : Backend) (h : History) (s : State) : Prop :=
  ∃ order run records, Linearization b h s order run records

/-! ## Real-time order -/

section
variable {b : Backend} {h : History} {s s' : State} {i j : Nat}

/-- A call that has returned makes no more steps. -/
theorem no_steps_of_returned {call : Call} {reply : Reply} (he : (store b).Exec s h s')
    (hret : s.calls[i]? = some ⟨call, .returned reply⟩) :
    s'.calls[i]? = some ⟨call, .returned reply⟩ ∧ ∀ t ∈ h, ¬ StepOf i t := by
  refine he.invariant (P := fun h s' => s'.calls[i]? = some ⟨call, .returned reply⟩ ∧
    ∀ t ∈ h, ¬ StepOf i t) ⟨hret, by simp⟩ ?_
  intro h s₁ input _ ih
  obtain ⟨hret, hno⟩ := ih
  have hnext : ¬ StepOf i ((store b).fire s₁ input) := by
    intro hown
    obtain ⟨call', progress, hcall, hrun⟩ := hown.running rfl
    cases Option.mem_unique hret hcall
    exact hrun reply rfl
  constructor
  · have hfires := fires_step b s₁ input
    generalize ((store b).step s₁ input).1 = s₂ at hfires ⊢
    generalize ((store b).step s₁ input).2 = o at hfires
    cases hfires with
    | invoke =>
      have hlt := (List.getElem?_eq_some_iff.mp hret).1
      exact (List.getElem?_append_left hlt).trans hret
    | idle => exact hret
    | moves k _ _ _ _ _ _ hcall hrun =>
      have hne : k ≠ i := by
        rintro rfl
        cases Option.mem_unique hret hcall
        exact hrun reply rfl
      exact (List.getElem?_set_ne hne).trans hret
  · intro t ht
    obtain ht | rfl := mem_snoc ht
    · exact hno t ht
    · exact hnext

theorem returned_of_output {t : Event} {reply : Reply} (ht : t = (store b).fire t.pre t.input)
    (hout : t.output = .returned i reply) :
    ∃ call, t.post.calls[i]? = some ⟨call, .returned reply⟩ := by
  have hfires := fires_of_fire ht
  rw [hout] at hfires
  generalize ho : Output.returned i reply = o at hfires
  generalize t.post = s' at hfires ⊢
  generalize t.input = input at hfires
  cases hfires with
  | invoke | idle => cases ho
  | moves _ _ _ call _ progress' _ hcall =>
    have hlt := (List.getElem?_eq_some_iff.mp hcall).1
    cases progress' with
    | returned =>
      simp only [outputOf, Output.returned.injEq] at ho
      obtain ⟨rfl, rfl⟩ := ho
      exact ⟨call, List.getElem?_set_self hlt⟩
    | _ => simp [outputOf] at ho

theorem unmade_of_output {t : Event} (ht : t = (store b).fire t.pre t.input)
    (hout : t.output = .invoked i) : t.pre.calls.length = i ∧ ∀ j, ¬ StepOf j t := by
  have hfires := fires_of_fire ht
  rw [hout] at hfires
  generalize ho : Output.invoked i = o at hfires
  generalize hin : t.input = input at hfires
  generalize t.post = s' at hfires
  cases hfires with
  | invoke =>
    simp only [Output.invoked.injEq] at ho
    refine ⟨ho.symm, ?_⟩
    rintro j ⟨⟨now, scan, hadv⟩, _⟩
    rw [hin] at hadv
    cases hadv
  | idle => cases ho
  | moves _ _ _ _ _ progress' =>
    cases progress' <;> simp [outputOf] at ho

/-- A call with a step before a step of another was not made after the other
had returned. -/
theorem not_precedes_of_stepBefore (he : (store b).Run h s)
    (hsteps : StepBefore StepOf h i j) : ¬ Precedes h j i := by
  rintro ⟨h₁, t, h₂, u, h₃, rfl, ⟨reply, hret⟩, hinv⟩
  obtain ⟨_, ht, hafter⟩ := he.split_at
  have hmade : (store b).Run ((h₁ ++ t :: h₂) ++ u :: h₃) s := by
    simpa using he
  obtain ⟨hbefore, hu, _⟩ := hmade.split_at
  obtain ⟨hlen, hnobody⟩ := unmade_of_output hu hinv
  obtain ⟨call, hcall⟩ := returned_of_output ht hret
  -- no step of `i` up to its invocation, no step of `j` after its return
  have hno_i : ∀ x ∈ h₁ ++ t :: h₂, ¬ StepOf i x :=
    no_steps_of_unmade hbefore i (Nat.le_of_eq hlen)
  have hno_j : ∀ y ∈ h₂ ++ u :: h₃, ¬ StepOf j y := (no_steps_of_returned hafter hcall).2
  obtain ⟨k₁, x, k₂, y, k₃, hh, hx, hy⟩ := hsteps
  have hh' : (h₁ ++ t :: h₂) ++ u :: h₃ = k₁ ++ x :: (k₂ ++ y :: k₃) := by simpa using hh
  rcases List.append_eq_append_iff.mp hh' with ⟨l, _, hl⟩ | ⟨l, hl₁, hl⟩
  · cases l with
    | nil =>
      simp only [List.nil_append, List.cons.injEq] at hl
      exact hnobody i (hl.1 ▸ hx)
    | cons =>
      simp only [List.cons_append, List.cons.injEq] at hl
      exact hno_j y (by simp [hl.2]) hy
  · cases l with
    | nil =>
      simp only [List.nil_append, List.cons.injEq] at hl
      exact hnobody i (hl.1 ▸ hx)
    | cons =>
      simp only [List.cons_append, List.cons.injEq] at hl
      obtain ⟨rfl, _⟩ := hl
      exact hno_i x (by rw [hl₁]; simp) hx

end

/-! ## Sequential runs -/

/-- What call `i` does when it runs alone. -/
def callEffect (h : History) (s : State) (i : Nat) (a a' : Contents) : Prop :=
  ∃ call reply now, s.calls[i]? = some ⟨call, .returned reply⟩ ∧ ReadBy h i now ∧
    MemoryDoes call reply now a a'

variable {h : History} {s : State} {b : Backend}

/-- A sequence of such effects is a run of the in-memory store. -/
theorem exists_memory_run {order : List Nat} {a a' : Contents}
    (hrun : SeqRun (callEffect h s) a order a') (hempty : a = fun _ => none) :
    ∃ run records, Memory.store.Run run records ∧
      List.Forall₂ (Executes h s) order run ∧ Represents records a' := by
  induction hrun with
  | nil =>
    refine ⟨[], ∅, .nil _, .nil, ?_⟩
    intro id
    rw [hempty]
    rfl
  | snoc _ _ heff ih =>
    obtain ⟨run, records, hexec, hall, hrep⟩ := ih
    obtain ⟨call, reply, now, hcall, hread, hdoes⟩ := heff
    obtain ⟨order, hreply, hrep'⟩ := hdoes records hrep
    refine ⟨run ++ [Memory.store.fire records ⟨now, call, order⟩], _, hexec.snoc _, ?_, hrep'⟩
    refine List.rel_append hall (.cons ⟨?_, hread⟩ .nil)
    rw [hcall, ← hreply]
    rfl

theorem contents_of_nobody {t : Event} (ht : t = (store b).fire t.pre t.input)
    (hnobody : ∀ i, ¬ StepOf i t) : t.post.contents b = t.pre.contents b := by
  have hfires := fires_of_fire ht
  obtain ⟨s, input, o, s'⟩ := t
  simp only at hfires hnobody ⊢
  cases hfires with
  | invoke => simp [State.contents]
  | idle => rfl
  | moves i now scan _ _ progress' =>
    exact absurd ⟨⟨now, scan, rfl⟩, outputOf_ne_idle i progress'⟩ (hnobody i)

/-- When every call has returned, the contents are the table. -/
theorem holds_of_finished {records : Records} (hwf : WellFormed b s) (hdone : Finished s)
    (hrep : Represents records (s.contents b)) : Holds b s.table records := by
  have hnone : pendingKeys s.calls = [] := by
    rw [pendingKeys, List.flatMap_eq_nil_iff]
    intro c hc
    obtain ⟨reply, hreply⟩ := hdone c hc
    rw [hreply]
    rfl
  refine ⟨hwf.readable.named, ?_⟩
  intro id
  rw [hrep id]
  simp only [State.contents, contents, hnone, List.not_mem_nil, if_false]
  cases hrow : s.table.lookup (b.rowKey id) with
  | none => rfl
  | some row =>
    obtain ⟨record, hrec⟩ := hwf.readable.record _ row hrow
    simp [hrec]

section
variable {b : Backend} {h : History} {s : State} {i : Nat}

/-- In a tracked run, a call that got an answer took effect once. -/
theorem Tracked.takesEffect (ht : Tracked b h s) (heff : Effective s i) :
    TakesEffect StepOf (State.contents b) (callEffect h s i) h i := by
  obtain ⟨call, reply, hcall, hnot⟩ := heff
  cases ht.track i call _ hcall with
  | retry _ _ _ hd => exact absurd hd hnot
  | answered _ _ ha =>
    obtain ⟨_, now, hread, hdoes⟩ := ha
    exact hdoes.mono (fun a a' hdoes => ⟨call, reply, now, hcall, hread, hdoes⟩)

theorem Tracked.quiet (ht : Tracked b h s) (he : (store b).Run h s)
    (hdone : Finished s) (hnot : ¬ Effective s i) : Quiet StepOf (State.contents b) h i := by
  rcases Nat.lt_or_ge i s.calls.length with hlt | hge
  · have hcall : s.calls[i]? = some s.calls[i] := List.getElem?_eq_getElem hlt
    obtain ⟨reply, hreply⟩ := hdone s.calls[i] (List.getElem_mem hlt)
    generalize s.calls[i] = c at hcall hreply
    obtain ⟨call, progress⟩ := c
    have hprogress : progress = .returned reply := hreply
    subst hprogress
    cases ht.track i call _ hcall with
    | retry _ _ hq => exact hq
    | answered _ _ ha => exact absurd ⟨call, reply, hcall, ha.1⟩ hnot
  · intro t ht hown
    exact absurd hown (no_steps_of_unmade he i hge t ht)

end

end base64

/-- Two callers go for one expired lease; the loser is told of the winner, which completes.
A purge removes the row. -/
def raceInputs : List Input :=
  [ .invoke (.reserve (sampleRequest "a" "f" 10)), .advance 0 0,
    .invoke (.reserve (sampleRequest "b" "f" 50)), .invoke (.reserve (sampleRequest "c" "f" 60)),
    .advance 1 9, .advance 2 9, .advance 1 10, .advance 2 10, .advance 1 10, .advance 2 10,
    .advance 1 11, .advance 2 11, .advance 2 11,
    .invoke (.complete (sampleFence "b" 2) ⟨[1, 2]⟩), .advance 3 12, .advance 3 12,
    .invoke (.purgeCompletedBefore 20 5), .advance 4 13, .advance 4 13 ]

/-- The history of a run on given inputs, and the state it ends in. -/
def historyOf [Base64] (b : Backend) (inputs : List Input) : History :=
  (store b).trace (store b).init inputs

def endOf [Base64] (b : Backend) (inputs : List Input) : State :=
  (store b).after (store b).init inputs

/-- What the calls of a state returned, in the order they were made. -/
def State.replies (s : State) : List (Option Reply) :=
  s.calls.map fun c =>
    match c.progress with
    | .returned reply => some reply
    | _ => none

theorem finished_of_replies {s : State} (h : ∀ r ∈ s.replies, r.isSome = true) : Finished s := by
  intro c hc
  have hr := h _ (List.mem_map.mpr ⟨c, hc, rfl⟩)
  cases hp : c.progress with
  | returned reply => exact ⟨reply, rfl⟩
  | _ => simp [hp] at hr

theorem bytes_of_chars (bytes : List UInt8) :
    (bytes.map fun byte => Char.ofNat byte.toNat).map (fun c => UInt8.ofNat c.toNat) = bytes := by
  have hbyte (byte : UInt8) : (Char.ofNat byte.toNat).toNat = byte.toNat := by
    have hlt := byte.toNat_lt
    rw [Char.ofNat, dif_pos (.inl (by omega))]
    rfl
  simp [Function.comp_def, hbyte]

/-- One character a byte, for the two runs below. -/
instance sampleBase64 : Base64 where
  encode bytes := String.ofList (bytes.map fun byte => Char.ofNat byte.toNat)
  decode s := some (s.toList.map fun c => UInt8.ofNat c.toNat)
  decode_encode bytes :=
    congrArg some ((congrArg _ String.toList_ofList).trans (bytes_of_chars bytes))

section base64
variable [Base64] {h : History} {s : State} {b : Backend}

/-- In the in-memory store, who holds a record asked for it with the record's
fingerprint. -/
theorem held_of_requested {run : Memory.History} {records : Records}
    (he : Memory.store.Run run records) :
    ∀ id fp owner token lease, records.lookup id = some ⟨fp, .inProgress owner token lease⟩ →
      ∃ t ∈ run, ∃ req, t.input.call = .reserve req ∧ req.fingerprint = fp ∧
        req.ownerId = owner := by
  refine he.invariant (P := fun run records => ∀ id fp owner token lease,
    records.lookup id = some ⟨fp, .inProgress owner token lease⟩ →
      ∃ t ∈ run, ∃ req, t.input.call = .reserve req ∧ req.fingerprint = fp ∧
        req.ownerId = owner) (by intro id fp owner token lease hrec; cases hrec) ?_
  intro run records input _ ih id fp owner token lease hrec
  have hchange := (execute_step records input).change id
  have hrec' : (execute records input).1.lookup id = some ⟨fp, .inProgress owner token lease⟩ :=
    hrec
  rw [hrec'] at hchange
  rcases hchange.inProgress_after with ⟨lease', hbefore⟩ | ⟨req, hcall, _, hfp, howner, _⟩
  · obtain ⟨t, ht, hreq⟩ := ih id fp owner token lease' hbefore
    exact ⟨t, List.mem_append_left _ ht, hreq⟩
  · exact ⟨Memory.store.fire records input, by simp, req, hcall, hfp, howner⟩

/-- Every transition of the sequential run is a call of the history. -/
theorem exists_executed {order : List Nat} {run : Memory.History}
    (hall : List.Forall₂ (Executes h s) order run) {t : Transition Records Memory.Input Reply}
    (ht : t ∈ run) : ∃ i, Executes h s i t := by
  induction hall with
  | nil => cases ht
  | @cons i u _ _ hexecutes _ ih =>
    rcases List.mem_cons.mp ht with rfl | ht
    · exact ⟨i, hexecutes⟩
    · exact ih ht

/-- So a linearizable run cannot leave a row in progress whose owner never
asked with the row's fingerprint. -/
theorem requested_of_linearizable (hlin : Linearizable b h s) {id : OperationId} {row : Row}
    (hrow : s.table.lookup (b.rowKey id) = some row) (hstate : row.state = .inProgress) :
    ∃ c ∈ s.calls, ∃ req, c.call = .reserve req ∧ req.fingerprint.value = row.fingerprint ∧
      req.ownerId.value = row.ownerId := by
  obtain ⟨order, run, records, hl⟩ := hlin
  have hsame := hl.holds.same id
  rw [hrow, Option.map_some] at hsame
  obtain ⟨record, hrec, hrecord⟩ := Option.map_eq_some_iff.mp hsame.symm
  obtain ⟨token, _, _, rfl⟩ := record_inProgress hrecord.symm hstate
  obtain ⟨t, ht, req, hcall, hfp, howner⟩ := held_of_requested hl.exec _ _ _ _ _ hrec
  obtain ⟨i, hexecutes⟩ := exists_executed hl.executes ht
  refine ⟨_, List.mem_of_getElem? hexecutes.1, req, hcall, ?_, ?_⟩
  · rw [hfp]
  · rw [howner]

/-- `b` reads `a`'s reservation, which `d` makes again for another request and `b` takes over. -/
def mixedInputs : List Input :=
  [ .invoke (.reserve (sampleRequest "a" "f" 10)), .advance 0 0,
    .invoke (.reserve (sampleRequest "b" "f" 50)), .advance 1 5, .advance 1 5,
    .invoke (.abandon (sampleFence "a" 1)), .advance 2 6, .advance 2 6,
    .invoke (.reserve (sampleRequest "d" "g" 20)), .advance 3 7,
    .advance 1 30, .advance 1 30 ]

theorem mixed_not_linearizable (b : Backend) (row : Row)
    (hrow : (endOf b mixedInputs).table.lookup (b.rowKey sampleId) = some row)
    (hstate : row.state = .inProgress) (howner : row.ownerId = "b") (hfp : row.fingerprint = "g")
    (hcalls : (endOf b mixedInputs).calls.map CallState.call =
      [ .reserve (sampleRequest "a" "f" 10), .reserve (sampleRequest "b" "f" 50),
        .abandon (sampleFence "a" 1), .reserve (sampleRequest "d" "g" 20) ]) :
    ¬ Linearizable b (historyOf b mixedInputs) (endOf b mixedInputs) := by
  intro hlin
  obtain ⟨c, hc, req, hcall, hreqfp, hreqowner⟩ := requested_of_linearizable hlin hrow hstate
  have hmem : c.call ∈ (endOf b mixedInputs).calls.map CallState.call :=
    List.mem_map.mpr ⟨c, hc, rfl⟩
  rw [hcalls, hcall] at hmem
  rw [hfp] at hreqfp
  rw [howner] at hreqowner
  simp only [List.mem_cons, Call.reserve.injEq, reduceCtorEq, List.not_mem_nil, or_false,
    false_or] at hmem
  rcases hmem with rfl | rfl | rfl
  · exact absurd hreqfp (by decide)
  · exact absurd hreqfp (by decide)
  · exact absurd hreqowner (by decide)

end base64

end EgoRs.Durable
