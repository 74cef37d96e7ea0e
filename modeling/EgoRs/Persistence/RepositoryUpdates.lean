import EgoRs.Persistence.RepositoryRun

/-! # No Lost Update

Saves and deletes of the Postgres repository, under every interleaving of
their statements, are those of the in-memory repository in the order of
the commits: a `save` is committed at the version it expected and over the
row it saw, and a call that is refused is refused as the in-memory
repository would have refused it at some moment of the call.

This holds in the runs in which a `save` whose `SELECT` found no row
expects version 0 and still finds none when it writes. The code checks
neither.
-/

namespace EgoRs.Repository

open Framework EventStore

variable {A P : Type}

/-! ## The property -/

/-- `t` commits the `save` of session `i`, which saw `observed`. -/
def CommitsSave (t : Event A P) (i : Nat) (key : RepoKey) (aggregate : A) (expected : Int)
    (observed : Option (AggregateRow P)) (newVersion : Int) : Prop :=
  t.output.committed = some i ∧ ∃ id tenant payload, t.pre.sessions[i]? =
    some ⟨.save id aggregate tenant expected, key, .committing payload observed newVersion⟩

/-- `t` changes the row under `key`. -/
def Changes (t : Event A P) (key : RepoKey) : Prop :=
  ∃ i session, t.output.committed = some i ∧ t.pre.sessions[i]? = some session ∧
    session.key = key

/-- The answer of a Postgres call where the in-memory one is `memory`: the
same, but an aggregate has been written and read. -/
def Agrees (codec : Codec A P) (memory answer : Answer A) : Prop :=
  match memory with
  | .loaded aggregate => ∃ payload, codec.serialize aggregate = .ok payload ∧
      answer = match codec.deserialize payload with
        | .ok read => .loaded read
        | .error e => .failed e
  | _ => answer = memory

/-- No statement failed, and the aggregate to be saved serialises. -/
def Works (codec : Codec A P) (t : Event A P) : Prop :=
  match t.input with
  | .invoke (.save _ aggregate _ _) => ∃ payload, codec.serialize aggregate = .ok payload
  | .invoke _ => True
  | .advance _ => True
  | .fail _ _ _ => False

/-- A committed call does in memory what it did here, and was answered so
unless the answer was lost. -/
def Performed (h₁ : History A P) (t : Event A P) : Prop :=
  ∀ call, committedCall t = some call →
    ∃ i answer, ((repoAfter h₁).perform call).2 = answer ∧
      ((∃ v, answer = .saved v) ∨ answer = .deleted) ∧
      (t.output.answer = some (i, answer) ∨
        ∃ reason, t.output.answer = some (i, .failed (.internal reason)))

/-- A call that is answered without a commit gets the answer the in-memory
repository gives at some moment of the call. -/
def Refused (codec : Codec A P) (h₁ : History A P) (t : Event A P) : Prop :=
  ∀ i answer, t.output = .answered i answer → Works codec t →
    ∃ session, t.post.sessions[i]? = some session ∧ ∃ k₁ k₂, h₁ = k₁ ++ k₂ ∧
      (k₂ = [] ∨ i < invoked k₁) ∧ Agrees codec ((repoAfter k₁).perform session.call).2 answer

structure NoLostUpdates (codec : Codec A P) (h : History A P) (s : State A P) : Prop where
  /-- A `save` is committed at the version it expected. -/
  current : ∀ t ∈ h, ∀ i key aggregate expected observed v,
    CommitsSave t i key aggregate expected observed v → t.pre.version key = expected
  /-- What it overwrites is what it saw. -/
  observed : ∀ t ∈ h, ∀ i key aggregate expected observed v,
    CommitsSave t i key aggregate expected observed v → t.pre.rows key = observed
  /-- A `save` that reports success has been committed. -/
  saved : ∀ t ∈ h, ∀ i v, t.output.answer = some (i, .saved v) →
    ∃ key aggregate expected observed, CommitsSave t i key aggregate expected observed v
  /-- Between two saves at one version the row is changed by a third call. -/
  onePerVersion : ∀ h₁ t h₂ u h₃, h = h₁ ++ t :: (h₂ ++ u :: h₃) →
    ∀ i j key a b expected o o' v v', CommitsSave t i key a expected o v →
      CommitsSave u j key b expected o' v' → ∃ w ∈ h₂, Changes w key
  performed : Along Performed h
  refused : Along (Refused codec) h
  table : ∀ key, Stored codec (s.rows key) ((repoAfter h).lookup key)

/-! ## One step -/

section
variable {codec : Codec A P} {h : History A P} {s post : State A P} {output : Output A}
  {session : Session A P} {i j : Nat} {v : Int}

theorem Moves.of_saved {works : Bool} (hm : Moves codec s i session works post output)
    (ha : output.answer = some (j, .saved v)) : j = i ∧ output.committed = some i ∧
      ∃ payload observed, session.activity = .committing payload observed v := by
  cases hm with
  | committed _ payload observed _ answer at' answers =>
    obtain ⟨rfl, rfl⟩ : i = j ∧ answer = .saved v := by simpa using ha
    rcases answers with h | ⟨reason, h⟩
    · cases h
      exact ⟨rfl, rfl, payload, observed, at'⟩
    · cases h
  | removed _ _ _ answer _ _ _ answers =>
    obtain ⟨-, rfl⟩ : i = j ∧ answer = .saved v := by simpa using ha
    rcases answers with h | ⟨reason, h⟩ <;> cases h
  | loaded row =>
    cases hd : codec.deserialize row.payload <;> simp [Output.answered, hd] at ha
  | failed _ _ _ hanswer => simp [Output.answered, hanswer] at ha
  | conflict | notFound | vanished => simp [Output.answered] at ha
  | _ => simp [Output.silent] at ha

/-- A move that answers without a commit refuses the call, or reads. -/
theorem Moves.refusal {answer : Answer A} (hm : Moves codec s i session true post output)
    (hinv : Invariant codec h s)
    (hi : s.sessions[i]? = some session) (hout : output = .answered j answer) :
    j = i ∧ ∃ k₁ k₂, h = k₁ ++ k₂ ∧ (k₂ = [] ∨ i < invoked k₁) ∧
      Agrees codec ((repoAfter k₁).perform session.call).2 answer := by
  have hfits := hinv.sessions i session hi
  have hkey := hinv.keys i session hi
  have hstored := hinv.table session.key
  cases hm with
  | conflict _ _ row _ _ _ _ at' hcall _ present version =>
    cases hout
    rw [at'] at hkey
    have hk := hkey.resolve_left (by simp)
    refine ⟨rfl, h, [], by simp, .inl rfl, ?_⟩
    rw [hcall] at hk ⊢
    have hv : (repoAfter h).version session.key = row.version := by
      rw [hstored.version_eq, State.version, present]
      rfl
    simp [InMemoryRepository.perform, hk, InMemoryRepository.save, hv, version, Agrees]
  | notFound absent at' =>
    cases hout
    refine ⟨rfl, h, [], by simp, .inl rfl, ?_⟩
    rw [absent] at hstored
    have hnone : (repoAfter h).lookup session.key = none := by
      generalize (repoAfter h).lookup session.key = entry at hstored
      cases hstored
      rfl
    rcases at' with at' | at'
    · rw [at'] at hfits hkey
      obtain ⟨id, tenant, hcall⟩ := hfits
      have hk := hkey.resolve_left (by simp)
      rw [hcall] at hk ⊢
      simp [InMemoryRepository.perform, hk, InMemoryRepository.delete, hnone, Agrees]
    · rw [at'] at hfits hkey
      obtain ⟨id, tenant, hcall⟩ := hfits
      have hk := hkey.resolve_left (by simp)
      rw [hcall] at hk ⊢
      simp [InMemoryRepository.perform, hk, InMemoryRepository.load, hnone, Agrees]
  | vanished _ at' absent =>
    cases hout
    rw [at'] at hfits hkey
    obtain ⟨⟨id, tenant, hcall⟩, hcur⟩ := hfits
    have hk := hkey.resolve_left (by simp)
    -- the row it waited for was gone at some moment since
    obtain ⟨k₁, k₂, hsplit, hmade, hnone⟩ := hcur.resolve_left (by simp [absent])
    refine ⟨rfl, k₁, k₂, hsplit, .inr hmade, ?_⟩
    rw [hcall] at hk ⊢
    simp [InMemoryRepository.perform, hk, InMemoryRepository.delete, hnone, Agrees]
  | loaded row at' present =>
    cases hout
    rw [at'] at hfits hkey
    obtain ⟨id, tenant, hcall⟩ := hfits
    have hk := hkey.resolve_left (by simp)
    refine ⟨rfl, h, [], by simp, .inl rfl, ?_⟩
    rw [present] at hstored
    rw [hcall] at hk ⊢
    simp only [InMemoryRepository.perform, hk, InMemoryRepository.load]
    generalize (repoAfter h).lookup session.key = entry at hstored
    cases hstored with
    | present _ _ hser => exact ⟨row.payload, hser, rfl⟩
  | _ => cases hout

variable {key : RepoKey} {aggregate : A} {expected : Int} {observed : Option (AggregateRow P)}
  {t : Event A P}

theorem commitsSave_fits (hinv : Invariant codec h t.pre)
    (hc : CommitsSave t i key aggregate expected observed v) :
    t.pre.version key = expected ∧ t.pre.rows key = observed ∧ v = expected + 1 := by
  obtain ⟨-, id, tenant, payload, hi⟩ := hc
  obtain ⟨expected', ⟨id', aggregate', tenant', hcall, -⟩, hv, hver, -, hrow⟩ :=
    hinv.sessions i _ hi
  cases hcall
  exact ⟨hver, hrow, hv⟩

variable (ht : Fires codec t.pre t.input t.post t.output)
include ht

/-- A step that moves no session commits nothing and saves nothing. -/
theorem moves_or_idle : (∃ i session works, t.pre.sessions[i]? = some session ∧
      Moves codec t.pre i session works t.post t.output) ∨
    (t.output.committed = none ∧ t.post.rows = t.pre.rows ∧
      ∀ i v, t.output.answer ≠ some (i, .saved v)) := by
  obtain ⟨s, input, output, post⟩ := t
  cases ht with
  | invoked call _ _ hpost hout =>
    right
    rw [hpost, hout]
    simp only [State.step]
    cases hs : start codec call with
    | error | ok => simp [Output.answered, Output.silent]
  | nobody =>
    refine .inr ⟨rfl, rfl, ?_⟩
    rintro i v ⟨⟩
  | moved j session _ _ hj move => exact .inl ⟨j, session, true, hj, move⟩
  | broken j session _ _ _ _ hj move => exact .inl ⟨j, session, false, hj, move⟩

theorem moves_of_committed (hc : t.output.committed = some i) :
    ∃ session works, t.pre.sessions[i]? = some session ∧
      Moves codec t.pre i session works t.post t.output := by
  rcases moves_or_idle ht with ⟨j, session, works, hj, hm⟩ | ⟨hnone, -⟩
  · obtain rfl : j = i := by
      rcases hm.committed_eq with hnone | hsome
      · rw [hnone] at hc
        cases hc
      · rw [hsome] at hc
        exact Option.some.inj hc
    exact ⟨session, works, hj, hm⟩
  · rw [hnone] at hc
    cases hc

/-- A committed `save` leaves its row at the next version. -/
theorem version_of_commitsSave (hinv : Invariant codec h t.pre)
    (hc : CommitsSave t i key aggregate expected observed v) :
    t.post.version key = expected + 1 := by
  obtain ⟨-, -, hv⟩ := commitsSave_fits hinv hc
  obtain ⟨hcommitted, id, tenant, payload, hi⟩ := hc
  obtain ⟨session, works, hi', hm⟩ := moves_of_committed ht hcommitted
  obtain rfl := Option.mem_unique hi' hi
  obtain ⟨s, input, output, post⟩ := t
  change Moves codec s i _ works post output at hm
  cases hm with
  | committed _ _ _ _ _ at' =>
    cases at'
    simp [State.version, commitSave, upserted, hv]
  | removed _ _ _ _ at' => cases at'
  | _ => cases hcommitted

/-- A step that does not change a row leaves its version. -/
theorem version_of_not_changes (hn : ¬ Changes t key) : t.post.version key = t.pre.version key := by
  have hrows : t.post.rows key = t.pre.rows key := by
    rcases moves_or_idle ht with ⟨i, session, works, hi, hm⟩ | ⟨-, hrows, -⟩
    · apply hm.rows_of_ne
      rcases hm.committed_eq with hnone | hsome
      · exact .inr hnone
      · left
        intro hk
        exact hn ⟨i, session, hsome, hi, hk.symm⟩
    · rw [hrows]
  unfold State.version
  rw [hrows]

theorem performed_step (hinv : Invariant codec h t.pre) : Performed h t := by
  intro call hcall
  obtain ⟨i, hcommitted, hcall⟩ := Option.bind_eq_some_iff.mp hcall
  obtain ⟨session, works, hi, hm⟩ := moves_of_committed ht hcommitted
  obtain rfl : session.call = call := by simpa [hi] using hcall
  exact ⟨i, (hm.commits hinv hi hcommitted).2⟩

theorem saved_step (hinv : Invariant codec h t.pre) (ha : t.output.answer = some (i, .saved v)) :
    ∃ key aggregate expected observed, CommitsSave t i key aggregate expected observed v := by
  rcases moves_or_idle ht with ⟨j, session, works, hj, hm⟩ | ⟨-, -, hnone⟩
  · obtain ⟨rfl, hcommitted, payload, observed, hact⟩ := hm.of_saved ha
    have hfits := hinv.sessions i session hj
    obtain ⟨call, key, activity⟩ := session
    obtain rfl : activity = .committing payload observed v := hact
    obtain ⟨expected, ⟨id, aggregate, tenant, rfl, -⟩, -⟩ := hfits
    exact ⟨key, aggregate, expected, observed, hcommitted, id, tenant, payload, hj⟩
  · exact absurd ha (hnone i v)

theorem refused_step (hinv : Invariant codec h t.pre) : Refused codec h t := by
  intro i answer hout hworks
  obtain ⟨s, input, output, post⟩ := t
  dsimp only at ht hinv hout ⊢
  cases ht with
  | invoked call _ _ hcallPost hcallOut =>
    rw [hcallOut] at hout
    rw [hcallPost]
    simp only [State.step] at hout ⊢
    cases hs : start codec call with
    | ok => simp [hs, Output.silent, Output.answered] at hout
    | error e =>
      simp only [hs, Output.answered, Output.mk.injEq, true_and, Option.some.injEq,
        Prod.mk.injEq] at hout
      obtain ⟨rfl, rfl⟩ := hout
      refine ⟨⟨call, ⟨call.aggregateId, none⟩, .done⟩, by simp, h, [], by simp, .inl rfl, ?_⟩
      -- the tenant is missing, for the in-memory repository as well
      have hkey : call.key = .error e := by
        unfold start at hs
        cases hk : call.key with
        | error =>
          rw [hk] at hs
          cases hs
          rfl
        | ok =>
          rw [hk] at hs
          cases call with
          | save =>
            obtain ⟨payload, hser⟩ := hworks
            simp only [hser] at hs
            cases hs
          | load | delete => cases hs
      simp [InMemoryRepository.perform, hkey, Agrees]
  | nobody => cases hout
  | moved _ session _ _ hj move =>
    obtain ⟨rfl, k₁, k₂, hsplit, hwhen, hagrees⟩ := move.refusal hinv hj hout
    obtain ⟨activity, hsessions⟩ := move.sessions hj
    have hlt : i < s.sessions.length := (List.getElem?_eq_some_iff.mp hj).1
    refine ⟨{ session with activity := activity }, ?_, k₁, k₂, hsplit, hwhen, hagrees⟩
    rw [hsessions, List.getElem?_set_self hlt]
  | broken => exact hworks.elim

end

/-! ## Whole runs -/

section
variable {codec : Codec A P} {h : History A P} {s : State A P}

/-- Since a committed `save` its row has been changed, or is at the next
version. -/
def SinceSave (h : History A P) (s : State A P) : Prop :=
  ∀ h₁ t h₂, h = h₁ ++ t :: h₂ → ∀ i key aggregate expected observed v,
    CommitsSave t i key aggregate expected observed v →
    (∃ w ∈ h₂, Changes w key) ∨ s.version key = expected + 1

theorem SinceSave.step (hsince : SinceSave h s) (hinv : Invariant codec h s) (input : Input A) :
    SinceSave (h ++ [(postgres codec).fire s input]) (s.step codec input).1 := by
  intro h₁ t h₂ hsplit i key aggregate expected observed v hc
  rcases List.eq_nil_or_concat' h₂ with rfl | ⟨l, x, rfl⟩
  · obtain ⟨-, ht⟩ := List.append_inj' hsplit rfl
    obtain rfl : (postgres codec).fire s input = t := by simpa using ht
    exact .inr (version_of_commitsSave (fires_step codec s input) hinv hc)
  · have hsplit' : h ++ [(postgres codec).fire s input] = (h₁ ++ t :: l) ++ [x] := by
      simpa using hsplit
    obtain ⟨hold, hx⟩ := List.append_inj' hsplit' rfl
    obtain rfl : (postgres codec).fire s input = x := by simpa using hx
    rcases hsince h₁ t l hold i key aggregate expected observed v hc with ⟨w, hw, hch⟩ | hver
    · exact .inl ⟨w, List.mem_append_left _ hw, hch⟩
    · by_cases hch : Changes ((postgres codec).fire s input) key
      · exact .inl ⟨_, List.mem_append_right _ (List.mem_singleton.mpr rfl), hch⟩
      · right
        exact (version_of_not_changes (fires_step codec s input) hch).trans hver

theorem sinceSave_run (he : (postgres codec).Run h s)
    (hc : Along (fun _ t => Unraced t) h) : SinceSave h s := by
  have hboth : Invariant codec h s ∧ SinceSave h s := by
    refine he.invariant_along (P := fun h s => Invariant codec h s ∧ SinceSave h s)
      ⟨.init, ?_⟩ ?_ hc
    · intro h₁ t h₂ hsplit
      simp at hsplit
    · intro h s input _ hinv hstep
      exact ⟨hinv.1.step input hstep, hinv.2.step hinv.1 input⟩
  exact hboth.2

theorem steps_run (he : (postgres codec).Run h s) (hc : Along (fun _ t => Unraced t) h) :
    ∀ h₁ t h₂, h = h₁ ++ t :: h₂ → Fires codec t.pre t.input t.post t.output ∧
      Invariant codec h₁ t.pre ∧ SinceSave h₁ t.pre := by
  intro h₁ t h₂ hsplit
  subst hsplit
  obtain ⟨hfirst, hfire, -⟩ := he.split_at
  have hc' := hc.of_append
  refine ⟨?_, invariant_run hfirst hc', sinceSave_run hfirst hc'⟩
  rw [hfire]
  exact fires_step codec t.pre t.input

end

/-- **No update is lost** in a run in which every `save` whose `SELECT` found
no row expects version 0 and finds none when it writes. -/
theorem noLostUpdates_of_unraced (codec : Codec A P) {h : History A P} {s : State A P}
    (he : (postgres codec).Exec (postgres codec).init h s)
    (hc : Along (fun _ t => Unraced t) h) : NoLostUpdates codec h s where
  current := by
    intro t ht i key aggregate expected observed v hsave
    obtain ⟨h₁, h₂, hsplit⟩ := List.append_of_mem ht
    obtain ⟨-, hinv, -⟩ := steps_run he hc h₁ t h₂ hsplit
    exact (commitsSave_fits hinv hsave).1
  observed := by
    intro t ht i key aggregate expected observed v hsave
    obtain ⟨h₁, h₂, hsplit⟩ := List.append_of_mem ht
    obtain ⟨-, hinv, -⟩ := steps_run he hc h₁ t h₂ hsplit
    exact (commitsSave_fits hinv hsave).2.1
  saved := by
    intro t ht i v ha
    obtain ⟨h₁, h₂, hsplit⟩ := List.append_of_mem ht
    obtain ⟨hfires, hinv, -⟩ := steps_run he hc h₁ t h₂ hsplit
    exact saved_step hfires hinv ha
  onePerVersion := by
    intro h₁ t h₂ u h₃ hsplit i j key a b expected o o' v v' ht hu
    have hsplit' : h = (h₁ ++ t :: h₂) ++ u :: h₃ := by simpa using hsplit
    obtain ⟨-, hinv, hsince⟩ := steps_run he hc _ u h₃ hsplit'
    have hcurrent := (commitsSave_fits hinv hu).1
    -- otherwise the row would still be where the first `save` left it
    rcases hsince h₁ t h₂ rfl i key a expected o v ht with hchanged | hver
    · exact hchanged
    · omega
  performed := by
    intro h₁ t h₂ hsplit
    obtain ⟨hfires, hinv, -⟩ := steps_run he hc h₁ t h₂ hsplit
    exact performed_step hfires hinv
  refused := by
    intro h₁ t h₂ hsplit
    obtain ⟨hfires, hinv, -⟩ := steps_run he hc h₁ t h₂ hsplit
    exact refused_step hfires hinv
  table := (invariant_run he hc).table

/-! ## Runs -/

/-- Numbers, stored as they are. -/
def plainCodec : Codec Nat Nat := ⟨.ok, .ok⟩

def sampleSave (aggregate : Nat) (expected : Int) : Input Nat :=
  .invoke (.save "a-1" aggregate none expected)

/-- An aggregate is created; two saves at version 1 run at once, and the second
waits for the first; the aggregate is deleted. -/
def queuedSaves : List (Input Nat) :=
  [sampleSave 10 0, .advance 0, .advance 0, .advance 0, .advance 0,
    sampleSave 11 1, sampleSave 12 1, .advance 1, .advance 2, .advance 1, .advance 2,
    .advance 1, .advance 2, .advance 1, .advance 1, .advance 2, .advance 2,
    .invoke (.delete "a-1" none), .advance 3, .advance 3]

theorem noLostUpdates_queued :
    Along (fun _ t => Unraced t)
      ((postgres plainCodec).trace (postgres plainCodec).init queuedSaves) ∧
    NoLostUpdates plainCodec ((postgres plainCodec).trace (postgres plainCodec).init queuedSaves)
      ((postgres plainCodec).after (postgres plainCodec).init queuedSaves) := by
  have hc : Along (fun _ t => Unraced t)
      ((postgres plainCodec).trace (postgres plainCodec).init queuedSaves) :=
    Along.of_forall (by decide)
  exact ⟨hc, noLostUpdates_of_unraced plainCodec (Machine.exec_trace _ _ _) hc⟩

/-- Two first saves run at once; another save names version 5 of nothing. -/
def firstSaves : List (Input Nat) :=
  [sampleSave 10 0, sampleSave 11 0, .advance 0, .advance 1, .advance 0, .advance 1,
    .advance 0, .advance 0, .advance 1, .advance 1]

def answers (h : History Nat Nat) : List (Nat × Answer Nat) :=
  h.filterMap fun t => t.output.answer

/-- Both first saves report version 1 and the second has overwritten the first;
a save at version 5 of an aggregate that does not exist succeeds. -/
theorem first_saves_overwrite :
    answers ((postgres plainCodec).trace (postgres plainCodec).init firstSaves)
        = [(0, .saved 1), (1, .saved 1)] ∧
      ((postgres plainCodec).after (postgres plainCodec).init firstSaves).rows ⟨"a-1", none⟩
        = some ⟨0, 1, 11⟩ ∧
      answers ((postgres plainCodec).trace (postgres plainCodec).init
          [sampleSave 10 5, .advance 0, .advance 0, .advance 0, .advance 0])
        = [(0, .saved 1)] ∧
      ((∅ : InMemoryRepository Nat).perform (.save "a-1" 10 none 5)).2
        = .failed (.conflict "a-1" 5 0) ∧
      ¬ NoLostUpdates plainCodec
        ((postgres plainCodec).trace (postgres plainCodec).init firstSaves)
        ((postgres plainCodec).after (postgres plainCodec).init firstSaves) := by
  refine ⟨rfl, rfl, rfl, rfl, ?_⟩
  intro hno
  -- the commit of the second save, which expected version 0
  have hmem : (postgres plainCodec).fire
      ((postgres plainCodec).after (postgres plainCodec).init (firstSaves.take 9)) (.advance 1)
      ∈ (postgres plainCodec).trace (postgres plainCodec).init firstSaves :=
    List.mem_of_getElem? (i := 9) rfl
  have hcurrent := hno.current _ hmem 1 ⟨"a-1", none⟩ 11 0 none 1
    ⟨rfl, "a-1", none, 11, rfl⟩
  have hversion : ((postgres plainCodec).after (postgres plainCodec).init
      (firstSaves.take 9)).version ⟨"a-1", none⟩ = 1 := rfl
  rw [fire_pre, hversion] at hcurrent
  omega

end EgoRs.Repository
