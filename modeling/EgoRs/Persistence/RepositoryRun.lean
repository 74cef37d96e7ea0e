import EgoRs.Framework.Transactions
import EgoRs.Persistence.RepositoryStep

/-! # Runs of the Repository

What a run of the Postgres repository has done so far is the in-memory
repository after the calls it committed, in the order of their commits.
`Invariant` says so, and what every session knows at its place: one that
is about to write holds the row, and the row is as it saw it.

It rests on one condition. A `save` whose `SELECT` returned no row has no
lock and has not compared its expected version; `Unraced` asks that the
version is 0 and that there is still no row when its upsert runs.
-/

namespace EgoRs.Repository

open Framework EventStore

variable {A P : Type}

/-! ## The in-memory repository of a run -/

/-- The call whose change `t` committed. -/
def committedCall (t : Event A P) : Option (Call A) :=
  t.output.committed.bind fun i => (t.pre.sessions[i]?).map Session.call

/-- The in-memory repository after the calls of a run, in commit order. -/
def repoAfter (h : History A P) : InMemoryRepository A :=
  (h.filterMap committedCall).foldl (fun repo call => (repo.perform call).1) ∅

theorem repoAfter_snoc (h : History A P) (t : Event A P) :
    repoAfter (h ++ [t]) = match committedCall t with
      | some call => ((repoAfter h).perform call).1
      | none => repoAfter h := by
  unfold repoAfter
  rw [List.filterMap_append, List.foldl_append]
  cases hc : committedCall t <;> simp [hc]

def isInvoke (t : Event A P) : Bool :=
  match t.input with
  | .invoke _ => true
  | _ => false

def invoked (h : History A P) : Nat := h.countP isInvoke

theorem invoked_snoc (h : History A P) (t : Event A P) :
    invoked (h ++ [t]) = invoked h + if isInvoke t then 1 else 0 := by
  unfold invoked
  rw [List.countP_append, List.countP_singleton]

/-- A row and what the in-memory repository has in its place. -/
inductive Stored (codec : Codec A P) : Option (AggregateRow P) → Option (A × Int) → Prop where
  | absent : Stored codec none none
  | present (row : AggregateRow P) (aggregate : A)
      (payload : codec.serialize aggregate = .ok row.payload) :
      Stored codec (some row) (some (aggregate, row.version))

variable {key : RepoKey}

theorem Stored.version_eq {codec : Codec A P} {s : State A P} {repo : InMemoryRepository A}
    (h : Stored codec (s.rows key) (repo.lookup key)) : repo.version key = s.version key := by
  unfold InMemoryRepository.version State.version
  generalize s.rows key = row at h
  generalize repo.lookup key = entry at h
  cases h with
  | absent | present => rfl

/-! ## The condition -/

/-- A `save` that saw no row writes at expected version 0 and meets none. -/
def unraced (t : Event A P) : Bool :=
  match t.input with
  | .advance i =>
    match t.pre.sessions[i]? with
    | some ⟨.save _ _ _ expected, key, .upserting _ none _⟩ =>
      t.pre.lockedByOther i key || (decide (expected = 0) && (t.pre.rows key).isNone)
    | _ => true
  | _ => true

def Unraced (t : Event A P) : Prop := unraced t = true

instance (t : Event A P) : Decidable (Unraced t) := inferInstanceAs (Decidable (_ = true))

/-! ## The invariant -/

/-- A moment of the run, after call `i` was made, at which there was no
aggregate under `key`. -/
def AbsentDuring (h : History A P) (i : Nat) (key : RepoKey) : Prop :=
  ∃ h₁ h₂, h = h₁ ++ h₂ ∧ i < invoked h₁ ∧ (repoAfter h₁).lookup key = none

theorem AbsentDuring.snoc {h : History A P} {i : Nat}
    (ha : AbsentDuring h i key) (t : Event A P) : AbsentDuring (h ++ [t]) i key := by
  obtain ⟨h₁, h₂, rfl, hi, habs⟩ := ha
  exact ⟨h₁, h₂ ++ [t], by simp, hi, habs⟩

/-- The call is a `save` at `expected` with this payload. -/
def Saving (codec : Codec A P) (call : Call A) (payload : P) (expected : Int) : Prop :=
  ∃ id aggregate tenant, call = .save id aggregate tenant expected ∧
    codec.serialize aggregate = .ok payload

/-- What session `i` knows at `activity`. -/
def Fits (codec : Codec A P) (h : History A P) (s : State A P) (i : Nat) (call : Call A)
    (key : RepoKey) : Activity P → Prop
  | .opening payload => ∃ expected, Saving codec call payload expected
  | .selecting payload => ∃ expected, Saving codec call payload expected
  | .locking payload _ => ∃ expected, Saving codec call payload expected
  | .upserting payload none newVersion =>
    (∃ expected, Saving codec call payload expected) ∧ newVersion = 1
  | .upserting payload (some row) newVersion =>
    Saving codec call payload row.version ∧ newVersion = row.version + 1 ∧
      s.locks key = some i ∧ s.rows key = some row
  | .committing payload observed newVersion =>
    ∃ expected, Saving codec call payload expected ∧ newVersion = expected + 1 ∧
      s.version key = expected ∧ s.locks key = some i ∧ s.rows key = observed
  | .closing => True
  | .deleting => ∃ id tenant, call = .delete id tenant
  | .removing incarnation => (∃ id tenant, call = .delete id tenant) ∧
      ((s.current key incarnation).isSome ∨ AbsentDuring h i key)
  | .loading => ∃ id tenant, call = .load id tenant
  | .done => True

structure Invariant (codec : Codec A P) (h : History A P) (s : State A P) : Prop where
  keys : ∀ (i : Nat) (session : Session A P), s.sessions[i]? = some session →
    session.activity = .done ∨ session.call.key = .ok session.key
  sessions : ∀ (i : Nat) (session : Session A P), s.sessions[i]? = some session →
    Fits codec h s i session.call session.key session.activity
  table : ∀ key, Stored codec (s.rows key) ((repoAfter h).lookup key)
  made : s.sessions.length = invoked h

/-! ## The table after a step -/

section
variable {codec : Codec A P} {repo : InMemoryRepository A} {key : RepoKey}

theorem Stored.isSome {row : AggregateRow P} {entry : Option (A × Int)}
    (h : Stored codec (some row) entry) : ∃ found, entry = some found := by
  cases h with
  | present => exact ⟨_, rfl⟩

variable {h : History A P} {s post : State A P} {i : Nat} {session : Session A P} {works : Bool}
  {output : Output A}

/-- A commit does to the table what its call does in memory, and succeeds
there. -/
theorem Moves.commits (hm : Moves codec s i session works post output) (hinv : Invariant codec h s)
    (hi : s.sessions[i]? = some session) (hc : output.committed = some i) :
    (∀ k, Stored codec (post.rows k) (((repoAfter h).perform session.call).1.lookup k)) ∧
      ∃ answer, ((repoAfter h).perform session.call).2 = answer ∧
        ((∃ v, answer = .saved v) ∨ answer = .deleted) ∧ (output.answer = some (i, answer) ∨
          ∃ reason, output.answer = some (i, .failed (.internal reason))) := by
  have hfits := hinv.sessions i session hi
  have hkey := hinv.keys i session hi
  cases hm with
  | committed _ payload _ _ _ at' answers =>
    rw [at'] at hfits hkey
    obtain ⟨expected, ⟨id, aggregate, tenant, hcall, hser⟩, rfl, hv, -, -⟩ := hfits
    have hk := hkey.resolve_left (by simp)
    rw [hcall] at hk
    have hversion := (hinv.table session.key).version_eq.trans hv
    simp only [hcall, InMemoryRepository.perform, hk, InMemoryRepository.save, hversion, ne_eq,
      not_true_eq_false, if_false]
    refine ⟨?_, _, rfl, .inl ⟨_, rfl⟩, ?_⟩
    · intro k
      by_cases hkk : k = session.key
      · subst hkk
        simp only [commitSave, set_rows, unlock_rows, Function.update_self, AList.lookup_insert]
        exact .present (Repository.upserted s session.key payload (expected + 1)) aggregate hser
      · simp only [commitSave, set_rows, unlock_rows, Function.update_of_ne hkk,
          AList.lookup_insert_ne hkk]
        exact hinv.table k
    · rcases answers with rfl | ⟨reason, rfl⟩
      · exact .inl rfl
      · exact .inr ⟨reason, rfl⟩
  | removed _ _ _ _ at' _ present answers =>
    rw [at'] at hfits hkey
    obtain ⟨⟨id, tenant, hcall⟩, -⟩ := hfits
    have hk := hkey.resolve_left (by simp)
    rw [hcall] at hk
    have hstored := hinv.table session.key
    rw [present] at hstored
    obtain ⟨entry, hentry⟩ := hstored.isSome
    simp only [hcall, InMemoryRepository.perform, hk, InMemoryRepository.delete, hentry]
    refine ⟨?_, _, rfl, .inr rfl, ?_⟩
    · intro k
      by_cases hkk : k = session.key
      · subst hkk
        simp only [commitDelete, set_rows, Function.update_self, AList.lookup_erase]
        exact .absent
      · simp only [commitDelete, set_rows, Function.update_of_ne hkk, AList.lookup_erase_ne hkk]
        exact hinv.table k
    · rcases answers with rfl | ⟨reason, rfl⟩
      · exact .inl rfl
      · exact .inr ⟨reason, rfl⟩
  | conflict | notFound | vanished | loaded | failed => simp [Output.answered] at hc
  | _ => simp [Output.silent] at hc

theorem Moves.committed_eq (hm : Moves codec s i session works post output) :
    output.committed = none ∨ output.committed = some i := by
  cases hm <;> first | exact .inl rfl | exact .inr rfl

theorem Moves.table (hm : Moves codec s i session works post output) (hinv : Invariant codec h s)
    (hi : s.sessions[i]? = some session) {t : Event A P} (hpre : t.pre = s)
    (hout : t.output = output) (k : RepoKey) :
    Stored codec (post.rows k) ((repoAfter (h ++ [t])).lookup k) := by
  rw [repoAfter_snoc]
  rcases hm.committed_eq with hnone | hsome
  · have hcall : committedCall t = none := by simp [committedCall, hout, hnone]
    rw [hcall, hm.rows_of_ne (.inr hnone)]
    exact hinv.table k
  · have hcall : committedCall t = some session.call := by
      simp [committedCall, hout, hsome, hpre, hi]
    rw [hcall]
    exact (hm.commits hinv hi hsome).1 k

end

/-! ## The sessions after a step -/

section
variable {codec : Codec A P} {h : History A P} {s post : State A P} {i : Nat}
  {session : Session A P} {works : Bool} {output : Output A} {call : Call A} {key : RepoKey}
  {activity : Activity P}

theorem Fits.snoc (hf : Fits codec h s i call key activity) (hlocks : post.locks = s.locks)
    (hrows : post.rows = s.rows) (t : Event A P) :
    Fits codec (h ++ [t]) post i call key activity := by
  cases activity with
  | upserting _ observed =>
    cases observed with
    | none => exact hf
    | some => simpa only [Fits, hlocks, hrows] using hf
  | committing =>
    simpa only [Fits, hlocks, hrows, State.version] using hf
  | removing =>
    obtain ⟨hdel, hcur⟩ := hf
    refine ⟨hdel, ?_⟩
    rcases hcur with hcur | habs
    · left
      simpa only [State.current, hrows] using hcur
    · exact .inr (habs.snoc t)
  | _ => exact hf

/-- The row a waiting `DELETE` saw is still there, or there is none. -/
theorem Moves.current_kept (hm : Moves codec s i session works post output) {incarnation : Nat}
    (hcur : (s.current key incarnation).isSome) :
    (post.current key incarnation).isSome ∨ post.rows key = none := by
  by_cases hsame : key ≠ session.key ∨ output.committed = none
  · left
    unfold State.current
    rw [hm.rows_of_ne hsame]
    exact hcur
  · obtain ⟨hk, hcommitted⟩ := not_or.mp hsame
    obtain rfl : key = session.key := not_not.mp hk
    obtain ⟨row, hrow⟩ := Option.isSome_iff_exists.mp hcur
    obtain ⟨hrow, hinc⟩ := current_eq_some hrow
    cases hm with
    | committed =>
      -- the upsert updates the row it met
      left
      simp [State.current, commitSave, Repository.upserted, hrow, hinc, Option.filter]
    | removed =>
      right
      simp [commitDelete]
    | _ => exact absurd rfl hcommitted

theorem Fits.held {payload : P} {observed : Option (AggregateRow P)} {v : Int}
    (hf : Fits codec h s i call key (.committing payload observed v)) : s.locks key = some i := by
  obtain ⟨_, _, _, _, hlock, _⟩ := hf
  exact hlock

/-- A session keeps what it knows while another one moves. -/
theorem Fits.other {j : Nat} (hf : Fits codec h s j call key activity) (hinv : Invariant codec h s)
    (hm : Moves codec s i session works post output) (hi : s.sessions[i]? = some session)
    (hj : j ≠ i) (t : Event A P) (habsent : post.rows key = none → AbsentDuring (h ++ [t]) j key) :
    Fits codec (h ++ [t]) post j call key activity := by
  have hcommit : ∀ payload observed v, session.activity = .committing payload observed v →
      s.locks session.key = some i := by
    intro payload observed v hact
    have hown := hinv.sessions i session hi
    rw [hact] at hown
    exact hown.held
  cases activity with
  | upserting _ observed =>
    cases observed with
    | none => exact hf
    | some =>
      obtain ⟨hs, hv, hlock, hrow⟩ := hf
      obtain ⟨hlock', hrow'⟩ := hm.held hj hlock hcommit
      exact ⟨hs, hv, hlock', hrow'.trans hrow⟩
  | committing =>
    obtain ⟨expected, hs, hv, hver, hlock, hrow⟩ := hf
    obtain ⟨hlock', hrow'⟩ := hm.held hj hlock hcommit
    refine ⟨expected, hs, hv, ?_, hlock', hrow'.trans hrow⟩
    unfold State.version
    rw [hrow']
    exact hver
  | removing =>
    obtain ⟨hdel, hcur⟩ := hf
    refine ⟨hdel, ?_⟩
    rcases hcur with hcur | habs
    · rcases hm.current_kept hcur with hkept | hgone
      · exact .inl hkept
      · exact .inr (habsent hgone)
    · exact .inr (habs.snoc t)
  | _ => exact hf

variable {session' : Session A P}

theorem set_sessions_self {x : State A P} (hi : s.sessions[i]? = some session)
    (hx : x.sessions = s.sessions) (h : (x.set i session activity).sessions[i]? = some session') :
    session' = { session with activity := activity } := by
  rw [State.set, hx] at h
  rcases getElem?_set_cases hi h with ⟨-, rfl⟩ | ⟨hne, -⟩
  · rfl
  · exact absurd rfl hne

/-- The session that moves knows what its next activity asks for. -/
theorem Moves.own (hm : Moves codec s i session works post output) (hinv : Invariant codec h s)
    (hi : s.sessions[i]? = some session) (t : Event A P)
    (hraced : ∀ payload v, session.activity = .upserting payload none v → works = true →
      s.lockedByOther i session.key = false →
      s.rows session.key = none ∧ ∃ id aggregate tenant, session.call = .save id aggregate tenant 0)
    (hi' : post.sessions[i]? = some session') :
    Fits codec (h ++ [t]) post i session'.call session'.key session'.activity := by
  have hfits := hinv.sessions i session hi
  cases hm with
  | idle =>
    obtain rfl : session = session' := Option.mem_unique hi hi'
    exact hfits.snoc rfl rfl t
  | opened _ at' | seen _ _ at' =>
    obtain rfl := set_sessions_self hi rfl hi'
    rw [at'] at hfits
    exact hfits
  | unseen _ at' | gone _ _ at' =>
    obtain rfl := set_sessions_self hi rfl hi'
    rw [at'] at hfits
    exact ⟨hfits, rfl⟩
  | observed _ _ _ id aggregate tenant _ at' call _ present version =>
    obtain rfl := set_sessions_self hi rfl hi'
    rw [at'] at hfits
    obtain ⟨expected', id', aggregate', tenant', hcall, hser⟩ := hfits
    rw [call] at hcall
    cases hcall
    subst version
    exact ⟨⟨id, aggregate, tenant, call, hser⟩, rfl, lock_locks_self _, present⟩
  | upserted payload observed _ at' free =>
    obtain rfl := set_sessions_self hi rfl hi'
    rw [at'] at hfits
    cases observed with
    | none =>
      obtain ⟨⟨expected, id, aggregate, tenant, hcall, hser⟩, rfl⟩ := hfits
      obtain ⟨habs, id', aggregate', tenant', hcall'⟩ := hraced payload _ at' rfl free
      rw [hcall] at hcall'
      cases hcall'
      refine ⟨0, ⟨id, aggregate, tenant, hcall, hser⟩, rfl, ?_, lock_locks_self _, habs⟩
      show ((s.rows session.key).map AggregateRow.version).getD 0 = 0
      rw [habs]
      rfl
    | some row =>
      obtain ⟨hsaving, rfl, -, hrow⟩ := hfits
      refine ⟨row.version, hsaving, rfl, ?_, lock_locks_self _, hrow⟩
      show ((s.rows session.key).map AggregateRow.version).getD 0 = row.version
      rw [hrow]
      rfl
  | committed | closed | failed =>
    obtain rfl := set_sessions_self hi (by simp) hi'
    trivial
  | found _ at' present =>
    obtain rfl := set_sessions_self hi rfl hi'
    rw [at'] at hfits
    exact ⟨hfits, .inl (by simp [State.current, present, Option.filter])⟩
  | _ =>
    obtain rfl := set_sessions_self hi rfl hi'
    trivial

end

/-! ## The invariant over whole runs -/

section
variable {codec : Codec A P} {h : History A P} {s : State A P} {session : Session A P}

/-- The condition, as session `i` needs it. -/
theorem unraced_spec {i : Nat} {payload : P} {v : Int}
    (hinv : Invariant codec h s) (hi : s.sessions[i]? = some session)
    {output : Output A} {post : State A P} (hc : Unraced ⟨s, .advance i, output, post⟩)
    (hact : session.activity = .upserting payload none v)
    (hfree : s.lockedByOther i session.key = false) : s.rows session.key = none ∧
      ∃ id aggregate tenant, session.call = .save id aggregate tenant 0 := by
  have hfits := hinv.sessions i session hi
  obtain ⟨call, key, activity⟩ := session
  obtain rfl : activity = .upserting payload none v := hact
  obtain ⟨⟨expected, id, aggregate, tenant, rfl, -⟩, -⟩ := hfits
  have hcond : s.lockedByOther i key = true ∨ (expected = 0 ∧ (s.rows key).isNone = true) := by
    have h := hc
    simp only [Unraced, unraced, hi] at h
    simpa using h
  rcases hcond with hlocked | ⟨rfl, habs⟩
  · rw [hfree] at hlocked
    cases hlocked
  · exact ⟨Option.isNone_iff_eq_none.mp habs, id, aggregate, tenant, rfl⟩

/-- A step of session `i` keeps the invariant. -/
theorem Invariant.move (hinv : Invariant codec h s) {i : Nat}
    (hi : s.sessions[i]? = some session) {t : Event A P} {works : Bool}
    (hpre : t.pre = s) (hinvoke : isInvoke t = false)
    (hm : Moves codec s i session works t.post t.output)
    (hraced : ∀ payload v, session.activity = .upserting payload none v → works = true →
      s.lockedByOther i session.key = false →
      s.rows session.key = none ∧ ∃ id aggregate tenant,
        session.call = .save id aggregate tenant 0) :
    Invariant codec (h ++ [t]) t.post := by
  have htable := hm.table hinv hi hpre rfl
  obtain ⟨activity, hsessions⟩ := hm.sessions hi
  have hlen : t.post.sessions.length = s.sessions.length := by rw [hsessions, List.length_set]
  have hmade : t.post.sessions.length = invoked (h ++ [t]) := by
    rw [hlen, hinv.made, invoked_snoc, hinvoke]
    rfl
  refine ⟨?_, ?_, htable, hmade⟩
  · intro j session' hj'
    rcases hinv.keys i session hi with hdone | hkey
    · rw [hm.of_done hdone] at hj'
      exact hinv.keys j session' hj'
    · rw [hsessions] at hj'
      rcases getElem?_set_cases hi hj' with ⟨-, rfl⟩ | ⟨-, hold⟩
      · exact .inr hkey
      · exact hinv.keys j session' hold
  · intro j session' hj'
    have hown := hj'
    rw [hsessions] at hj'
    rcases getElem?_set_cases hi hj' with ⟨rfl, -⟩ | ⟨hj, hj'⟩
    · exact hm.own hinv hi t hraced hown
    · apply (hinv.sessions j session' hj').other hinv hm hi hj t
      -- where there is no row now, the in-memory repository has none either
      intro hnone
      have hlt : j < s.sessions.length := (List.getElem?_eq_some_iff.mp hj').1
      have hstored := htable session'.key
      rw [hnone] at hstored
      refine ⟨h ++ [t], [], by simp, by omega, ?_⟩
      generalize (repoAfter (h ++ [t])).lookup session'.key = entry at hstored
      cases hstored with
      | absent => rfl

theorem start_spec {call : Call A} {activity : Activity P}
    (hs : start codec call = .ok (key, activity)) (i : Nat) :
    call.key = .ok key ∧ Fits codec h s i call key activity := by
  unfold start at hs
  cases hk : call.key with
  | error =>
    rw [hk] at hs
    cases hs
  | ok =>
    rw [hk] at hs
    cases call with
    | save id aggregate tenant expected =>
      cases hser : codec.serialize aggregate with
      | error =>
        simp only [hser] at hs
        cases hs
      | ok =>
        simp only [hser] at hs
        cases hs
        exact ⟨rfl, expected, id, aggregate, tenant, rfl, hser⟩
    | load id tenant | delete id tenant =>
      cases hs
      exact ⟨rfl, id, tenant, rfl⟩

theorem Invariant.invoke (hinv : Invariant codec h s) (call : Call A) :
    Invariant codec (h ++ [(postgres codec).fire s (.invoke call)])
      (s.step codec (.invoke call)).1 := by
  generalize ht : (postgres codec).fire s (.invoke call) = t
  obtain ⟨session, hsessions, hrows, hlocks, hkey, hfits⟩ : ∃ session : Session A P,
      (s.step codec (.invoke call)).1.sessions = s.sessions ++ [session] ∧
      (s.step codec (.invoke call)).1.rows = s.rows ∧
      (s.step codec (.invoke call)).1.locks = s.locks ∧
      (session.activity = .done ∨ session.call.key = .ok session.key) ∧
      Fits codec (h ++ [t]) (s.step codec (.invoke call)).1 s.sessions.length session.call
        session.key session.activity := by
    simp only [State.step]
    cases hs : start codec call with
    | error => exact ⟨_, rfl, rfl, rfl, .inl rfl, trivial⟩
    | ok started =>
      obtain ⟨key, activity⟩ := started
      obtain ⟨hkey, hfits⟩ := start_spec (h := h) (s := s) hs s.sessions.length
      exact ⟨_, rfl, rfl, rfl, .inr hkey, hfits.snoc rfl rfl t⟩
  have hcommitted : committedCall t = none := by
    subst ht
    simp only [committedCall, Machine.fire, postgres, State.step]
    cases start codec call with
    | error | ok => rfl
  have hinvoke : isInvoke t = true := by
    subst ht
    rfl
  refine ⟨?_, ?_, ?_, ?_⟩
  · intro j session' hj
    rw [hsessions] at hj
    rcases getElem?_concat_cases hj with ⟨-, rfl⟩ | hold
    · exact hkey
    · exact hinv.keys j session' hold
  · intro j session' hj
    rw [hsessions] at hj
    rcases getElem?_concat_cases hj with ⟨rfl, rfl⟩ | hold
    · exact hfits
    · exact (hinv.sessions j session' hold).snoc hlocks hrows t
  · intro key
    rw [repoAfter_snoc, hcommitted, hrows]
    exact hinv.table key
  · rw [hsessions, List.length_append, hinv.made, invoked_snoc, hinvoke]
    rfl

theorem Invariant.init : Invariant codec [] (postgres codec).init where
  keys := by
    intro i session hi
    simp [postgres] at hi
  sessions := by
    intro i session hi
    simp [postgres] at hi
  table := by
    intro key
    exact .absent
  made := rfl

theorem Invariant.step (hinv : Invariant codec h s) (input : Input A)
    (hc : Unraced ((postgres codec).fire s input)) :
    Invariant codec (h ++ [(postgres codec).fire s input]) (s.step codec input).1 := by
  have hfires := fires_step codec s input
  have hfire : (postgres codec).fire s input =
      ⟨s, input, (s.step codec input).2, (s.step codec input).1⟩ := rfl
  rw [hfire] at hc ⊢
  generalize hpost : (s.step codec input).1 = post at hfires hc ⊢
  generalize hout : (s.step codec input).2 = output at hfires hc ⊢
  cases hfires with
  | invoked call =>
    subst hpost hout
    exact hinv.invoke call
  | nobody _ noCall =>
    have hinvoke : isInvoke (⟨s, input, .silent, s⟩ : Event A P) = false := by
      cases input with
      | invoke call => exact absurd rfl (noCall call)
      | advance | fail => rfl
    refine ⟨hinv.keys, ?_, ?_, ?_⟩
    · intro i session hi
      exact (hinv.sessions i session hi).snoc rfl rfl _
    · intro key
      rw [repoAfter_snoc]
      exact hinv.table key
    · rw [hinv.made, invoked_snoc, hinvoke]
      rfl
  | moved _ _ _ _ hi move =>
    refine hinv.move hi rfl rfl move ?_
    intro payload v hact _ hfree
    exact unraced_spec hinv hi hc hact hfree
  | broken _ _ _ _ _ _ hi move =>
    refine hinv.move hi rfl rfl move ?_
    intro payload v _ hworks
    cases hworks

/-- **The invariant of a run** whose upserts after an empty `SELECT` are not
raced. -/
theorem invariant_run (he : (postgres codec).Run h s)
    (hc : Along (fun _ t => Unraced t) h) : Invariant codec h s := by
  refine he.invariant_along .init ?_ hc
  intro h s input _ hinv hstep
  exact hinv.step input hstep

end

end EgoRs.Repository
