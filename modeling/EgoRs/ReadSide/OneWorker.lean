import EgoRs.ReadSide.NoSkip

/-! # One Worker at a Time

A stream on which one session works at a time, while sessions of other
streams run beside it as they like. What concerns the stream is its events,
which of them are marked, its offset, and what the handler was given of it:
its `View`. Sessions of other streams leave the view as it is, up to events
that are appended; not even a session of the same projection and tag can mark
one of its events, since ids are unique.

So a property of the stream is proved by looking at one session: what holds
of the view while nobody works, and what while somebody does, phase by phase.
`turn_run` is the rule.
-/

namespace EgoRs.ReadSide

open Framework

variable {E : Type}

/-! ## Views -/

/-- What concerns one stream. -/
structure View (E : Type) where
  stream : TagStream E
  marked : EventStreamElement E → Bool
  offset : Option Offset
  /-- What was given to the handler. -/
  given : TagStream E

def viewOf (given : TagStream E) (stores : Stores E) (key : ClaimId) : View E where
  stream := tenantStream stores.streams key
  marked := fun e => stores.marks.seen ⟨key.projectionId, key.tag, e.eventId⟩
  offset := stores.offsets.lookup key
  given := given

/-- Versions increase, ids are unique, and the offset is at an event. -/
structure View.WellFormed (v : View E) : Prop where
  increasing : Increasing EventStreamElement.eventVersion v.stream
  uniqueIds : ∀ x ∈ v.stream, ∀ y ∈ v.stream, x.eventId = y.eventId → x = y
  offset : v.offset = none ∨ ∃ x ∈ v.stream, v.offset = some (.sequence x.eventVersion)

variable {h : ReadSideHistory E} {s : ReadSideState E}

theorem NoSkipInv.view (hinv : NoSkipInv h s)
    (given : TagStream E) (key : ClaimId) : (viewOf given s.stores key).WellFormed := by
  refine ⟨hinv.streams.increasing key, ?_, ?_⟩
  · intro x hx y hy hid
    exact hinv.streams.uniqueIds key.tag x (mem_tenantStream.mp hx).1 y
      (mem_tenantStream.mp hy).1 hid
  · show s.stores.offsets.lookup key = none ∨
      ∃ x ∈ tenantStream s.stores.streams key, s.stores.offsets.lookup key = _
    cases hoffset : s.stores.offsets.lookup key with
    | none => exact .inl rfl
    | some offset =>
      cases offset with
      | sequence =>
        obtain ⟨⟨x, hx, rfl⟩, -⟩ := hinv.offsets key _ hoffset
        exact .inr ⟨x, hx, rfl⟩

/-- What others do to a view: events are appended, which are not marked. -/
structure Aside (v v' : View E) : Prop where
  stream : ∃ appended, v'.stream = v.stream ++ appended ∧ ∀ e ∈ appended, v'.marked e = false
  marked : ∀ e ∈ v.stream, v'.marked e = v.marked e
  offset : v'.offset = v.offset
  given : v'.given = v.given

theorem Aside.refl (v : View E) : Aside v v :=
  ⟨⟨[], by simp, by simp⟩, fun _ _ => rfl, rfl, rfl⟩

/-! ## Positions -/

section
variable {v v' : View E} {k : Int}

/-- The events after `k`. -/
def View.after (v : View E) (k : Int) : TagStream E :=
  v.stream.filter fun e => decide (k < e.eventVersion)

/-- A position in the stream: the beginning, or an event. -/
def View.Anchored (v : View E) (k : Int) : Prop := k = 0 ∨ ∃ x ∈ v.stream, x.eventVersion = k

theorem View.WellFormed.anchored (hwf : v.WellFormed) : v.Anchored (resumesAfter v.offset) := by
  rcases hwf.offset with hnone | ⟨x, hx, hsome⟩
  · left
    rw [hnone]
    rfl
  · right
    rw [hsome]
    exact ⟨x, hx, rfl⟩

variable {e : EventStreamElement E}

/-- What is appended comes after every position. -/
theorem View.Anchored.lt_of_appended {appended : TagStream E} (hk : v.Anchored k)
    (hwf' : v'.WellFormed) (hstream : v'.stream = v.stream ++ appended) (he : e ∈ appended) :
    k < e.eventVersion := by
  rcases hk with rfl | ⟨x, hx, rfl⟩
  · have hpos := e.versionPositive
    omega
  · have hinc := hwf'.increasing
    rw [hstream] at hinc
    exact (List.pairwise_append.mp hinc).2.2 x hx e he

theorem View.Anchored.after_grows (hk : v.Anchored k) (hwf' : v'.WellFormed) (haside : Aside v v') :
    ∃ appended, v'.after k = v.after k ++ appended ∧ ∀ e ∈ appended, v'.marked e = false := by
  obtain ⟨appended, hstream, hnew⟩ := haside.stream
  refine ⟨appended, ?_, hnew⟩
  unfold View.after
  rw [hstream, List.filter_append]
  congr 1
  apply List.filter_eq_self.mpr
  intro e he
  exact decide_eq_true (hk.lt_of_appended hwf' hstream he)

theorem View.WellFormed.split (hwf : v.WellFormed) (k : Int) :
    v.stream.filter (fun e => decide (e.eventVersion ≤ k)) ++ v.after k = v.stream :=
  hwf.increasing.filter_append_filter k

theorem View.mem_after : e ∈ v.after k ↔ e ∈ v.stream ∧ k < e.eventVersion := by
  simp [View.after]

end

/-! ## What a session sees of its view -/

section
variable {stores : Stores E} {session : ReadSideSession} {lastOffset : Option Offset}
  (given : TagStream E)
include given

/-- What is fetched comes right after the offset. -/
theorem paginate_eq_take :
    paginate (eventsForTag stores.streams session.tag) session.tenant lastOffset session.batchSize =
      if isBlank session.tenant then []
      else ((viewOf given stores session.claimId).after (resumesAfter lastOffset)).take
        session.batchSize :=
  paginate_eq_tenantStream stores.streams session.claimId lastOffset session.batchSize

/-- A read store that returns nothing has nothing after the offset. -/
theorem after_eq_nil (hblank : isBlank session.tenant = false) (hsize : 0 < session.batchSize)
    (hnone : paginate (eventsForTag stores.streams session.tag) session.tenant lastOffset
      session.batchSize = []) :
    (viewOf given stores session.claimId).after (resumesAfter lastOffset) = [] := by
  rw [paginate_eq_take given, hblank] at hnone
  simp only [Bool.false_eq_true, if_false, List.take_eq_nil_iff] at hnone
  rcases hnone with hzero | hnil
  · omega
  · exact hnil

theorem seen_eq_marked (event : EventStreamElement E) : stores.marks.seen (session.dedupKey event) =
      (viewOf given stores session.claimId).marked event :=
  rfl

theorem marked_markSeen {event x : EventStreamElement E} (hne : x.eventId ≠ event.eventId) :
    (viewOf given { stores with marks := stores.marks.markSeen (session.dedupKey event) }
      session.claimId).marked x = (viewOf given stores session.claimId).marked x := by
  have hkey : (⟨session.projectionId, session.tag, x.eventId⟩ : DedupKey) ≠
      session.dedupKey event := by
    intro heq
    exact hne (DedupKey.mk.inj heq).2.2
  show Marks.seen _ _ = Marks.seen _ _
  simp only [Marks.seen, Marks.markSeen, List.mem_insert_iff]
  exact decide_eq_decide.mpr ⟨fun h => h.resolve_left hkey, .inr⟩

theorem marked_markSeen_self (event : EventStreamElement E) :
    (viewOf given { stores with marks := stores.marks.markSeen (session.dedupKey event) }
      session.claimId).marked event = true := by
  show Marks.seen _ _ = true
  simp only [Marks.seen, Marks.markSeen, List.mem_insert_iff]
  exact decide_eq_true (.inl rfl)

end

/-! ## Turns -/

/-- An execution of the stream that is under way. -/
def Working (s : ReadSideState E) (key : ClaimId) (i : Nat) (session : ReadSideSession)
    (phase : Phase E) : Prop :=
  s.sessions[i]? = some (session, phase) ∧ session.claimId = key ∧ phase.inProgress = true

def nobodyWorks (s : ReadSideState E) (key : ClaimId) : Bool :=
  s.sessions.all fun p => decide (p.1.claimId ≠ key) || !p.2.inProgress

theorem not_working_of_nobodyWorks {key : ClaimId}
    (h : nobodyWorks s key = true) (i : Nat) (session : ReadSideSession) (phase : Phase E) :
    ¬ Working s key i session phase := by
  intro ⟨hat, hkey, hprogress⟩
  have hp := List.all_eq_true.mp h _ (List.mem_of_getElem? hat)
  simp [hkey, hprogress] at hp

/-- What the executions of a stream may do, one at a time. -/
structure Discipline (E : Type) where
  starts : ReadSideSession → Bool
  /-- A call, from one phase to the next. -/
  moves : Phase E → Answer → Phase E → Bool
  stops : Phase E → Bool

def Discipline.allows (d : Discipline E) (key : ClaimId) (t : ReadSideEvent E) : Bool :=
  match t.input with
  | .execute session =>
    decide (session.claimId ≠ key) || (d.starts session && nobodyWorks t.pre key)
  | .resume i answer =>
    match t.pre.sessions[i]?, t.post.sessions[i]? with
    | some (session, phase), some (_, phase') =>
      decide (session.claimId ≠ key) || !phase.inProgress || d.moves phase answer phase'
    | _, _ => true
  | .stop i =>
    match t.pre.sessions[i]? with
    | some (session, phase) =>
      decide (session.claimId ≠ key) || !phase.inProgress || d.stops phase
    | none => true
  | _ => true

def Phase.gives : Phase E → TagStream E
  | .batch _ (.handle unique) => unique
  | _ => []

/-- At most one execution is under way, with `D` of it; without one, `I` holds. -/
structure Turn (key : ClaimId) (I : View E → Prop) (D : View E → ReadSideSession → Phase E → Prop)
    (given : TagStream E) (s : ReadSideState E) : Prop where
  sole : ∀ i j session session' phase phase', Working s key i session phase →
    Working s key j session' phase' → i = j
  idle : (∀ i session phase, ¬ Working s key i session phase) → I (viewOf given s.stores key)
  during : ∀ i session phase, Working s key i session phase →
    D (viewOf given s.stores key) session phase

/-- The two properties go together, and are kept by the other streams' sessions. -/
structure Keeps (backend : OffsetBackend) (d : Discipline E) (key : ClaimId) (I : View E → Prop)
    (D : View E → ReadSideSession → Phase E → Prop) : Prop where
  asideIdle : ∀ {v v'}, v.WellFormed → v'.WellFormed → Aside v v' → I v → I v'
  asideDuring : ∀ {v v' session phase}, v.WellFormed → v'.WellFormed → Aside v v' →
    D v session phase → D v' session phase
  start : ∀ {v session}, d.starts session = true → session.claimId = key → I v →
    D v session session.begin
  moves : ∀ {given stores stores' session phase phase' answer}, session.claimId = key →
    (viewOf given stores key).WellFormed →
    SessionMoves backend session stores answer phase stores' phase' →
    d.moves phase answer phase' = true → D (viewOf given stores key) session phase →
    if phase'.inProgress then D (viewOf (given ++ phase.gives) stores' key) session phase'
    else I (viewOf (given ++ phase.gives) stores' key)
  stops : ∀ {v session phase}, d.stops phase = true → D v session phase → I v

/-! ## What others do -/

section
variable {h : ReadSideHistory E} {s : ReadSideState E} {key : ClaimId} {given : TagStream E}

theorem aside_insert (hinv : NoSkipInv h s) {event : EventStreamElement E}
    (happends : Appends s.stores.streams event) : Aside (viewOf given s.stores key)
      (viewOf given { s.stores with streams := insertEvent s.stores.streams event } key) := by
  refine ⟨?_, fun _ _ => rfl, rfl, rfl⟩
  show ∃ appended, tenantStream (insertEvent s.stores.streams event) key = _ ∧ _
  rw [tenantStream_insertEvent hinv.streams.ordered happends]
  by_cases hkey : key.tag ∈ event.tags ∧ event.tenantId = key.tenant
  · rw [if_pos hkey]
    refine ⟨[event], rfl, ?_⟩
    intro e he
    obtain rfl := List.mem_singleton.mp he
    -- its id is new
    by_contra hmarked
    obtain ⟨x, hx, hid, -⟩ := hinv.marks _ (of_decide_eq_true (Bool.not_eq_false _ ▸ hmarked))
    exact (happends.2 key.tag hkey.1 x hx).1 hid
  · rw [if_neg hkey]
    exact ⟨[], (List.append_nil _).symm, by simp⟩

theorem aside_moves (hinv : NoSkipInv h s) {backend : OffsetBackend} {i : Nat}
    {session : ReadSideSession} {phase phase' : Phase E} {answer : Answer} {stores' : Stores E}
    (hat : s.sessions[i]? = some (session, phase)) (hother : session.claimId ≠ key)
    (hmoves : SessionMoves backend session s.stores answer phase stores' phase') :
    Aside (viewOf given s.stores key) (viewOf given stores' key) := by
  have heffect := hmoves.effect
  refine ⟨⟨[], ?_, by simp⟩, ?_, ?_, rfl⟩
  · show tenantStream stores'.streams key = tenantStream s.stores.streams key ++ []
    rw [heffect.streams, List.append_nil]
  · intro e he
    show stores'.marks.seen _ = s.stores.marks.seen _
    rcases heffect.marks with hsame | ⟨fence, offset, event, rest, lease, rfl, hmarked⟩
    · rw [hsame]
    · have hevent := (hinv.sessions i session _ hat).2 event List.mem_cons_self
      -- a mark of one of our events would be of an event of another tenant
      have hne : (⟨key.projectionId, key.tag, e.eventId⟩ : DedupKey) ≠ session.dedupKey event := by
        intro heq
        obtain ⟨hprojection, htag, hid⟩ := DedupKey.mk.inj heq
        obtain ⟨hin, htenant⟩ := mem_tenantStream.mp he
        obtain ⟨hin', htenant'⟩ := mem_tenantStream.mp hevent.1
        have htag' : session.claimId.tag = key.tag := htag.symm
        rw [htag'] at hin'
        obtain rfl := hinv.streams.uniqueIds key.tag e hin event hin' hid
        apply hother
        have htenants : session.tenant = key.tenant := htenant'.symm.trans htenant
        unfold ReadSideSession.claimId
        rw [← hprojection, ← htag, htenants]
      rw [hmarked]
      simp only [Marks.seen, Marks.markSeen, List.mem_insert_iff, hne, false_or]
  · show stores'.offsets.lookup key = s.stores.offsets.lookup key
    rcases heffect.offsets with hsame | ⟨fence, offset, stage, lease, rfl, hwritten⟩
    · rw [hsame]
    · rw [hwritten, AList.lookup_insert_ne (Ne.symm hother)]

end

/-! ## The rule -/

section
variable {backend : OffsetBackend} {d : Discipline E} {key : ClaimId} {I : View E → Prop}
  {D : View E → ReadSideSession → Phase E → Prop} {g : TagStream E} {s : ReadSideState E}
  {s' : ReadSideState E}

/-- A step of others: the executions of the stream are where they were. -/
theorem Turn.aside (hturn : Turn key I D g s) (hk : Keeps backend d key I D)
    (hwf : (viewOf g s.stores key).WellFormed) (hwf' : (viewOf g s'.stores key).WellFormed)
    (haside : Aside (viewOf g s.stores key) (viewOf g s'.stores key))
    (hsame : ∀ i session phase, Working s' key i session phase ↔ Working s key i session phase) :
    Turn key I D g s' := by
  refine ⟨?_, ?_, ?_⟩
  · intro i j session session' phase phase' hi hj
    exact hturn.sole i j session session' phase phase' ((hsame _ _ _).mp hi) ((hsame _ _ _).mp hj)
  · intro hnobody
    refine hk.asideIdle hwf hwf' haside (hturn.idle ?_)
    intro i session phase hworking
    exact hnobody i session phase ((hsame _ _ _).mpr hworking)
  · intro i session phase hworking
    exact hk.asideDuring hwf hwf' haside (hturn.during i session phase ((hsame _ _ _).mp hworking))

variable {i : Nat} {session : ReadSideSession} {phase : Phase E}

/-- A step of the one execution, which is then in `phase'`. -/
theorem Turn.own (hturn : Turn key I D g s) {phase' : Phase E} {stores' : Stores E}
    {g' : TagStream E} (hworking : Working s key i session phase)
    (hnext : if phase'.inProgress then D (viewOf g' stores' key) session phase' else I
      (viewOf g' stores' key)) :
    Turn key I D g' ⟨stores', s.sessions.set i (session, phase')⟩ := by
  obtain ⟨hat, hkey, hprogress⟩ := hworking
  have hcases : ∀ j other phase'', Working (⟨stores', s.sessions.set i (session, phase')⟩ :
      ReadSideState E) key j other phase'' → j = i ∧ other = session ∧ phase'' = phase' := by
    intro j other phase'' ⟨hj, hkey', hprogress'⟩
    rcases getElem?_set_cases hat hj with ⟨hji, heq⟩ | ⟨hji, hold⟩
    · cases heq
      exact ⟨hji, rfl, rfl⟩
    · exact absurd (hturn.sole j i other session phase'' phase ⟨hold, hkey', hprogress'⟩
        ⟨hat, hkey, hprogress⟩) hji
  refine ⟨?_, ?_, ?_⟩
  · intro j k _ _ _ _ hj hk
    rw [(hcases j _ _ hj).1, (hcases k _ _ hk).1]
  · intro hnobody
    cases hover : phase'.inProgress with
    | true =>
      refine absurd ⟨?_, hkey, hover⟩ (hnobody i session phase')
      exact List.getElem?_set_self (List.getElem?_eq_some_iff.mp hat).1
    | false =>
      rw [hover] at hnext
      simpa using hnext
  · intro j other phase'' hj
    obtain ⟨-, rfl, rfl⟩ := hcases j other phase'' hj
    rw [hj.2.2] at hnext
    simpa using hnext

theorem given_resumeOutput {answer : Answer} :
    (resumeOutput i session answer phase).given key =
      if session.claimId = key then phase.gives else [] := by
  unfold resumeOutput
  split
  · rfl
  · rename_i hphase
    cases phase with
    | batch fence phase =>
      cases phase with
      | handle unique => exact absurd rfl (hphase fence unique)
      | _ => simp [ReadSideOutput.given, Phase.gives]
    | _ => simp [ReadSideOutput.given, Phase.gives]

theorem given_snoc (h : ReadSideHistory E) (t : ReadSideEvent E) (key : ClaimId) :
    given (h ++ [t]) key = given h key ++ t.output.given key := by
  simp [given]

/-- An execution that starts when nobody works is the only one. -/
theorem turn_started (hnobody : ∀ i session phase, ¬ Working s key i session phase)
    (hkey : session.claimId = key) (hbegin : D (viewOf g s.stores key) session session.begin) :
    Turn key I D g { s with sessions := s.sessions ++ [(session, session.begin)] } := by
  have hcases : ∀ j other phase, Working ({ s with
      sessions := s.sessions ++ [(session, session.begin)] } : ReadSideState E) key j other phase →
        j = s.sessions.length ∧ other = session ∧ phase = session.begin := by
    intro j other phase ⟨hj, hkey', hprogress⟩
    rcases getElem?_concat_cases hj with ⟨hlast, heq⟩ | hold
    · cases heq
      exact ⟨hlast, rfl, rfl⟩
    · exact absurd ⟨hold, hkey', hprogress⟩ (hnobody j other phase)
  refine ⟨?_, ?_, ?_⟩
  · intro i j _ _ _ _ hi hj
    rw [(hcases i _ _ hi).1, (hcases j _ _ hj).1]
  · intro hnone
    refine absurd ⟨List.getElem?_concat_length, hkey, ?_⟩
      (hnone s.sessions.length session session.begin)
    unfold ReadSideSession.begin
    split <;> rfl
  · intro j other phase hj
    obtain ⟨-, rfl, rfl⟩ := hcases j other phase hj
    exact hbegin

theorem Turn.execute (hturn : Turn key I D g s) (hk : Keeps backend d key I D)
    (hwf : (viewOf g s.stores key).WellFormed)
    (hallows : decide (session.claimId ≠ key) || (d.starts session && nobodyWorks s key)) :
    Turn key I D g { s with sessions := s.sessions ++ [(session, session.begin)] } := by
  by_cases hkey : session.claimId = key
  · simp only [hkey, ne_eq, not_true_eq_false, decide_false, Bool.false_or,
      Bool.and_eq_true] at hallows
    have hnobody := not_working_of_nobodyWorks hallows.2
    exact turn_started hnobody hkey (hk.start hallows.1 hkey (hturn.idle hnobody))
  · refine hturn.aside hk hwf hwf (Aside.refl _) ?_
    intro j other phase
    constructor
    · rintro ⟨hj, hkey', hprogress⟩
      rcases getElem?_concat_cases hj with ⟨-, heq⟩ | hold
      · cases heq
        exact absurd hkey' hkey
      · exact ⟨hold, hkey', hprogress⟩
    · rintro ⟨hj, hkey', hprogress⟩
      refine ⟨?_, hkey', hprogress⟩
      rw [List.getElem?_append_left (List.getElem?_eq_some_iff.mp hj).1]
      exact hj

/-- Executions of other streams going on, or stopping, change nothing for this one. -/
theorem working_set_other {phase' : Phase E} {stores' : Stores E}
    (hat : s.sessions[i]? = some (session, phase)) (hother : session.claimId ≠ key) (j : Nat)
    (session' : ReadSideSession) (phase'' : Phase E) :
    Working (⟨stores', s.sessions.set i (session, phase')⟩ : ReadSideState E)
      key j session' phase'' ↔
      Working s key j session' phase'' := by
  constructor
  · rintro ⟨hj, hkey, hprogress⟩
    rcases getElem?_set_cases hat hj with ⟨-, heq⟩ | ⟨-, hold⟩
    · cases heq
      exact absurd hkey hother
    · exact ⟨hold, hkey, hprogress⟩
  · rintro ⟨hj, hkey, hprogress⟩
    refine ⟨?_, hkey, hprogress⟩
    have hne : i ≠ j := by
      rintro rfl
      rw [hat] at hj
      cases hj
      exact hother hkey
    exact (List.getElem?_set_ne hne).trans hj

/-- **Turn rule**, one step. -/
theorem Turn.step (hturn : Turn key I D (given h key) s)
    (hk : Keeps backend d key I D) (hinv : NoSkipInv h s) {input : ReadSideInput E}
    {output : ReadSideOutput E}
    (hs : ReadSideSteps backend s input s' output)
    (happends : appendsOnly ⟨s, input, output, s'⟩ = true)
    (hallows : d.allows key ⟨s, input, output, s'⟩ = true) :
    Turn key I D (given (h ++ [⟨s, input, output, s'⟩]) key) s' := by
  have hwf := hinv.view (given h key) key
  have hwf' := (hinv.step hs happends).view (given h key) key
  have hsilent : output.given key = [] → Turn key I D (given h key) s' →
      Turn key I D (given h key ++ output.given key) s' := by
    intro hnone hkept
    rw [hnone, List.append_nil]
    exact hkept
  rw [given_snoc]
  cases hs with
  | idle => exact hsilent rfl hturn
  | tick =>
    exact hsilent rfl (hturn.aside hk hwf hwf' (Aside.refl _) fun _ _ _ => Iff.rfl)
  | insert =>
    exact hsilent rfl (hturn.aside hk hwf hwf' (aside_insert hinv (of_decide_eq_true happends))
      fun _ _ _ => Iff.rfl)
  | execute => exact hsilent rfl (hturn.execute hk hwf hallows)
  | resume i answer session phase phase' _ at' inProgress moves =>
    rw [given_resumeOutput]
    by_cases hkey : session.claimId = key
    · rw [if_pos hkey]
      have hnext : d.moves phase answer phase' = true := by
        have hset : (s.sessions.set i (session, phase'))[i]? = some (session, phase') :=
          List.getElem?_set_self (List.getElem?_eq_some_iff.mp at').1
        simpa [Discipline.allows, at', hset, hkey, inProgress] using hallows
      refine hturn.own ⟨at', hkey, inProgress⟩ ?_
      exact hk.moves hkey hwf moves hnext (hturn.during i session phase ⟨at', hkey, inProgress⟩)
    · rw [if_neg hkey, List.append_nil]
      exact hturn.aside hk hwf hwf' (aside_moves hinv at' hkey moves)
        (working_set_other at' hkey)
  | stop i session phase at' inProgress =>
    refine hsilent rfl ?_
    by_cases hkey : session.claimId = key
    · have hstops : d.stops phase = true := by
        simpa [Discipline.allows, at', hkey, inProgress] using hallows
      refine hturn.own ⟨at', hkey, inProgress⟩ ?_
      exact hk.stops hstops (hturn.during i session phase ⟨at', hkey, inProgress⟩)
    · exact hturn.aside hk hwf hwf' (Aside.refl _) (working_set_other at' hkey)

/-- **Turn rule**: a run in which the stream's sessions take turns, from a state where it
holds. -/
theorem turn_run (hk : Keeps backend d key I D) {h₀ h : ReadSideHistory E} {s₀ : ReadSideState E}
    (he₀ : (readSide E backend).Run h₀ s₀) (he : (readSide E backend).Exec s₀ h s)
    (happends : Along (fun _ t => appendsOnly t = true) (h₀ ++ h))
    (hallows : Along (fun _ t => d.allows key t = true) h) (hturn : Turn key I D (given h₀ key) s₀)
    : Turn key I D (given (h₀ ++ h) key) s := by
  revert happends
  refine he.invariant_along (P := fun h s => Along (fun _ t => appendsOnly t = true) (h₀ ++ h) →
    Turn key I D (given (h₀ ++ h) key) s) ?_ ?_ hallows
  · intro _
    rw [List.append_nil]
    exact hturn
  · intro h s input hexec ih hallowed happends
    rw [← List.append_assoc] at happends ⊢
    have hinv := noSkipInv_run (he₀.append hexec) happends.of_append
    exact (ih happends.of_append).step hk hinv (readSideSteps_step backend s input) happends.last
      hallowed

theorem turn_init (hidle : I ⟨[], fun _ => false, none, []⟩) :
    Turn key I D (given [] key) (readSide E backend).init := by
  refine ⟨?_, fun _ => hidle, ?_⟩
  · intro i j session session' phase phase' hi
    cases hi.1
  · intro i session phase hi
    cases hi.1

end

end EgoRs.ReadSide
