import EgoRs.Framework.Consecutive
import EgoRs.Persistence.PostgresStep

/-! # Postgres Streams Are Linear

The version check of an append reads what is committed at that moment and
what its own transaction has inserted; other transactions may commit
before the first row goes in. What keeps a stream linear is the index: the
first row of a batch takes the version right after the one that was read,
and with it the right to extend the stream until the transaction ends.

The invariant says so. Committed versions are `1, ..., n`; the rows a
transaction has on a stream continue them; and by the index only one
transaction at a time has any.
-/

namespace EgoRs.Postgres

open Framework EventStore

variable {E : Type}

/-! ## Tables -/

/-- How many events of a stream are committed. -/
def count (stream : StreamKey) (db : Db (Row E)) : Nat := (versionsOf stream db.committed).length

/-- **The tables of a run**: unique index entries, and on every stream the
committed versions from one on, continued by whoever has rows on it. -/
structure Numbering (db : Db (Row E)) : Prop where
  keyed : db.Keyed Row.indexKey
  committed : ∀ stream, Numbered 0 (versionsOf stream db.committed)
  own : ∀ i stream, Numbered (count stream db) (versionsOf stream (db.own i))

namespace Numbering
variable {db : Db (Row E)} {i j : Nat} {stream : StreamKey}

theorem empty : Numbering (⟨[], []⟩ : Db (Row E)) where
  keyed := Db.Keyed.empty
  committed := fun _ => numbered_nil 0
  own := by
    intro i stream
    simp [Db.own]

theorem visible (hn : Numbering db) (i : Nat) (stream : StreamKey) :
    Numbered 0 (versionsOf stream (db.visible i)) := by
  unfold Db.visible
  rw [versionsOf_append, numbered_append]
  refine ⟨hn.committed stream, ?_⟩
  have hown := hn.own i stream
  rwa [Int.zero_add]

theorem currentVersion_committed (hn : Numbering db) (stream : StreamKey) :
    currentVersion stream db.committed = count stream db :=
  (hn.committed stream).max_getD

/-- **One transaction at a time** has rows on a stream: two would both have the
version after the committed ones. -/
theorem exclusive (hn : Numbering db) (hij : i ≠ j) (hi : versionsOf stream (db.own i) ≠ []) :
    versionsOf stream (db.own j) = [] := by
  by_contra hj
  have hfirst : ∀ k, versionsOf stream (db.own k) ≠ [] →
      ((count stream db : Int) + 1) ∈ versionsOf stream (db.own k) := by
    intro k hk
    have hpos := List.length_pos_of_ne_nil hk
    apply (hn.own k stream).mem_iff.mpr
    omega
  obtain ⟨row, hrow, hv⟩ := List.mem_map.mp (hfirst i hi)
  obtain ⟨hmem, hstream⟩ := mem_eventsOf.mp hrow
  have hkey : (Row.event row).indexKey ∈ (db.own i).map Row.indexKey :=
    List.mem_map.mpr ⟨_, hmem, rfl⟩
  apply hn.keyed.separate i j hij _ hkey
  apply indexKey_mem_iff.mpr
  rw [hstream, hv]
  exact hfirst j hj

theorem start (hn : Numbering db) : Numbering db.start where
  keyed := hn.keyed.start
  committed := hn.committed
  own := by
    intro i stream
    rw [Db.own_start]
    exact hn.own i stream

theorem discard (hn : Numbering db) (i : Nat) : Numbering (db.discard i) where
  keyed := hn.keyed.discard i
  committed := hn.committed
  own := by
    intro j stream
    show Numbered (count stream db) _
    by_cases hj : j = i
    · subst hj
      simp
    · rw [Db.own_discard_ne hj]
      exact hn.own j stream

theorem count_publish (i : Nat) (stream : StreamKey) :
    count stream (db.publish i) = count stream db + (versionsOf stream (db.own i)).length := by
  simp [count]

theorem publish (hn : Numbering db) (i : Nat) : Numbering (db.publish i) where
  keyed := hn.keyed.publish i
  committed := hn.visible i
  own := by
    intro j stream
    by_cases hj : j = i
    · subst hj
      simp
    · rw [Db.own_publish_ne hj, count_publish]
      by_cases hempty : versionsOf stream (db.own j) = []
      · rw [hempty]
        exact numbered_nil _
      · -- then the rows that are published are on other streams
        rw [hn.exclusive hj hempty]
        simpa using hn.own j stream

/-- A row goes in where its transaction's rows on every stream stay numbered. -/
theorem insert (hn : Numbering db) (hi : i < db.pending.length) {row : Row E}
    (new : db.taken Row.indexKey i row.indexKey = false)
    (free : db.heldByOther Row.indexKey i row.indexKey = false)
    (hnext : ∀ stream, Numbered (count stream db)
      (versionsOf stream (db.own i) ++ versionsOf stream [row])) :
    Numbering (db.insert i row) where
  keyed := hn.keyed.insert hi new free
  committed := hn.committed
  own := by
    intro j stream
    show Numbered (count stream db) _
    by_cases hj : j = i
    · subst hj
      rw [Db.own_insert_self hi, versionsOf_append]
      exact hnext stream
    · rw [Db.own_insert_ne hj]
      exact hn.own j stream

end Numbering

/-! ## Batches -/

/-- Session `i` has inserted `k` rows of its batch. Until the first one goes in
the stream may run ahead of what the version check read; from then on it
cannot. -/
structure Batch (db : Db (Row E)) (i : Nat) (call : AppendCall E) (current : Int) (k : Nat) :
    Prop where
  version : current = call.args.expectedVersion
  nonneg : 0 ≤ current
  fits : k ≤ call.args.events.length
  staged : ∀ j stored, j < k → call.args.events[j]? = some stored →
    call.row current j stored ∈ db.own i
  position :
    (versionsOf call.stream (db.own i) = [] ∧ k = 0 ∧ current ≤ count call.stream db) ∨
    (versionsOf call.stream (db.own i) ≠ [] ∧
      current + k = count call.stream db + (versionsOf call.stream (db.own i)).length)

namespace Batch
variable {db : Db (Row E)} {i : Nat} {call : AppendCall E} {current : Int} {k : Nat}
  {stored : StoredEvent E}

theorem start (hn : Numbering db) (hread : current = currentVersion call.stream (db.visible i))
    (hversion : current = call.args.expectedVersion) : Batch db i call current 0 := by
  -- the version check counts the committed events and the session's own
  have hmax := (hn.visible i call.stream).max_getD
  have hlen : (versionsOf call.stream (db.visible i)).length =
      count call.stream db + (versionsOf call.stream (db.own i)).length := by
    simp [Db.visible, count]
  rw [hlen] at hmax
  push_cast at hmax
  replace hread := hread.trans hmax
  refine ⟨hversion, by omega, Nat.zero_le _, ?_, ?_⟩
  · intro j stored hj
    omega
  · by_cases hown : versionsOf call.stream (db.own i) = []
    · left
      rw [hown] at hread
      simp only [List.length_nil] at hread
      exact ⟨hown, rfl, by omega⟩
    · right
      exact ⟨hown, by omega⟩

theorem complete (hb : Batch db i call current k) (hfull : call.args.events.length ≤ k) :
    Batch db i call call.args.expectedVersion call.args.events.length := by
  have hk : k = call.args.events.length := Nat.le_antisymm hb.fits hfull
  rw [← hb.version, ← hk]
  exact hb

section
variable (hb : Batch db i call current k) (hn : Numbering db)
include hb hn

/-- A version that is free is the next one. -/
theorem next (new : db.taken Row.indexKey i (call.row current k stored).indexKey = false) :
    current + k + 1 = count call.stream db + (versionsOf call.stream (db.own i)).length + 1 := by
  obtain ⟨hown, rfl, hle⟩ | ⟨_, heq⟩ := hb.position
  · have hfree := (Db.taken_eq_false_iff.mp new).1
    rw [row_indexKey_mem_iff, (hn.committed call.stream).mem_iff] at hfree
    have hnonneg := hb.nonneg
    have hcount : (versionsOf call.stream db.committed).length = count call.stream db := rfl
    rw [hown]
    simp only [List.length_nil]
    omega
  · omega

theorem insert (hi : i < db.pending.length) (event : call.args.events[k]? = some stored)
    (new : db.taken Row.indexKey i (call.row current k stored).indexKey = false) :
    Batch (db.insert i (call.row current k stored)) i call current (k + 1) := by
  have hnext := hb.next hn new
  have hown := Db.own_insert_self hi (call.row current k stored)
  have hlt : k < call.args.events.length := (List.getElem?_eq_some_iff.mp event).1
  refine ⟨hb.version, hb.nonneg, hlt, ?_, ?_⟩
  · intro j stored' hj hev
    rw [hown, List.mem_append]
    by_cases hjk : j = k
    · subst hjk
      obtain rfl : stored = stored' := Option.mem_unique event hev
      right
      simp
    · left
      exact hb.staged j stored' (by omega) hev
  · right
    have hcount : count call.stream (db.insert i (call.row current k stored)) =
        count call.stream db := rfl
    rw [hown, versionsOf_append, versionsOf_row, if_pos rfl, hcount]
    refine ⟨by simp, ?_⟩
    simp only [List.length_append, List.length_singleton]
    omega

/-- **A version that is taken was committed by someone else**, so the stream is
ahead of the expected version. -/
theorem behind (taken : db.taken Row.indexKey i (call.row current k stored).indexKey = true) :
    call.args.expectedVersion < count call.stream db := by
  have hmem : (call.row current k stored).indexKey ∈ (db.visible i).map Row.indexKey := by
    simpa [Db.taken] using taken
  rw [row_indexKey_mem_iff, (hn.visible i call.stream).mem_iff] at hmem
  have hlen : (versionsOf call.stream (db.visible i)).length =
      count call.stream db + (versionsOf call.stream (db.own i)).length := by
    simp [Db.visible, count]
  have hversion := hb.version
  obtain ⟨hown, rfl, hle⟩ | ⟨_, heq⟩ := hb.position
  · rw [hown] at hlen
    simp only [List.length_nil] at hlen
    omega
  · omega

end

/-- A batch does not notice what other sessions do: whoever commits on its
stream does so before its first row. -/
theorem transfer {db' : Db (Row E)} (hb : Batch db i call current k)
    (hown : db'.own i = db.own i) (hle : count call.stream db ≤ count call.stream db')
    (hkeep : versionsOf call.stream (db.own i) ≠ [] →
      count call.stream db' = count call.stream db) : Batch db' i call current k := by
  refine ⟨hb.version, hb.nonneg, hb.fits, ?_, ?_⟩
  · rw [hown]
    exact hb.staged
  · rw [hown]
    obtain ⟨hempty, hk, hcur⟩ | ⟨hne, heq⟩ := hb.position
    · left
      exact ⟨hempty, hk, by omega⟩
    · right
      exact ⟨hne, by rw [hkeep hne]; exact heq⟩

end Batch

/-! ## Sessions -/

/-- What a session relies on in its activity. -/
def Stands (db : Db (Row E)) (i : Nat) (session : Session E) : Activity E → Prop
  | .inserting call current k => session.aborted = false ∧ Batch db i call current k
  | .rereading call => call.args.expectedVersion < count call.stream db
  | .committing call _ =>
    session.direct = true ∧ Batch db i call call.args.expectedVersion call.args.events.length
  | _ => True

structure SessionInv (db : Db (Row E)) (i : Nat) (session : Session E) : Prop where
  dead : session.aborted = true → db.own i = []
  stands : Stands db i session session.activity
  /-- A direct append has rows on its own stream only. -/
  alone : session.direct = true → ∀ call, session.activity.call = some call →
    ∀ stream, stream ≠ call.stream → eventsOf stream (db.own i) = []

section
variable {db db' : Db (Row E)} {i : Nat} {session : Session E}

theorem SessionInv.stands_at (hi : SessionInv db i session) {activity : Activity E}
    (hat : session.activity = activity) : Stands db i session activity :=
  hat ▸ hi.stands

theorem SessionInv.of_no_call {session : Session E} (hc : session.activity.call = none)
    (hdead : session.aborted = true → db.own i = []) : SessionInv db i session := by
  refine ⟨hdead, ?_, ?_⟩
  · cases hact : session.activity with
    | inserting | rereading | committing =>
      rw [hact] at hc
      cases hc
    | _ => trivial
  · intro _ call hcall
    rw [hc] at hcall
    cases hcall

theorem SessionInv.transfer (hi : SessionInv db i session) (hown : db'.own i = db.own i)
    (hle : ∀ stream, count stream db ≤ count stream db')
    (hkeep : ∀ stream, versionsOf stream (db.own i) ≠ [] →
      count stream db' = count stream db) : SessionInv db' i session := by
  refine ⟨?_, ?_, ?_⟩
  · rw [hown]
    exact hi.dead
  · have hstands := hi.stands
    generalize session.activity = activity at hstands ⊢
    cases activity with
    | inserting => exact ⟨hstands.1, hstands.2.transfer hown (hle _) (hkeep _)⟩
    | rereading call => exact Int.lt_of_lt_of_le hstands (Int.ofNat_le.mpr (hle call.stream))
    | committing => exact ⟨hstands.1, hstands.2.transfer hown (hle _) (hkeep _)⟩
    | _ => trivial
  · rw [hown]
    exact hi.alone

theorem SessionInv.proceed {call : AppendCall E} {current : Int} {k : Nat}
    (hb : Batch db i call current k) (hlive : session.aborted = false)
    (halone : session.direct = true → ∀ stream, stream ≠ call.stream →
      eventsOf stream (db.own i) = []) {o : Outcome E}
    (ho : Proceeds db session call current k o) : SessionInv db i o.2.1 := by
  have hdead : session.aborted = true → db.own i = [] := by
    intro h
    rw [hlive] at h
    cases h
  have hmine : session.direct = true → ∀ call', some call = some call' →
      ∀ stream, stream ≠ call'.stream → eventsOf stream (db.own i) = [] := by
    rintro hdirect _ ⟨⟩
    exact halone hdirect
  cases ho with
  | more => exact ⟨hdead, ⟨hlive, hb⟩, hmine⟩
  | committing full direct => exact ⟨hdead, ⟨direct, hb.complete full⟩, hmine⟩
  | answered => exact SessionInv.of_no_call rfl hdead

end

/-! ## One move -/

section
variable {db : Db (Row E)} {i : Nat} {session : Session E} {cause : Cause E} {o : Outcome E}

/-- **A move keeps the tables numbered and its session in order.** -/
theorem Moves.preserves (hm : Moves db i session cause o) (hn : Numbering db)
    (hlt : i < db.pending.length) (hi : SessionInv db i session) :
    Numbering o.1 ∧ SessionInv o.1 i o.2.1 := by
  -- the session loses its rows, whatever becomes of it
  have hdropped : ∀ session' : Session E, session'.activity.call = none →
      SessionInv (db.discard i) i session' := by
    intro session' hcall
    exact SessionInv.of_no_call hcall fun _ => Db.own_discard_self db i
  have hanswered : session.answered.activity.call = none := by
    unfold Session.answered Session.at'
    cases session.direct <;> rfl
  cases hm with
  | waits | unresolved => exact ⟨hn, hi⟩
  | opened call at' =>
    refine ⟨hn, hi.dead, trivial, ?_⟩
    rintro hdirect _ ⟨⟩
    exact hi.alone hdirect call (by rw [at']; rfl)
  | called _ _ isUnit =>
    refine ⟨hn, hi.dead, trivial, ?_⟩
    intro hdirect
    have hd : session.direct = true := hdirect
    rw [isUnit] at hd
    cases hd
  | refused | reread | failedReread => exact ⟨hn, SessionInv.of_no_call hanswered hi.dead⟩
  | checked call _ at' live read version goes =>
    have hb := Batch.start hn read version
    have halone : session.direct = true → ∀ stream, stream ≠ call.stream →
        eventsOf stream (db.own i) = [] :=
      fun hdirect => hi.alone hdirect call (by rw [at']; rfl)
    rw [goes.db_eq]
    exact ⟨hn, SessionInv.proceed hb live halone goes⟩
  | inserted call current k stored at' event free new goes =>
    obtain ⟨hlive, hb⟩ := hi.stands_at at'
    have halone : session.direct = true → ∀ stream, stream ≠ call.stream →
        eventsOf stream ((db.insert i (call.row current k stored)).own i) = [] := by
      intro hdirect stream hs
      rw [Db.own_insert_self hlt, eventsOf_append, hi.alone hdirect call (by rw [at']; rfl) _ hs,
        AppendCall.row_eq, eventsOf_event, AppendCall.eventRow_stream, if_neg (Ne.symm hs)]
      rfl
    rw [goes.db_eq]
    refine ⟨hn.insert hlt new free fun stream => ?_,
      SessionInv.proceed (hb.insert hn hlt event new) hlive halone goes⟩
    -- the row goes in at the end of its stream
    rw [versionsOf_row]
    by_cases hs : call.stream = stream
    · subst hs
      rw [if_pos rfl, hb.next hn new]
      exact (hn.own i call.stream).snoc
    · rw [if_neg hs, List.append_nil]
      exact hn.own i stream
  | collided call current k _ at' _ taken =>
    obtain ⟨-, hb⟩ := hi.stands_at at'
    refine ⟨hn.discard i, fun _ => Db.own_discard_self db i, hb.behind hn taken, ?_⟩
    intro _ _ _ stream _
    rw [Db.own_discard_self]
    rfl
  | committed | published =>
    exact ⟨hn.publish i, SessionInv.of_no_call rfl fun _ => Db.own_publish_self db i⟩
  | confirmed _ _ live _ free new =>
    refine ⟨hn.insert hlt new free fun stream => ?_, SessionInv.of_no_call rfl ?_⟩
    · exact (List.append_nil (versionsOf stream (db.own i))).symm ▸ hn.own i stream
    intro hdead
    have hd : session.aborted = true := hdead
    rw [live] at hd
    cases hd
  | rolledBack | closed | failedCommit => exact ⟨hn.discard i, hdropped _ rfl⟩
  | failed => exact ⟨hn.discard i, hdropped _ hanswered⟩
  | _ => exact ⟨hn, SessionInv.of_no_call rfl hi.dead⟩

end

/-! ### What other sessions see of it -/

section
variable {db db' : Db (Row E)} {i j : Nat} {session : Session E} {cause : Cause E} {o : Outcome E}

theorem Moves.touches (hm : Moves db i session cause o) : db.Touches i o.1 := by
  cases hm with
  | checked _ _ _ _ _ _ goes =>
    rw [goes.db_eq]
    exact .kept
  | inserted _ _ _ _ _ _ _ _ goes =>
    rw [goes.db_eq]
    exact .inserted _
  | collided | rolledBack | closed | failed | failedCommit => exact .discarded
  | committed | published => exact .published
  | confirmed => exact .inserted _
  | _ => exact .kept

theorem count_le_of_touches (ht : db.Touches i db') (stream : StreamKey) :
    count stream db ≤ count stream db' := by
  obtain ⟨rest, hrest⟩ := ht.committed_grows
  unfold count
  rw [← hrest, versionsOf_append, List.length_append]
  omega

/-- Who has rows on a stream keeps it from growing. -/
theorem count_eq_of_touches (ht : db.Touches i db') (hn : Numbering db) (hj : j ≠ i)
    {stream : StreamKey} (hown : versionsOf stream (db.own j) ≠ []) :
    count stream db' = count stream db := by
  cases ht with
  | published =>
    rw [Numbering.count_publish, hn.exclusive hj hown]
    rfl
  | _ => rfl

end

/-! ## Every state of a run -/

structure StreamsInv (s : State E) : Prop where
  size : s.db.pending.length = s.sessions.length
  numbering : Numbering s.db
  sessions : ∀ i session, s.sessions[i]? = some session → SessionInv s.db i session

section
variable {s : State E} {input : Input E} {r : State E × Output}

theorem StreamsInv.lt_pending (hinv : StreamsInv s) {i : Nat} {session : Session E}
    (hat : s.sessions[i]? = some session) : i < s.db.pending.length := by
  rw [hinv.size]
  exact (List.getElem?_eq_some_iff.mp hat).1

/-- After a move of session `i` only that session is another. -/
theorem moved_sessions {i j : Nat} {o : Outcome E} {session session' : Session E}
    (hat : s.sessions[i]? = some session) (hj : (s.moved i o).1.sessions[j]? = some session') :
    (j = i ∧ session' = o.2.1) ∨ (j ≠ i ∧ s.sessions[j]? = some session') :=
  getElem?_set_cases hat hj

theorem opened_sessions {j : Nat} {session session' : Session E}
    (hj : (s.opened session).sessions[j]? = some session') :
    (j = s.sessions.length ∧ session' = session) ∨ s.sessions[j]? = some session' :=
  getElem?_concat_cases hj

theorem Steps.streams (hs : Steps s input r) (hinv : StreamsInv s) : StreamsInv r.1 := by
  cases hs with
  | ignored => exact hinv
  | opened _ _ _ starts =>
    refine ⟨?_, hinv.numbering.start, ?_⟩
    · simp [State.opened, hinv.size]
    · intro j session' hj
      obtain ⟨rfl, rfl⟩ | hold := opened_sessions hj
      · have hown : s.db.start.own s.sessions.length = [] := by
          rw [Db.own_start]
          exact Db.own_of_length_le (by rw [hinv.size])
        refine ⟨fun _ => hown, ?_, ?_⟩
        · obtain ⟨e, hact, _⟩ | ⟨call, hact, _⟩ := starts <;> rw [hact] <;> trivial
        · intro _ call _ stream _
          rw [show (s.opened session').db.own s.sessions.length = [] from hown]
          rfl
      · apply (hinv.sessions j session' hold).transfer (Db.own_start s.db j)
        · intro stream
          exact Nat.le_refl _
        · intro stream _
          rfl
  | moved i session _ o _ at' moves =>
    have hlt := hinv.lt_pending at'
    have htouch := moves.touches
    obtain ⟨hnum, hmoved⟩ := moves.preserves hinv.numbering hlt (hinv.sessions i session at')
    refine ⟨?_, hnum, ?_⟩
    · show o.1.pending.length = (s.sessions.set i o.2.1).length
      rw [htouch.length_eq, hinv.size, List.length_set]
    · intro j session' hj
      obtain ⟨rfl, rfl⟩ | ⟨hne, hold⟩ := moved_sessions at' hj
      · exact hmoved
      · exact (hinv.sessions j session' hold).transfer (htouch.own_ne hne)
          (count_le_of_touches htouch) fun stream => count_eq_of_touches htouch hinv.numbering hne

theorem streams_run {h : History E} {s : State E} (he : (postgres E).Run h s) : StreamsInv s := by
  refine he.invariant (P := fun _ s => StreamsInv s) ?_ ?_
  · refine ⟨rfl, Numbering.empty, ?_⟩
    intro i session hat
    simp [postgres] at hat
  · intro h s input _ hinv
    exact (steps_step s input).streams hinv

/-- **No gaps**: in every interleaving keys are unique and a stream's versions are
`1, ..., n`, as committed and as any session sees them. -/
theorem versions_gapless (inputs : List (Input E)) (stream : StreamKey) (i : Nat) :
    let db := ((postgres E).after (postgres E).init inputs).db
    db.Keyed Row.indexKey ∧ Numbered 0 (versionsOf stream db.committed) ∧
      Numbered 0 (versionsOf stream (db.visible i)) := by
  have hn := (streams_run ((postgres E).exec_trace (postgres E).init inputs)).numbering
  exact ⟨hn.keyed, hn.committed stream, hn.visible i stream⟩

end

end EgoRs.Postgres
