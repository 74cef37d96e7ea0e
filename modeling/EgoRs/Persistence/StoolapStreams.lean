import EgoRs.Framework.Consecutive
import EgoRs.Persistence.StoolapStep

/-! # Streams of the Stoolap Event Store

A transaction numbers its rows on from the end of each stream in its
snapshot, whatever the others do meanwhile. Its commit goes through only if
nobody has committed those versions since, so the committed versions of a
stream are `1, ..., n` in every state of every run.
-/

namespace EgoRs.Stoolap

open Framework EventStore

variable {E P : Type}

/-! ## Numbering -/

section
variable {stream : ScopedStream} {rows rows' : List (EventRow P)}

@[simp] theorem versionsOf_append :
    versionsOf stream (rows ++ rows') = versionsOf stream rows ++ versionsOf stream rows' := by
  simp [versionsOf]

theorem versionsOf_row (call : AppendCall P) (current : Int) (k : Nat)
    (columns : EventColumns P) (stream : ScopedStream) :
    versionsOf stream [call.row current k columns] =
      if call.stream = stream then [current + k + 1] else [] := by
  by_cases h : call.stream = stream <;> simp [versionsOf, AppendCall.row, h]

theorem versionsOf_take_drop (n : Nat) :
    versionsOf stream rows = versionsOf stream (rows.take n) ++
      versionsOf stream (rows.drop n) := by
  rw [← versionsOf_append, List.take_append_drop]

/-- A key is there when its stream has its version. -/
theorem key_mem_iff {row : EventRow P} :
    row.key ∈ rows.map EventRow.key ↔ row.version ∈ versionsOf row.stream rows := by
  simp only [versionsOf, List.mem_map, List.mem_filter, decide_eq_true_eq, EventRow.key,
    Prod.mk.injEq]
  constructor
  · rintro ⟨x, hx, hs, hv⟩
    exact ⟨x, ⟨hx, hs⟩, hv⟩
  · rintro ⟨x, ⟨hx, hs⟩, hv⟩
    exact ⟨x, hx, hs, hv⟩

end

/-- How long a stream was when the session began. -/
def seen (stream : ScopedStream) (db : Db (EventRow P)) (session : Session P) : Nat :=
  (versionsOf stream (db.committed.take session.snapshot)).length

/-- Session `i` has inserted `k` rows of its batch. -/
structure Batch (db : Db (EventRow P)) (i : Nat) (session : Session P) (call : AppendCall P)
    (current : Int) (k : Nat) : Prop where
  version : current = call.expectedVersion
  fits : k ≤ call.rows.length
  staged : ∀ j columns, j < k → call.rows[j]? = some columns →
    call.row current j columns ∈ db.own i
  position : current + k = seen call.stream db session + (versionsOf call.stream (db.own i)).length

def Stands (db : Db (EventRow P)) (i : Nat) (session : Session P) : Activity P → Prop
  | .beginning _ => db.own i = []
  | .inserting call current k => Batch db i session call current k
  | .committing call _ =>
    session.direct = true ∧ Batch db i session call call.expectedVersion call.rows.length
  | _ => True

/-- **A transaction numbers its rows on from its snapshot.** -/
structure SessionInv (db : Db (EventRow P)) (i : Nat) (session : Session P) : Prop where
  snapshot : session.snapshot ≤ db.committed.length
  own : ∀ stream, Numbered (seen stream db session) (versionsOf stream (db.own i))
  stands : Stands db i session session.activity

structure StoreInv (s : State P) : Prop where
  size : s.db.pending.length = s.sessions.length
  committed : ∀ stream, Numbered 0 (versionsOf stream s.db.committed)
  sessions : ∀ (i : Nat) (session : Session P), s.sessions[i]? = some session →
    SessionInv s.db i session

section
variable {db db' : Db (EventRow P)} {i : Nat} {session : Session P}

section
variable (hc : ∀ stream, Numbered 0 (versionsOf stream db.committed)) (hi : SessionInv db i session)
  (stream : ScopedStream)
include hc hi stream

theorem visible_numbered : Numbered 0 (versionsOf stream (visible db i session)) := by
  unfold visible
  rw [versionsOf_append, numbered_append]
  constructor
  · have hall := hc stream
    rw [versionsOf_take_drop session.snapshot, numbered_append] at hall
    exact hall.1
  · rw [Int.zero_add]
    exact hi.own stream

theorem maxVersion_visible : maxVersion stream (visible db i session) =
      seen stream db session + (versionsOf stream (db.own i)).length := by
  have hmax := (visible_numbered hc hi stream).max_getD
  have hlen : (versionsOf stream (visible db i session)).length =
      seen stream db session + (versionsOf stream (db.own i)).length := by
    simp [visible, seen]
  rw [hlen] at hmax
  push_cast at hmax
  exact hmax

end

variable {call : AppendCall P} {current : Int} {k : Nat}

theorem Batch.transfer (hb : Batch db i session call current k) (hown : db'.own i = db.own i)
    (hseen : seen call.stream db' session = seen call.stream db session) :
    Batch db' i session call current k := by
  refine ⟨hb.version, hb.fits, ?_, ?_⟩
  · rw [hown]
    exact hb.staged
  · rw [hown, hseen]
    exact hb.position

theorem SessionInv.stands_at (hi : SessionInv db i session) {activity : Activity P}
    (hat : session.activity = activity) : Stands db i session activity :=
  hat ▸ hi.stands

/-- Nobody else changes what a transaction sees. -/
theorem SessionInv.transfer (hi : SessionInv db i session) (hown : db'.own i = db.own i)
    (hgrows : db.committed <+: db'.committed) : SessionInv db' i session := by
  have hseen (stream : ScopedStream) : seen stream db' session = seen stream db session := by
    obtain ⟨rest, hrest⟩ := hgrows
    unfold seen
    rw [← hrest, List.take_append_of_le_length hi.snapshot]
  refine ⟨Nat.le_trans hi.snapshot hgrows.length_le, ?_, ?_⟩
  · intro stream
    rw [hown, hseen stream]
    exact hi.own stream
  · have hstands := hi.stands
    generalize session.activity = activity at hstands ⊢
    cases activity with
    | beginning => exact hown.trans hstands
    | inserting => exact hstands.transfer hown (hseen _)
    | committing => exact ⟨hstands.1, hstands.2.transfer hown (hseen _)⟩
    | _ => trivial

theorem SessionInv.of_empty {session' : Session P}
    (hsnap : session'.snapshot ≤ db.committed.length) (hempty : db.own i = [])
    (hstands : Stands db i session' session'.activity) : SessionInv db i session' := by
  refine ⟨hsnap, ?_, hstands⟩
  intro stream
  rw [hempty]
  exact numbered_nil _

theorem Batch.start (hc : ∀ stream, Numbered 0 (versionsOf stream db.committed))
    (hi : SessionInv db i session) (hread : current = maxVersion call.stream (visible db i session))
    (hversion : current = call.expectedVersion) : Batch db i session call current 0 := by
  rw [maxVersion_visible hc hi] at hread
  refine ⟨hversion, Nat.zero_le _, ?_, ?_⟩
  · intro j columns hj
    omega
  · omega

variable {columns : EventColumns P}

theorem Batch.insert (hb : Batch db i session call current k)
    (hlt : i < db.pending.length) (event : call.rows[k]? = some columns) :
    Batch (db.insert i (call.row current k columns)) i session call current (k + 1) := by
  have hown := Db.own_insert_self hlt (call.row current k columns)
  have hk : k < call.rows.length := (List.getElem?_eq_some_iff.mp event).1
  refine ⟨hb.version, hk, ?_, ?_⟩
  · intro j columns' hj hev
    rw [hown, List.mem_append]
    by_cases hjk : j = k
    · subst hjk
      obtain rfl : columns = columns' := Option.mem_unique event hev
      right
      simp
    · left
      exact hb.staged j columns' (by omega) hev
  · have hposition := hb.position
    have hseen : seen call.stream (db.insert i (call.row current k columns)) session =
        seen call.stream db session := rfl
    rw [hown, versionsOf_append, versionsOf_row, if_pos rfl, hseen]
    simp only [List.length_append, List.length_singleton]
    omega

theorem own_insert_numbered (hi : SessionInv db i session)
    (hb : Batch db i session call current k) (hlt : i < db.pending.length) (stream : ScopedStream) :
    Numbered (seen stream db session)
      (versionsOf stream ((db.insert i (call.row current k columns)).own i)) := by
  rw [Db.own_insert_self hlt, versionsOf_append, versionsOf_row]
  by_cases hs : call.stream = stream
  · subst hs
    have hposition := hb.position
    have hnext : current + k + 1 =
        (seen call.stream db session : Int) + (versionsOf call.stream (db.own i)).length + 1 := by
      omega
    rw [if_pos rfl, hnext]
    exact (hi.own call.stream).snoc
  · rw [if_neg hs, List.append_nil]
    exact hi.own stream

/-- **A commit that goes through continues every stream.** -/
theorem publish_numbered (hc : ∀ stream, Numbered 0 (versionsOf stream db.committed))
    (hi : SessionInv db i session) (hclear : overtaken db i = false) (stream : ScopedStream) :
    Numbered 0 (versionsOf stream (db.publish i).committed) := by
  rw [Db.committed_publish, versionsOf_append, numbered_append]
  refine ⟨hc stream, ?_⟩
  by_cases hempty : versionsOf stream (db.own i) = []
  · rw [hempty]
    exact numbered_nil _
  · have hown := hi.own stream
    have hpos := List.length_pos_of_ne_nil hempty
    -- the first version the transaction has
    have hfirst : ((seen stream db session : Int) + 1) ∈ versionsOf stream (db.own i) := by
      apply hown.mem_iff.mpr
      omega
    obtain ⟨row, hrow, hv⟩ := List.mem_map.mp hfirst
    obtain ⟨hmem, hstream⟩ := List.mem_filter.mp hrow
    have hstream' : row.stream = stream := by simpa using hstream
    have hfree : row.key ∉ db.committed.map EventRow.key := by
      have hall := List.any_eq_false.mp hclear row hmem
      simpa using hall
    rw [key_mem_iff, hstream', hv, (hc stream).mem_iff] at hfree
    have hle : seen stream db session ≤ (versionsOf stream db.committed).length := by
      rw [versionsOf_take_drop session.snapshot, List.length_append]
      exact Nat.le_add_right _ _
    have heq : (versionsOf stream db.committed).length = seen stream db session := by omega
    rw [heq, Int.zero_add]
    exact hown

end

/-! ### What a move keeps -/

section
variable {db : Db (EventRow P)} {i : Nat} {session : Session P} {cause : Cause E} {o : Outcome P}
  {e : PersistenceError}

theorem Refuses.touches (ho : Refuses db i session e o) : db.Touches i o.1 := by
  cases ho with
  | direct => exact .discarded
  | inUnit => exact .kept

theorem Moves.touches (hm : Moves db i session cause o) : db.Touches i o.1 := by
  cases hm with
  | checked _ _ _ _ _ _ goes =>
    rw [goes.db_eq]
    exact .kept
  | inserted _ _ _ _ _ _ _ goes =>
    rw [goes.db_eq]
    exact .inserted _
  | refused _ _ _ _ refuses | collided _ _ _ _ _ _ _ _ _ refuses | failedAppend _ _ refuses =>
    exact refuses.touches
  | dropped | outrun | lost | failedEnd => exact .discarded
  | committed | published => exact .published
  | _ => exact .kept

theorem SessionInv.proceed {call : AppendCall P} {current : Int} {k : Nat}
    (hb : Batch db i session call current k) (hsnap : session.snapshot ≤ db.committed.length)
    (hown : ∀ stream, Numbered (seen stream db session) (versionsOf stream (db.own i)))
    (ho : Proceeds db session call current k o) : SessionInv db i o.2.1 := by
  cases ho with
  | more => exact ⟨hsnap, hown, hb.version, hb.fits, hb.staged, hb.position⟩
  | committing full direct =>
    have hk : k = call.rows.length := Nat.le_antisymm hb.fits full
    refine ⟨hsnap, hown, direct, ?_⟩
    rw [← hk, ← hb.version]
    exact ⟨hb.version, hb.fits, hb.staged, hb.position⟩
  | answered => exact ⟨hsnap, hown, trivial⟩

theorem SessionInv.refuse (hi : SessionInv db i session)
    (ho : Refuses db i session e o) : SessionInv o.1 i o.2.1 := by
  cases ho with
  | direct => exact .of_empty hi.snapshot (Db.own_discard_self db i) trivial
  | inUnit => exact ⟨hi.snapshot, hi.own, trivial⟩

/-- The session that moves keeps its invariant. -/
theorem Moves.keeps (hm : Moves db i session cause o)
    (hc : ∀ stream, Numbered 0 (versionsOf stream db.committed)) (hlt : i < db.pending.length)
    (hi : SessionInv db i session) : SessionInv o.1 i o.2.1 := by
  have hpublished : SessionInv (db.publish i) i (session.at' .done) := by
    refine .of_empty ?_ (Db.own_publish_self db i) trivial
    exact Nat.le_trans hi.snapshot (Db.Touches.published (i := i)).committed_grows.length_le
  cases hm with
  | waits | unprepared => exact hi
  | begun _ at' | opened _ _ at' =>
    exact .of_empty (Nat.le_refl _) (hi.stands_at at') trivial
  | dropped | lost | failedEnd | outrun =>
    exact .of_empty hi.snapshot (Db.own_discard_self db i) trivial
  | refused _ _ _ _ refuses | collided _ _ _ _ _ _ _ _ _ refuses | failedAppend _ _ refuses =>
    exact hi.refuse refuses
  | checked _ _ _ _ read version goes =>
    rw [goes.db_eq]
    exact SessionInv.proceed (Batch.start hc hi read version) hi.snapshot hi.own goes
  | inserted _ _ _ _ _ at' event goes =>
    have hb := hi.stands_at at'
    rw [goes.db_eq]
    exact SessionInv.proceed (hb.insert hlt event) hi.snapshot (own_insert_numbered hi hb hlt) goes
  | committed | published => exact hpublished
  | called | calledCommit | reread | failedBegin | failedReread =>
    exact ⟨hi.snapshot, hi.own, trivial⟩

/-- A move publishes only rows that continue their streams. -/
theorem Moves.committed_numbered (hm : Moves db i session cause o)
    (hc : ∀ stream, Numbered 0 (versionsOf stream db.committed)) (hi : SessionInv db i session)
    (stream : ScopedStream) : Numbered 0 (versionsOf stream o.1.committed) := by
  cases hm with
  | checked _ _ _ _ _ _ goes | inserted _ _ _ _ _ _ _ goes =>
    rw [goes.db_eq]
    exact hc stream
  | refused _ _ _ _ refuses | collided _ _ _ _ _ _ _ _ _ refuses | failedAppend _ _ refuses =>
    cases refuses <;> exact hc stream
  | committed _ _ _ _ clear | published _ _ clear =>
    exact publish_numbered hc hi (Bool.or_eq_false_iff.mp clear).1 stream
  | _ => exact hc stream

end

/-! ## Every state of a run -/

variable {s : State P}

theorem StoreInv.lt_pending (hinv : StoreInv s) {i : Nat} {session : Session P}
    (hat : s.sessions[i]? = some session) : i < s.db.pending.length := by
  rw [hinv.size]
  exact (List.getElem?_eq_some_iff.mp hat).1

theorem Steps.storeInv {input : Input E} {r : State P × Output}
    (hs : Steps s input r) (hinv : StoreInv s) : StoreInv r.1 := by
  cases hs with
  | ignored => exact hinv
  | opened _ _ snapshot starts =>
    refine ⟨?_, hinv.committed, ?_⟩
    · simp [State.opened, hinv.size]
    · intro j session' hj
      obtain ⟨rfl, rfl⟩ | hold := getElem?_concat_cases hj
      · have hown : s.db.start.own s.sessions.length = [] := by
          rw [Db.own_start]
          exact Db.own_of_length_le (by rw [hinv.size])
        have hsnap : session'.snapshot ≤ s.db.start.committed.length := by
          rw [snapshot]
          exact Nat.zero_le _
        refine .of_empty hsnap hown ?_
        obtain ⟨e, hact, _⟩ | ⟨call, hact, _⟩ := starts
        · rw [hact]
          trivial
        · rw [hact]
          exact hown
      · exact (hinv.sessions j session' hold).transfer (Db.own_start s.db j) (List.prefix_refl _)
  | moved i session _ o _ at' moves =>
    have hlt := hinv.lt_pending at'
    have htouch := moves.touches
    have hi := hinv.sessions i session at'
    refine ⟨?_, moves.committed_numbered hinv.committed hi, ?_⟩
    · show o.1.pending.length = (s.sessions.set i o.2.1).length
      rw [htouch.length_eq, hinv.size, List.length_set]
    · intro j session' hj
      obtain ⟨rfl, rfl⟩ | ⟨hne, hold⟩ := getElem?_set_cases at' hj
      · exact moves.keeps hinv.committed hlt hi
      · exact (hinv.sessions j session' hold).transfer (htouch.own_ne hne) htouch.committed_grows

theorem storeInv_run {serialize : E → Except String P} {h : History E P}
    (he : (stoolap serialize).Run h s) : StoreInv s := by
  refine he.invariant (P := fun _ s => StoreInv s) ?_ ?_
  · refine ⟨rfl, fun stream => numbered_nil _, ?_⟩
    intro i session hat
    simp [stoolap] at hat
  · intro h s input _ hinv
    exact (steps_step serialize s input).storeInv hinv

end EgoRs.Stoolap
