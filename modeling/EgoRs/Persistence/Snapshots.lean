import Mathlib
import EgoRs.Persistence.StoolapEventStore

/-! # Snapshot Stores

What a load returns after saves in whatever order. `StoolapSnapshotStore`
compares the versions in the `UPDATE` itself and keeps the newest.
`InMemorySnapshotStore` keeps the last, and `PostgreSQLSnapshotStore`
compares in one statement and writes in another, so in both an older
snapshot can take the place of a newer one.
-/

namespace EgoRs.Snapshots

open Framework EventStore Stoolap

variable {P : Type}

/-! ## The newest of some saves -/

/-- What is kept is as new as `version`. -/
def AsNew (version : Int) (kept : Option (Int × P)) : Prop := ∃ best ∈ kept, version ≤ best.1

/-- `kept` is one of the saves, and none has a higher version. -/
structure Newest (saves : List (Int × P)) (kept : Option (Int × P)) : Prop where
  saved : ∀ best ∈ kept, best ∈ saves
  highest : ∀ save ∈ saves, AsNew save.1 kept

/-- The first save of the highest version is a newest one. -/
theorem newest_argmax (saves : List (Int × P)) : Newest saves (saves.argmax Prod.fst) := by
  refine ⟨fun best hbest => List.argmax_mem hbest, fun save hsave => ?_⟩
  cases hmax : saves.argmax Prod.fst with
  | none =>
    rw [List.argmax_eq_none.mp hmax] at hsave
    cases hsave
  | some best => exact ⟨best, rfl, List.le_of_mem_argmax hsave hmax⟩

/-! ## One call after the other -/

/-- `SnapshotKey`: the aggregate and its tenant. -/
abbrev SnapshotKey : Type := String × Option String

def keyOf (aggregateId : String) (tenantId : Option String) :
    Except PersistenceError SnapshotKey := do
  let tenant ← resolveTenant tenantId
  return (aggregateId, tenant)

/-- The arguments of `save_snapshot`. -/
structure SaveArgs (P : Type) where
  aggregateId : String
  tenantId : Option String
  version : Int
  payload : P

section
variable {σ : Type} (put : σ → SnapshotKey → Int × P → σ) (store : σ)

/-- Both `save_snapshot` methods resolve the tenant first. -/
def saveSnapshot (args : SaveArgs P) : Except PersistenceError σ := do
  let key ← keyOf args.aggregateId args.tenantId
  return put store key (args.version, args.payload)

/-- The store after `calls`. One that is refused changes nothing. -/
def saveAll (calls : List (SaveArgs P)) : σ :=
  calls.foldl (fun store args => (saveSnapshot put store args).toOption.getD store) store

/-- What `calls` save under a key, in order. -/
def savedUnder (key : SnapshotKey) (calls : List (SaveArgs P)) : List (Int × P) :=
  (calls.filter fun args => (keyOf args.aggregateId args.tenantId).toOption = some key).map
    fun args => (args.version, args.payload)

variable {put store} {key : SnapshotKey} {R : List (Int × P) → σ → Prop}

/-- Run rule: what relates the saves under a key to the store is kept by the
run when every `put` keeps it. -/
theorem saveAll_rule (h0 : R [] store)
    (hput : ∀ saves store id tenantId key' save, keyOf id tenantId = .ok key' → R saves store →
      R (if key' = key then saves ++ [save] else saves) (put store key' save))
    (calls : List (SaveArgs P)) : R (savedUnder key calls) (saveAll put store calls) := by
  induction calls using List.reverseRecOn with
  | nil => exact h0
  | append_singleton calls args ih =>
    simp only [savedUnder, saveAll, saveSnapshot] at ih ⊢
    rw [List.foldl_append, List.filter_append, List.map_append, List.foldl_cons, List.foldl_nil]
    cases hkey : keyOf args.aggregateId args.tenantId with
    | error e => simpa [Except.toOption, hkey, bind, Except.bind] using ih
    | ok key' =>
      have h := hput _ _ _ _ _ (args.version, args.payload) hkey ih
      by_cases hsame : key' = key <;>
        simpa [Except.toOption, hkey, hsame, bind, Except.bind, pure, Except.pure] using h

end

namespace InMemorySnapshotStore

/-- `InMemorySnapshotStore` of `persistence-memory`. -/
abbrev Store (P : Type) : Type := AList fun _ : SnapshotKey => Int × P

/-- `save_snapshot` under its key. -/
def put (store : Store P) (key : SnapshotKey) (save : Int × P) : Store P := store.insert key save

def loadSnapshot (store : Store P) (aggregateId : String) (tenantId : Option String) :
    Except PersistenceError (Option (Int × P)) := do
  let key ← keyOf aggregateId tenantId
  return store.lookup key

theorem lookup_saveAll (key : SnapshotKey) (calls : List (SaveArgs P)) :
    (saveAll put ∅ calls).lookup key = (savedUnder key calls).getLast? := by
  refine saveAll_rule (R := fun saves (store : Store P) => store.lookup key = saves.getLast?) rfl
    ?_ calls
  intro saves store _ _ key' save _ ih
  by_cases hsame : key' = key
  · simp [put, hsame]
  · simpa [put, hsame, AList.lookup_insert_ne (Ne.symm hsame)] using ih

end InMemorySnapshotStore

/-- `serde_json` on payloads. -/
structure JsonText (P : Type) where
  render : P → String
  parse : String → Except String P

/-- What was written is read back. -/
def JsonText.Reads (text : JsonText P) (payload : P) : Prop :=
  text.parse (text.render payload) = .ok payload

namespace StoolapSnapshotStore
variable (text : JsonText P)

/-- The `snapshots` table. -/
abbrev Table : Type := AList fun _ : String × String => Int × String

/-- `tenant_id` and `aggregate_id` of a row. -/
def columns (key : SnapshotKey) : String × String := (encodeTenant key.2, key.1)

/-- `save_snapshot` under its key. -/
def put (table : Table) (key : SnapshotKey) (save : Int × P) : Table :=
  let written := table.insert (columns key) (save.1, text.render save.2)
  match table.lookup (columns key) with
  | none => written
  -- `UPDATE … WHERE … AND version < $5`
  | some (existing, _) => if existing < save.1 then written else table

def loadSnapshot (table : Table) (aggregateId : String) (tenantId : Option String) :
    Except PersistenceError (Option (Int × P)) := do
  let key ← keyOf aggregateId tenantId
  match table.lookup (columns key) with
  | none => return none
  | some (version, payload) =>
    match text.parse payload with
    | .ok payload => return some (version, payload)
    | .error e => throw (.internal e)

variable {id id' : String} {tenantId tenantId' : Option String} {key key' : SnapshotKey}

theorem columns_injective (h : keyOf id tenantId = .ok key) (h' : keyOf id' tenantId' = .ok key')
    (hcolumns : columns key = columns key') : key = key' := by
  -- an empty tenant does not resolve, so nobody shares the systemwide scope
  simp only [keyOf, resolveTenant, bind, Except.bind, pure, Except.pure] at h h'
  grind [columns, encodeTenant, systemwideScope]

/-- The row holds the first save of the highest version. -/
theorem lookup_saveAll (hkey : keyOf id tenantId = .ok key) (calls : List (SaveArgs P)) :
    (saveAll (put text) ∅ calls).lookup (columns key) =
      ((savedUnder key calls).argmax Prod.fst).map fun save => (save.1, text.render save.2) := by
  refine saveAll_rule (R := fun saves (table : Table) => table.lookup (columns key) =
    (saves.argmax Prod.fst).map fun save => (save.1, text.render save.2)) rfl ?_ calls
  intro saves table _ _ key' save hkey' hrow
  by_cases hsame : key' = key
  · subst hsame
    rw [if_pos rfl, List.argmax_concat]
    dsimp only [put]
    rw [hrow]
    cases hmax : saves.argmax Prod.fst with
    | none => exact AList.lookup_insert _
    | some existing =>
      by_cases hlt : existing.1 < save.1
      · simp [hlt]
      · simpa [hlt, hmax] using hrow
  · have hne : columns key ≠ columns key' := fun h => hsame (columns_injective hkey hkey' h).symm
    rw [if_neg hsame]
    dsimp only [put]
    split
    · exact (AList.lookup_insert_ne hne).trans hrow
    · split
      · exact (AList.lookup_insert_ne hne).trans hrow
      · exact hrow

end StoolapSnapshotStore

/-- `kept` is the newest of the saves under the key, and both stores load it
after `calls`. -/
def BothLoad (text : JsonText P) (calls : List (SaveArgs P)) (aggregateId : String)
    (tenantId : Option String) (key : SnapshotKey) (kept : Option (Int × P)) : Prop :=
  Newest (savedUnder key calls) kept ∧
    InMemorySnapshotStore.loadSnapshot (saveAll InMemorySnapshotStore.put ∅ calls)
      aggregateId tenantId = .ok kept ∧
    StoolapSnapshotStore.loadSnapshot text (saveAll (StoolapSnapshotStore.put text) ∅ calls)
      aggregateId tenantId = .ok kept

/-- Strings without anything to escape, between quotes. -/
def quotedText : JsonText String where
  render := fun payload => "\"" ++ payload ++ "\""
  parse := fun text => .ok (String.ofList text.toList.tail.dropLast)

def twoSaves : List (SaveArgs String) := [⟨"a", none, 1, "old"⟩, ⟨"a", none, 2, "new"⟩]

namespace PostgreSQLSnapshotStore

/-- A database error, and whether the statement took effect all the same. -/
structure Fault where
  applied : Bool
  text : String

/-- The statement a `save_snapshot` call is at, or its answer. -/
inductive Stage where
  | selecting
  | upserting
  | returned (answer : Except PersistenceError Unit)
  deriving DecidableEq

/-- One `save_snapshot` call. -/
structure Saver (P : Type) where
  version : Int
  payload : P
  stage : Stage

def Saver.snapshot (saver : Saver P) : Int × P := (saver.version, saver.payload)

/-- The row of one key, of which the partial unique indexes allow one, and the
calls for it. -/
structure State (P : Type) where
  row : Option (Int × P)
  savers : List (Saver P)

inductive Input (P : Type) where
  | save (version : Int) (payload : P)
  | advance (i : Nat) (fault : Option Fault)
  | load (fault : Option Fault)

/-- `save_snapshot`: the row and the stage after the call's next statement. -/
def saveSnapshot (saver : Saver P) (row : Option (Int × P)) :
    Option Fault → Option (Int × P) × Stage
  | some ⟨applied, e⟩ =>
    match saver.stage with
    | .selecting =>
      (row, .returned (.error (.internal s!"failed to query existing snapshot: {e}")))
    | .upserting =>
      (if applied then some saver.snapshot else row,
        .returned (.error (.internal s!"failed to save snapshot: {e}")))
    | stage => (row, stage)
  | none =>
    match saver.stage with
    | .selecting =>
      (row, if row.any fun existing => saver.version ≤ existing.1 then .returned (.ok ())
        else .upserting)
    -- `INSERT … ON CONFLICT … DO UPDATE`, whatever the row holds by now
    | .upserting => (some saver.snapshot, .returned (.ok ()))
    | stage => (row, stage)

/-- `load_snapshot`: one statement. -/
def loadSnapshot (row : Option (Int × P)) :
    Option Fault → Except PersistenceError (Option (Int × P))
  | some ⟨_, e⟩ => .error (.internal s!"failed to query snapshot: {e}")
  | none => .ok row

def step (s : State P) :
    Input P → State P × Option (Except PersistenceError (Option (Int × P)))
  | .save version payload =>
    ({ s with savers := s.savers ++ [⟨version, payload, .selecting⟩] }, none)
  | .advance i fault =>
    match s.savers[i]? with
    | none => (s, none)
    | some saver =>
      let (row, stage) := saveSnapshot saver s.row fault
      (⟨row, s.savers.set i { saver with stage }⟩, none)
  | .load fault => (s, some (loadSnapshot s.row fault))

def machine (P : Type) :
    Machine (State P) (Input P) (Option (Except PersistenceError (Option (Int × P)))) where
  init := ⟨none, []⟩
  step := step

/-- An upsert that takes effect while a save of a lower version is between its
`SELECT` and its upsert. -/
def overtakes (s : State P) : Input P → Bool
  | .advance i fault =>
    fault.all Fault.applied && s.savers[i]?.any fun saver =>
      decide (saver.stage = .upserting) && s.savers.any fun other =>
        decide (other.stage = .upserting) && decide (other.version < saver.version)
  | _ => false

/-- The row is no newer than what the call is going to write. -/
def Ahead (saver : Saver P) (row : Option (Int × P)) : Prop := ∀ old ∈ row, old.1 ≤ saver.version

/-- What a statement of a call can do. A call that had not answered and does,
with the row left as it is, has found it to be as new as its own. -/
inductive Does (saver : Saver P) (row : Option (Int × P)) (fault : Option Fault) :
    Option (Int × P) × Stage → Prop where
  | kept (stage : Stage) (h : stage = .returned (.ok ()) →
      saver.stage = .returned (.ok ()) ∨ AsNew saver.version row)
      (selected : stage = .upserting → Ahead saver row) : Does saver row fault (row, stage)
  | written (stage : Stage) (h : saver.stage = .upserting) (finished : stage ≠ .upserting)
      (applied : fault.all Fault.applied = true) :
      Does saver row fault (some saver.snapshot, stage)

theorem saveSnapshot_does (saver : Saver P) (row : Option (Int × P)) (fault : Option Fault) :
    Does saver row fault (saveSnapshot saver row fault) := by
  unfold saveSnapshot
  cases hs : saver.stage with
  | selecting =>
    cases fault with
    | some fault => exact .kept _ nofun nofun
    | none =>
      cases row with
      | none => exact .kept _ nofun fun _ => nofun
      | some existing =>
        -- the comparison that the upsert does not repeat
        by_cases hle : saver.version ≤ existing.1
        · simp only [Option.any_some, hle, decide_true, if_true]
          exact .kept _ (fun _ => .inr ⟨existing, rfl, hle⟩) nofun
        · simp only [Option.any_some, hle, decide_false, Bool.false_eq_true, if_false]
          refine .kept _ nofun fun _ => ?_
          rintro old ⟨⟩
          omega
  | upserting =>
    cases fault with
    | some fault =>
      obtain ⟨applied, e⟩ := fault
      cases applied with
      | true => exact .written _ hs nofun rfl
      | false => exact .kept _ nofun nofun
    | none => exact .written _ hs nofun rfl
  | returned answer => cases fault <;> exact .kept _ (fun h => .inl (hs.trans h)) nofun

/-- The row was saved by one of the calls, every call that answered `Ok` finds
it as new as its own snapshot, and no call that has selected is behind it. -/
structure Covers (s : State P) : Prop where
  saved : ∀ best ∈ s.row, best ∈ s.savers.map Saver.snapshot
  highest : ∀ saver ∈ s.savers, saver.stage = .returned (.ok ()) → AsNew saver.version s.row
  ahead : ∀ saver ∈ s.savers, saver.stage = .upserting → Ahead saver s.row

/-- The version of a row does not decrease. -/
def Grows (row row' : Option (Int × P)) : Prop := ∀ old ∈ row, AsNew old.1 row'

theorem Grows.refl (row : Option (Int × P)) : Grows row row :=
  fun old hold => ⟨old, hold, Int.le_refl _⟩

theorem Covers.step {s : State P} (hc : Covers s) {input : Input P}
    (hpass : overtakes s input = false) :
    Covers (step s input).1 ∧ Grows s.row (step s input).1.row := by
  cases input with
  | load fault => exact ⟨hc, .refl _⟩
  | save version payload =>
    refine ⟨⟨fun best h => ?_, fun saver hmem hstage => ?_, fun saver hmem hstage => ?_⟩, .refl _⟩
    · exact List.map_append ▸ List.mem_append_left _ (hc.saved best h)
    · obtain hmem | rfl := mem_snoc hmem
      · exact hc.highest saver hmem hstage
      · cases hstage
    · obtain hmem | rfl := mem_snoc hmem
      · exact hc.ahead saver hmem hstage
      · cases hstage
  | advance i fault =>
    cases hi : s.savers[i]? with
    | none =>
      rw [PostgreSQLSnapshotStore.step, hi]
      exact ⟨hc, .refl _⟩
    | some saver =>
      have hsame (stage : Stage) : (s.savers.set i { saver with stage }).map Saver.snapshot =
          s.savers.map Saver.snapshot := by
        obtain ⟨hlt, rfl⟩ := List.getElem?_eq_some_iff.mp hi
        calc (s.savers.set i { s.savers[i] with stage }).map Saver.snapshot
          _ = (s.savers.set i s.savers[i]).map Saver.snapshot := by
            rw [List.map_set, List.map_set]
            rfl
          _ = s.savers.map Saver.snapshot := by rw [List.set_getElem_self]
      have hdoes := saveSnapshot_does saver s.row fault
      simp only [PostgreSQLSnapshotStore.step, hi]
      generalize saveSnapshot saver s.row fault = after at hdoes ⊢
      have hmem := List.mem_of_getElem? hi
      cases hdoes with
      | kept stage h selected =>
        refine ⟨⟨fun best hbest => hsame stage ▸ hc.saved best hbest, ?_, ?_⟩, .refl _⟩
        · intro other hother hstage
          obtain hother | rfl := List.mem_or_eq_of_mem_set hother
          · exact hc.highest other hother hstage
          · exact (h hstage).elim (hc.highest saver hmem) id
        · intro other hother hstage
          obtain hother | rfl := List.mem_or_eq_of_mem_set hother
          · exact hc.ahead other hother hstage
          · exact selected hstage
      | written stage h finished applied =>
        have hle : Ahead saver s.row := hc.ahead saver hmem h
        refine ⟨⟨?_, ?_, ?_⟩, fun old hold => ⟨_, rfl, hle old hold⟩⟩
        · rintro best ⟨⟩
          exact hsame stage ▸ List.mem_map_of_mem hmem
        · intro other hother hstage
          refine ⟨saver.snapshot, rfl, ?_⟩
          obtain hother | rfl := List.mem_or_eq_of_mem_set hother
          · obtain ⟨old, hold, hle'⟩ := hc.highest other hother hstage
            exact Int.le_trans hle' (hle old hold)
          · exact Int.le_refl _
        · -- nobody with a lower version has selected
          rintro other hother hstage _ ⟨⟩
          obtain hother | rfl := List.mem_or_eq_of_mem_set hother
          · simp only [overtakes, applied, hi, h, Option.any_some, decide_true, Bool.true_and,
              List.any_eq_false, Bool.and_eq_true, decide_eq_true_eq, not_and] at hpass
            exact Int.not_lt.mp (hpass other hother hstage)
          · exact absurd hstage finished

/-- While no upsert takes effect between the `SELECT` and the upsert of a save of
a lower version, the stored version never decreases, and once every save has
returned `Ok` the newest is loaded. -/
theorem snapshot_never_regresses {h : List (Transition (State P) (Input P) _)} {s : State P}
    (he : (machine P).Exec (machine P).init h s)
    (hpass : ∀ t ∈ h, overtakes t.pre t.input = false) :
    (∀ t ∈ h, Grows t.pre.row t.post.row) ∧
      ((∀ saver ∈ s.savers, saver.stage = .returned (.ok ())) →
        ∃ kept, (step s (.load none)).2 = some (.ok kept) ∧
          Newest (s.savers.map Saver.snapshot) kept) := by
  have hrun : Covers s ∧ ∀ t ∈ h, Grows t.pre.row t.post.row := by
    refine he.invariant_along (P := fun h s => Covers s ∧ ∀ t ∈ h, Grows t.pre.row t.post.row)
      ⟨⟨by simp [machine], by simp [machine], by simp [machine]⟩, by simp⟩ ?_ (.of_forall hpass)
    rintro h s input _ ⟨hc, hgrows⟩ hlast
    obtain ⟨hc', hgrows'⟩ := hc.step hlast
    refine ⟨hc', fun t ht => ?_⟩
    obtain ht | rfl := mem_snoc ht
    · exact hgrows t ht
    · exact hgrows'
  refine ⟨hrun.2, fun hall => ⟨s.row, rfl, hrun.1.saved, ?_⟩⟩
  intro save hsave
  obtain ⟨saver, hmem, rfl⟩ := List.mem_map.mp hsave
  exact hrun.1.highest saver hmem (hall saver hmem)

/-- The second save starts when the first has returned. -/
def inTurn : List (Input String) :=
  [.save 2 "new", .advance 0 none, .advance 0 none, .save 1 "old", .advance 1 none]

def overlapping : List (Input String) :=
  [.save 2 "new", .save 1 "old", .advance 0 none, .advance 1 none, .advance 0 none, .advance 1 none]

theorem snapshot_never_regresses_in_turn :
    Newest (((machine String).after ⟨none, []⟩ inTurn).savers.map Saver.snapshot)
      (some (2, "new")) := by
  obtain ⟨_, hload⟩ := snapshot_never_regresses ((machine String).exec_trace _ inTurn) (by decide)
  obtain ⟨kept, hkept, hnewest⟩ := hload (by decide)
  cases hkept
  exact hnewest

theorem snapshot_regresses :
    ((machine String).after ⟨none, []⟩ (overlapping.take 5)).row = some (2, "new") ∧
      ((machine String).after ⟨none, []⟩ overlapping).row = some (1, "old") :=
  ⟨rfl, rfl⟩

end PostgreSQLSnapshotStore

end EgoRs.Snapshots
