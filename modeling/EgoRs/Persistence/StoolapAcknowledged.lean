import EgoRs.Framework.Ledger
import EgoRs.Persistence.StoolapStreams

/-! # Acknowledged Appends on Stoolap

An append that was acknowledged has its rows in the table or in its unit's open
transaction. From there a commit publishes them or the unit of work is given
up, and only a commit that published is answered with `Ok`. This holds in
every run.
-/

namespace EgoRs.Stoolap

open Framework EventStore

variable {E P : Type}

/-- In `t` session `i` is told that its append `call` went in. -/
def Acknowledges (t : Event E P) (i : Nat) (call : AppendCall P) : Prop :=
  (∃ newVersion, t.output = some (i, .appended (.ok newVersion))) ∧
    ∃ session, t.pre.sessions[i]? = some session ∧ session.activity.call = some call

/-- `row` is an event of `call`, counted on from the version it expects. -/
def Brings (call : AppendCall P) (row : EventRow P) : Prop :=
  ∃ k columns, call.rows[k]? = some columns ∧ row = call.row call.expectedVersion k columns

/-! ## Moves -/

section
variable {db : Db (EventRow P)} {i : Nat} {session : Session P} {cause : Cause E} {o : Outcome P}

theorem Batch.contributed {call : AppendCall P} {current : Int} {k : Nat}
    (hb : Batch db i session call current k) (hfull : call.rows.length ≤ k) {row : EventRow P}
    (hrow : Brings call row) : row ∈ db.own i := by
  obtain ⟨j, columns, hev, rfl⟩ := hrow
  have hlt : j < call.rows.length := (List.getElem?_eq_some_iff.mp hev).1
  rw [← hb.version]
  exact hb.staged j columns (by omega) hev

variable (hm : Moves db i session cause o)
include hm

theorem Moves.done_stays (hdone : session.activity = .done) : o.2.1.activity = .done := by
  cases hm with
  | waits => exact hdone
  | failedEnd => rfl
  | failedAppend _ running => exact absurd hdone running
  | _ => simp_all

/-- What a unit of work has in its transaction stays there until it is over. -/
theorem Moves.own_grows (hlt : i < db.pending.length) (hunit : session.direct = false)
    (hi : SessionInv db i session) (hrun : o.2.1.activity ≠ .done) :
    session.activity ≠ .done ∧ db.own i ⊆ o.1.own i := by
  refine ⟨fun hdone => hrun (hm.done_stays hdone), ?_⟩
  cases hm with
  | refused _ _ _ _ refuses | collided _ _ _ _ _ _ _ _ _ refuses | failedAppend _ _ refuses =>
    cases refuses with
    | direct => exact absurd rfl hrun
    | inUnit => exact List.Subset.refl _
  | checked _ _ _ _ _ _ goes =>
    rw [goes.db_eq]
    exact List.Subset.refl _
  | inserted _ _ _ _ _ _ _ goes =>
    rw [goes.db_eq, Db.own_insert_self hlt]
    exact List.subset_append_left _ _
  | outrun _ call newVersion at' =>
    -- only a direct append is at such a commit
    rw [(hi.stands_at at').1] at hunit
    cases hunit
  | waits | unprepared | begun | opened | called | calledCommit => exact List.Subset.refl _
  | _ => exact absurd rfl hrun

theorem Moves.direct_eq : o.2.1.direct = session.direct := by
  cases hm with
  | refused _ _ _ _ refuses | collided _ _ _ _ _ _ _ _ _ refuses | failedAppend _ _ refuses =>
    cases refuses <;> rfl
  | checked _ _ _ _ _ _ goes | inserted _ _ _ _ _ _ _ goes => cases goes <;> rfl
  | _ => rfl

/-- **An acknowledgement is earned**: the rows of the append are committed, or
they are in the unit's transaction. -/
theorem Moves.acknowledged (hc : ∀ stream, Numbered 0 (versionsOf stream db.committed))
    (hlt : i < db.pending.length) (hi : SessionInv db i session) {call : AppendCall P}
    (hcall : session.activity.call = some call) {newVersion : Int}
    (ho : o.2.2 = some (.appended (.ok newVersion))) :
    (∀ row, Brings call row → row ∈ o.1.committed) ∨
      (o.2.1.direct = false ∧ ∀ row, Brings call row → row ∈ o.1.own i) := by
  cases hm with
  | checked _ _ _ at' read version goes =>
    rw [at'] at hcall
    cases hcall
    have hb := Batch.start hc hi read version
    cases goes with
    | more | committing => cases ho
    | answered full isUnit =>
      exact .inr ⟨isUnit, fun row hrow => hb.contributed full hrow⟩
  | inserted _ _ _ _ _ at' event goes =>
    rw [at'] at hcall
    cases hcall
    have hb := (hi.stands_at at').insert hlt event
    cases goes with
    | more | committing => cases ho
    | answered full isUnit =>
      exact .inr ⟨isUnit, fun row hrow => hb.contributed full hrow⟩
  | committed _ _ version at' =>
    rw [at'] at hcall
    cases hcall
    have hb := (hi.stands_at at').2
    refine .inl fun row hrow => ?_
    exact List.mem_append_right _ (hb.contributed (Nat.le_refl _) hrow)
  | refused _ _ _ _ refuses | collided _ _ _ _ _ _ _ _ _ refuses | failedAppend _ _ refuses =>
    cases refuses <;> cases ho
  | failedBegin _ _ _ answers | failedEnd _ answers =>
    obtain ⟨e, rfl⟩ | ⟨e, rfl⟩ := answers <;> simp at ho
  | _ => simp at ho

/-- A commit that is answered with `Ok` publishes. -/
theorem Moves.commit_publishes (ho : o.2.2 = some (.committed (.ok ()))) :
    session.activity = .publishing ∧ o.1 = db.publish i ∧ o.2.1.activity = .done := by
  cases hm with
  | published _ at' => exact ⟨at', rfl, rfl⟩
  | checked _ _ _ _ _ _ goes | inserted _ _ _ _ _ _ _ goes => cases goes <;> cases ho
  | refused _ _ _ _ refuses | collided _ _ _ _ _ _ _ _ _ refuses | failedAppend _ _ refuses =>
    cases refuses <;> cases ho
  | failedBegin _ _ _ answers | failedEnd _ answers =>
    obtain ⟨e, rfl⟩ | ⟨e, rfl⟩ := answers <;> simp at ho
  | _ => simp at ho

end

/-! ## Placement -/

def bookkeeping : Bookkeeping (AppendCall P) (Session P) (EventRow P) where
  has call rows := ∀ row, Brings call row → row ∈ rows
  mono hhas hsub row hrow := hsub (hhas row hrow)
  isUnit session := session.direct = false
  runs session := session.activity ≠ .done
  isOver session := session.activity = .done

/-- **What has been acknowledged** in the run `h` that ends in `s`. -/
abbrev Booked (h : History E P) (s : State P) : Prop :=
  Ledger bookkeeping (fun i call => ∃ t ∈ h, Acknowledges t i call)
    (fun i => ∃ t ∈ h, t.output = some (i, .committed (.ok ()))) s.db s.sessions

section
variable {h : History E P} {s : State P} {input : Input E}

/-- A step that answers nothing, or with the error of an append. -/
def Uneventful (output : Output) : Prop :=
  output = none ∨ ∃ i e, output = some (i, .appended (.error e))

theorem Uneventful.not_ok {output : Output} (hu : Uneventful output) (i : Nat) :
    output ≠ some (i, .committed (.ok ())) := by
  obtain rfl | ⟨j, e, rfl⟩ := hu <;> simp

theorem Uneventful.acknowledges {t : Event E P} (hu : Uneventful t.output) (i : Nat)
    (call : AppendCall P) : ¬ Acknowledges t i call := by
  rintro ⟨⟨n, hout⟩, -⟩
  obtain h | ⟨j, e, h⟩ := hu <;> simp [h] at hout

/-- The ledger after an uneventful step that keeps sessions and rows. -/
theorem Booked.quiet {s' : State P} {last : Event E P} (hl : Booked h s)
    (hu : Uneventful last.output) (hcommitted : s'.db.committed = s.db.committed)
    (hown : ∀ i, s'.db.own i = s.db.own i)
    (hsessions : ∀ (i : Nat) (session : Session P), s.sessions[i]? = some session →
      s'.sessions[i]? = some session) : Booked (h ++ [last]) s' := by
  refine hl.frame ?_ ?_ hcommitted hown hsessions
  · intro i call ha
    exact (exists_mem_snoc.mp ha).resolve_right (hu.acknowledges i call)
  · intro i hc
    exact (exists_mem_snoc.mp hc).resolve_right (hu.not_ok i)

variable {session : Session P}

theorem acknowledges_moved {i j : Nat} {o : Outcome P}
    {call : AppendCall P} (hat : s.sessions[i]? = some session)
    (ha : Acknowledges (E := E) ⟨s, input, (s.moved i o).2, (s.moved i o).1⟩ j call) :
    j = i ∧ session.activity.call = some call ∧
      ∃ newVersion, o.2.2 = some (.appended (.ok newVersion)) := by
  obtain ⟨⟨n, hout⟩, session', hat', hcall⟩ := ha
  obtain ⟨rfl, hans⟩ := told_iff.mp hout
  obtain rfl : session = session' := Option.mem_unique hat hat'
  exact ⟨rfl, hcall, n, hans⟩

theorem Booked.moved (hl : Booked h s) (hinv : StoreInv s) {i : Nat} {cause : Cause E}
    {o : Outcome P} (hat : s.sessions[i]? = some session) (hm : Moves s.db i session cause o) :
    Booked (h ++ [⟨s, input, (s.moved i o).2, (s.moved i o).1⟩]) (s.moved i o).1 := by
  have hlt := hinv.lt_pending hat
  have hi := hinv.sessions i session hat
  refine Ledger.moved hl hat hm.touches hm.direct_eq.trans hm.done_stays
    (fun hunit => hm.own_grows hlt hunit hi) (o.2.2 = some (.committed (.ok ()))) ?_
    (fun call => session.activity.call = some call ∧ ∃ n, o.2.2 = some (.appended (.ok n)))
    ?_ ?_ ?_
  · intro ho
    obtain ⟨hact, hpublish, hdone⟩ := hm.commit_publishes ho
    refine ⟨?_, hpublish, hdone⟩
    show session.activity ≠ .done
    simp [hact]
  · rintro call ⟨hcall, n, ho⟩
    refine ⟨?_, by simp [ho], hm.acknowledged hinv.committed hlt hi hcall ho⟩
    intro (hdone : session.activity = .done)
    rw [hdone] at hcall
    cases hcall
  · intro j call ha
    exact (exists_mem_snoc.mp ha).imp_right (acknowledges_moved hat)
  · intro j hc
    exact (exists_mem_snoc.mp hc).imp_right told_iff.mp

theorem uneventful_opened {output : Output} (starts : (∃ e, session.activity = .done ∧
        output = some (s.sessions.length, .appended (.error e))) ∨
      (∃ call, session.activity = .beginning call ∧ output = none)) : Uneventful output := by
  obtain ⟨e, _, hout⟩ | ⟨call, _, hout⟩ := starts
  · exact .inr ⟨_, e, hout⟩
  · exact .inl hout

theorem Booked.step (hl : Booked h s) (hinv : StoreInv s) {r : State P × Output}
    (hs : Steps s input r) : Booked (h ++ [⟨s, input, r.2, r.1⟩]) r.1 := by
  cases hs with
  | ignored => exact Booked.quiet hl (.inl rfl) rfl (fun _ => rfl) fun _ _ hat => hat
  | opened _ _ _ starts =>
    refine Booked.quiet hl (uneventful_opened starts) rfl (Db.own_start s.db) ?_
    intro i session hat
    exact (List.getElem?_append_left (List.getElem?_eq_some_iff.mp hat).1).trans hat
  | moved _ _ _ _ _ at' moves => exact Booked.moved hl hinv at' moves

theorem booked_run {serialize : E → Except String P}
    (he : (stoolap serialize).Run h s) : Booked h s := by
  refine he.invariant (P := Booked) ⟨by simp, by simp⟩ ?_
  intro h s input hex hl
  exact Booked.step hl (storeInv_run hex) (steps_step serialize s input)

end

end EgoRs.Stoolap
