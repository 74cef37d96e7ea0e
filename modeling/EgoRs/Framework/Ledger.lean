import EgoRs.Framework.Transactions

/-! # Acknowledged Work

A session is told that its work is in before its transaction commits. The
rows of that work are committed then, or they are in the transaction for as
long as that may commit; and a session whose commit was answered with
success has no work of the second kind.

`Ledger` says so. What the rows of a piece of work are, and when a session
runs or is over, is up to its user.
-/

namespace EgoRs.Framework

/-- What a ledger knows of work `δ` and sessions `σ` over rows `ρ`. -/
structure Bookkeeping (δ σ ρ : Type) where
  /-- The work is among the rows. -/
  has : δ → List ρ → Prop
  mono : ∀ {c rows rows'}, has c rows → rows ⊆ rows' → has c rows'
  /-- What the session does is committed by a call of its own. -/
  isUnit : σ → Prop
  /-- It may still commit. -/
  runs : σ → Prop
  isOver : σ → Prop

section
variable {δ σ ρ : Type} (k : Bookkeeping δ σ ρ) (acked : Nat → δ → Prop) (closed : Nat → Prop)
  (db : Db ρ) (sessions : List σ)

/-- Where work is that was acknowledged to session `i`. -/
inductive Placed (i : Nat) (c : δ) : Prop where
  | published (there : k.has c db.committed)
  | staged (session : σ) (at' : sessions[i]? = some session) (isUnit : k.isUnit session)
      (there : k.runs session → k.has c (db.own i)) (unclosed : ¬ closed i)

/-- **What was acknowledged to whom**, and whose commits were. -/
structure Ledger : Prop where
  placed : ∀ i c, acked i c → Placed k closed db sessions i c
  ended : ∀ i, closed i → ∃ session, sessions[i]? = some session ∧ k.isOver session

end

namespace Ledger
variable {δ σ ρ : Type} {k : Bookkeeping δ σ ρ} {acked acked' : Nat → δ → Prop}
  {closed closed' : Nat → Prop} {db db' : Db ρ} {sessions sessions' : List σ} {i : Nat}
  {session session' : σ} (hl : Ledger k acked closed db sessions)
include hl

theorem finished {c : δ} (hc : acked i c)
    (h : (∃ session, sessions[i]? = some session ∧ ¬ k.isUnit session) ∨ closed i) :
    k.has c db.committed := by
  cases hl.placed i c hc with
  | published there => exact there
  | staged other at' isUnit _ unclosed =>
    obtain ⟨session, hat, hdirect⟩ | hclosed := h
    · obtain rfl : session = other := Option.mem_unique hat at'
      exact absurd isUnit hdirect
    · exact absurd hclosed unclosed

/-- Nothing is acknowledged, and no rows are touched. -/
theorem frame (hacked : ∀ i c, acked' i c → acked i c) (hclosed : ∀ i, closed' i → closed i)
    (hcommitted : db'.committed = db.committed) (hown : ∀ i, db'.own i = db.own i)
    (hsessions : ∀ (i : Nat) session, sessions[i]? = some session →
      sessions'[i]? = some session) : Ledger k acked' closed' db' sessions' := by
  refine ⟨?_, ?_⟩
  · intro i c hc
    cases hl.placed i c (hacked i c hc) with
    | published there =>
      rw [← hcommitted] at there
      exact .published there
    | staged session at' isUnit there unclosed =>
      rw [← hown] at there
      exact .staged session (hsessions i session at') isUnit there (mt (hclosed i) unclosed)
  · intro i hi
    obtain ⟨session, hat, hover⟩ := hl.ended i (hclosed i hi)
    exact ⟨session, hsessions i session hat, hover⟩

/-- Session `i` moves. `ok` says that it is told of its commit, and `ack` of
which work it is told. -/
theorem moved (hat : sessions[i]? = some session) (htouch : db.Touches i db')
    (hunit : k.isUnit session → k.isUnit session') (hover : k.isOver session → k.isOver session')
    (hgrows : k.isUnit session → k.runs session' → k.runs session ∧ db.own i ⊆ db'.own i)
    (ok : Prop) (hok : ok → k.runs session ∧ db' = db.publish i ∧ k.isOver session')
    (ack : δ → Prop) (hack : ∀ c, ack c → ¬ k.isOver session ∧ ¬ ok ∧
      (k.has c db'.committed ∨ k.isUnit session' ∧ k.has c (db'.own i)))
    (hacked : ∀ j c, acked' j c → acked j c ∨ j = i ∧ ack c)
    (hclosed : ∀ j, closed' j → closed j ∨ j = i ∧ ok) :
    Ledger k acked' closed' db' (sessions.set i session') := by
  have hw : Written sessions (sessions.set i session') i session' := .set hat
  have hopen : ∀ {j}, ¬ closed j → (j = i → ¬ ok) → ¬ closed' j := by
    intro j hnot hnow hj
    obtain hj | ⟨rfl, hyes⟩ := hclosed j hj
    · exact hnot hj
    · exact hnow rfl hyes
  refine ⟨?_, ?_⟩
  · intro j c hc
    obtain hold | ⟨rfl, hnew⟩ := hacked j c hc
    · cases hl.placed j c hold with
      | published there => exact .published (k.mono there htouch.committed_grows.subset)
      | staged other at' isUnit there unclosed =>
        by_cases hj : j = i
        · subst hj
          obtain rfl : session = other := Option.mem_unique hat at'
          by_cases hcommits : ok
          · -- the unit commits now, with what it was told it has
            obtain ⟨hruns, rfl, -⟩ := hok hcommits
            exact .published (k.mono (there hruns) (List.subset_append_right _ _))
          · refine .staged session' hw.self (hunit isUnit) ?_ (hopen unclosed fun _ => hcommits)
            intro hruns
            obtain ⟨hruns', hsub⟩ := hgrows isUnit hruns
            exact k.mono (there hruns') hsub
        · rw [← htouch.own_ne hj] at there
          exact .staged other ((hw.others j hj).trans at') isUnit there
            (hopen unclosed fun h => absurd h hj)
    · obtain ⟨hrunning, hnot, hthere | ⟨hunit', hthere⟩⟩ := hack c hnew
      · exact .published hthere
      · refine .staged session' hw.self hunit' (fun _ => hthere) (hopen ?_ fun _ => hnot)
        -- a session that has committed is told of no more work
        intro hdone
        obtain ⟨other, hat', hover'⟩ := hl.ended j hdone
        obtain rfl : session = other := Option.mem_unique hat hat'
        exact hrunning hover'
  · intro j hj
    obtain hold | ⟨rfl, hyes⟩ := hclosed j hj
    · obtain ⟨other, hat', hover'⟩ := hl.ended j hold
      by_cases hji : j = i
      · subst hji
        obtain rfl : session = other := Option.mem_unique hat hat'
        exact ⟨session', hw.self, hover hover'⟩
      · exact ⟨other, (hw.others j hji).trans hat', hover'⟩
    · exact ⟨session', hw.self, (hok hyes).2.2⟩

end Ledger

end EgoRs.Framework
