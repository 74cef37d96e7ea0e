import EgoRs.Operation.Lifecycle

/-! # Reservation Stores as the Runtime Sees Them

The runtime holds an `Arc<dyn OperationReservationStore>` and knows only
the contract. A store is any state with a step that moves its contents the
way one call of the contract may move them; it may also fail with a
`Backend` error, having done the call or not. The in-memory store is one.
-/

namespace EgoRs

open Memory

/-- A store behind the port. `Choice` is what the environment decides during a
call (iteration orders, faults). -/
structure ReservationPort where
  State : Type
  Choice : Type
  init : State
  step : State → Timestamp → Choice → Call → State × Reply
  /-- The reservations a state stands for. -/
  contents : State → Records
  init_empty : contents init = ∅
  /-- A call is one step of the contract, possibly with its reply lost to a
      `Backend` error, or it fails with such an error and changes nothing. -/
  sound : ∀ s now choice call,
    (∃ reply, Step (contents s) now call (contents (step s now choice call).1) reply ∧
      ((step s now choice call).2 = reply ∨
        ∃ message, (step s now choice call).2 = .failed (.backend message))) ∨
    (contents (step s now choice call).1 = contents s ∧
      ∃ message, (step s now choice call).2 = .failed (.backend message))

def Memory.port : ReservationPort where
  State := Records
  Choice := IterOrder
  init := ∅
  step records now order call := execute records ⟨now, call, order⟩
  contents := id
  init_empty := rfl
  sound records now order call :=
    Or.inl ⟨_, execute_step records ⟨now, call, order⟩, Or.inl rfl⟩

/-- Every call of the in-memory store behind the port is a step, and its
reply is the reply. -/
theorem Memory.port_step (s : Memory.port.State) (now : Timestamp) (order : IterOrder)
    (call : Call) : Step (Memory.port.contents s) now call
      (Memory.port.contents (Memory.port.step s now order call).1)
      (Memory.port.step s now order call).2 :=
  execute_step s ⟨now, call, order⟩

namespace ReservationPort
variable {P : ReservationPort} {s : P.State} {now : Timestamp} {choice : P.Choice} {call : Call}

/-- A call moves the record of one id by a `Change`, whatever reply is seen. -/
theorem change (P : ReservationPort) (s : P.State) (now : Timestamp) (choice : P.Choice)
    (call : Call) (id : OperationId) : ∃ reply, Change now call reply id ((P.contents s).lookup id)
        ((P.contents (P.step s now choice call).1).lookup id) ∧
      ((P.step s now choice call).2 = reply ∨
        ∃ message, (P.step s now choice call).2 = .failed (.backend message)) := by
  rcases P.sound s now choice call with ⟨reply, hs, hreply⟩ | ⟨hsame, message, hfail⟩
  · exact ⟨reply, hs.change id, hreply⟩
  · refine ⟨.failed (.backend message), ?_, Or.inl hfail⟩
    rw [hsame]
    refine .kept _ ?_ (by simp)
    rintro ⟨lease, hlease, -⟩
    cases hlease

/-- A reply that is not a `Backend` error is the contract's own. -/
theorem step_of_reply {reply : Reply} (hreply : (P.step s now choice call).2 = reply)
    (hne : ∀ message, reply ≠ .failed (.backend message)) :
    Step (P.contents s) now call (P.contents (P.step s now choice call).1) reply := by
  rcases P.sound s now choice call with ⟨reply', hs, hsame | ⟨message, hfail⟩⟩ | ⟨-, message, hfail⟩
  · rw [hsame] at hreply
    exact hreply ▸ hs
  · exact absurd (hreply.symm.trans hfail) (hne message)
  · exact absurd (hreply.symm.trans hfail) (hne message)

end ReservationPort

end EgoRs
