import EgoRs.Effects.SqlEffectStore

/-! # The Stoolap Effect Store

`StoolapEffectStore` of `effect-store/src/stoolap/mod.rs`. It has no claim
columns: the state of a row is all there is.
-/

namespace EgoRs.Effects

namespace StoolapEffectStore

theorem invalidTransition_permanent (id : EffectId) (current target : EffectState)
    (message : String) :
    EffectStoreError.invalidTransition id current target ≠ .temporarilyUnavailable message := by
  intro h
  cases h

/-- No conditions besides those on the state. -/
def rules (now : Timestamp) : ClaimRules Unit where
  fresh := ()
  mayStart := fun _ => true
  start := id
  mayFinish := fun _ => true
  retry := id
  claimable := fun row => row.record.due now
  stamp := id
  recoverable := fun _ => true
  refused := .invalidTransition
  refused_permanent := invalidTransition_permanent

def markInFlight (now : Timestamp) (tables : EffectTables Unit) (id : EffectId) :
    EffectTables Unit × Except EffectStoreError Unit :=
  tables.markInFlight (rules now) id

/-- `claim_due`; it locks nothing and skips nothing. -/
def claimDue (now : Timestamp) (tables : EffectTables Unit) (limit : Nat) (order : IterOrder)
    (nullsFirst : Bool) : EffectTables Unit × List StoredEffect :=
  tables.claimDue (rules now) now limit ⟨order, nullsFirst, fun _ => false⟩

def recoverInFlight (now : Timestamp) (tables : EffectTables Unit) : EffectTables Unit :=
  tables.recoverInFlight (rules now) now

end StoolapEffectStore

end EgoRs.Effects
