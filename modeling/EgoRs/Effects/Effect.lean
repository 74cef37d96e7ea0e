import EgoRs.Operation.Key

/-! # External Effects

The data of an external effect that entities, the acceptor and the
delivery runner share: `domain/src/effect.rs`, `domain/src/idempotency.rs`
and `persistent-entity/src/effect_acceptor.rs`.
-/

namespace EgoRs

/-- `IdempotencyKey`: any string that is not blank. -/
@[ext]
structure IdempotencyKey where
  value : String
  nonblank : isBlank value = false

instance : DecidableEq IdempotencyKey := fun _ _ =>
  decidable_of_iff _ IdempotencyKey.ext_iff.symm

structure ExternalEffectDescription where
  idempotencyKey : IdempotencyKey
  effectType : String
  payload : List UInt8
  destination : String
  deriving DecidableEq

/-- `EffectAcceptanceError`. The index of the effect that failed is also the
number of effects accepted before it. -/
inductive EffectAcceptanceError where
  | retriesExhausted (message : String) (failedAtIndex : Nat)
      (failedIdempotencyKey : IdempotencyKey)
  | permanent (message : String) (failedAtIndex : Nat) (failedIdempotencyKey : IdempotencyKey)
  deriving DecidableEq

/-! ### The mail of the concrete runs of later files -/

def Effects.sampleTenant : TenantId := ⟨"acme", by decide⟩

def Effects.sampleMail : ExternalEffectDescription :=
  ⟨⟨"order-1", sampleKey.nonblank⟩, "mail", [1, 2], "ops@example.org"⟩

end EgoRs
