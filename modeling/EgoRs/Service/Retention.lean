import EgoRs.Effects.Runner
import EgoRs.Security.JwtValidation
import EgoRs.Service.Idempotency

/-! # Retention Cutoffs and Leases

The policies of `service-sdk/src/runtime/retention.rs` and
`effect_retention.rs`, the cutoff their workers compute for every purge, and
`lease_until` of `ReservationConfig`. `chrono` panics where a date would lie
outside its range.
-/

namespace EgoRs

/-- `RetentionPolicyError` and `EffectRetentionPolicyError`. -/
inductive RetentionPolicyError where
  | zeroRetention
  | zeroInterval
  | zeroBatch

/-- `RetentionPolicy` and `EffectRetentionPolicy`; durations are in nanoseconds. -/
structure RetentionPolicy where
  retention : Nat
  interval : Nat
  batchSize : Nat
  retains : retention ≠ 0
  waits : interval ≠ 0
  purges : batchSize ≠ 0

namespace RetentionPolicy

/-- `new` of both. -/
def new (retention interval batchSize : Nat) : Except RetentionPolicyError RetentionPolicy :=
  if hr : retention = 0 then .error .zeroRetention
  else if hi : interval = 0 then .error .zeroInterval
  else if hb : batchSize = 0 then .error .zeroBatch
  else .ok ⟨retention, interval, batchSize, hr, hi, hb⟩

/-- The window of both workers. -/
def window (policy : RetentionPolicy) : Except Stop Int :=
  if policy.retention ≤ Effects.chronoDurationMax then .ok policy.retention
  else durationSeconds ((2 ^ 63 - 1) / 1000)

def cutoff (policy : RetentionPolicy) (now : Timestamp) : Except Stop Timestamp :=
  match policy.window with
  | .error e => .error e
  | .ok window => addDuration now (-window)

end RetentionPolicy

def ReservationConfig.leaseUntil (config : ReservationConfig) (now : Timestamp) :
    Except Stop Timestamp :=
  if config.leaseDuration ≤ Effects.chronoDurationMax then addDuration now config.leaseDuration
  else .error .panicked

variable {now t d : Int}

theorem addDuration_eq_ok : addDuration now d = .ok t ↔
    now + d = t ∧ minSeconds * nanosPerSecond ≤ t ∧ t < (maxSeconds + 1) * nanosPerSecond := by
  unfold addDuration
  split
  · rename_i hrange
    rw [Except.ok.injEq]
    exact ⟨fun h => ⟨h, h ▸ hrange⟩, And.left⟩
  · rename_i hout
    exact ⟨nofun, fun h => absurd (h.1 ▸ h.2) hout⟩

/-- A cutoff is a date, the window back. The fallback for a window that `chrono`
has no duration for is out of range too. -/
theorem RetentionPolicy.cutoff_eq_ok {policy : RetentionPolicy}
    (hnow : now < 253402300800 * nanosPerSecond) :
    policy.cutoff now = .ok t ↔ now - policy.retention = t ∧ minSeconds * nanosPerSecond ≤ t := by
  unfold cutoff window durationSeconds
  unfold nanosPerSecond at hnow
  by_cases hfits : policy.retention ≤ Effects.chronoDurationMax
  · simp only [if_pos hfits, addDuration_eq_ok, minSeconds, maxSeconds, nanosPerSecond]
    omega
  · rw [if_neg hfits, if_pos (by decide)]
    simp only [addDuration_eq_ok, minSeconds, maxSeconds, nanosPerSecond]
    unfold Effects.chronoDurationMax at hfits
    omega

/-- A lease ends its duration from now; a duration that `chrono` has no value for
would end after the last date too. -/
theorem ReservationConfig.leaseUntil_eq_ok {config : ReservationConfig} (hfrom : 0 ≤ now) :
    config.leaseUntil now = .ok t ↔
      now + config.leaseDuration = t ∧ t < (maxSeconds + 1) * nanosPerSecond := by
  have hpositive := config.positive
  unfold leaseUntil
  by_cases hfits : config.leaseDuration ≤ Effects.chronoDurationMax
  · simp only [if_pos hfits, addDuration_eq_ok, minSeconds, maxSeconds, nanosPerSecond]
    omega
  · rw [if_neg hfits]
    simp only [maxSeconds, nanosPerSecond, reduceCtorEq, false_iff]
    unfold Effects.chronoDurationMax at hfits
    omega

/-- **Cutoffs and leases in range.** A cutoff is computed exactly if its window
does not reach back before the first date, a longer window never has a later
one, and a lease has an end exactly if that is no later than the last date;
it is after now. -/
theorem cutoffs_and_leases_in_range (hfrom : 0 ≤ now) (hnow : now < 253402300800 * nanosPerSecond) :
    (∀ (policy : RetentionPolicy) (t : Int), policy.cutoff now = .ok t ↔
      now - policy.retention = t ∧ minSeconds * nanosPerSecond ≤ t) ∧
    (∀ (policy longer : RetentionPolicy) (t t' : Int), policy.retention ≤ longer.retention →
      policy.cutoff now = .ok t → longer.cutoff now = .ok t' → t' ≤ t) ∧
    ∀ (config : ReservationConfig) (t : Int), config.leaseUntil now = .ok t ↔
      now + config.leaseDuration = t ∧ now < t ∧ t < (maxSeconds + 1) * nanosPerSecond := by
  refine ⟨fun policy t => policy.cutoff_eq_ok hnow, ?_, ?_⟩
  · intro policy longer t t' hle ht ht'
    have hcut := (policy.cutoff_eq_ok hnow).mp ht
    have hcut' := (longer.cutoff_eq_ok hnow).mp ht'
    omega
  · intro config t
    have hpositive := config.positive
    rw [config.leaseUntil_eq_ok hfrom]
    omega

/-- A window of a year and a lease of a second, in 1970. -/
theorem cutoffs_and_leases_in_1970 :
    (∃ policy, RetentionPolicy.new 31536000000000000 1 1 = .ok policy ∧
      policy.cutoff 0 = .ok (-31536000000000000)) ∧
    ∃ config, ReservationConfig.new ⟨"o"⟩ 1000000000 = some config ∧
      ∃ t : Int, config.leaseUntil 0 = .ok t ∧ 0 < t := by
  have h := @cutoffs_and_leases_in_range 0 (by decide) (by decide)
  exact ⟨⟨_, rfl, (h.1 _ _).mpr (by decide)⟩, _, rfl, 1000000000,
    (h.2.2 _ _).mpr (by decide), by decide⟩

/-- Three hundred thousand years, and the longest window there is, are accepted
and have no cutoff; nor has the longest lease an end. -/
theorem long_window_panics :
    (∃ policy, RetentionPolicy.new (300000 * 31536000000000000) 1 1 = .ok policy ∧
      policy.cutoff 0 = .error .panicked) ∧
    (∃ policy, RetentionPolicy.new Effects.durationMax 1 1 = .ok policy ∧
      policy.cutoff 0 = .error .panicked) ∧
    ∃ config, ReservationConfig.new ⟨"o"⟩ Effects.durationMax = some config ∧
      config.leaseUntil 0 = .error .panicked :=
  ⟨⟨_, rfl, by decide⟩, ⟨_, rfl, by decide⟩, _, rfl, by decide⟩

end EgoRs
