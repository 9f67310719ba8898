import HalEnforcement.RateLimit.Limiter
import Mathlib.Algebra.Order.Archimedean.Real.Basic
import Mathlib.Tactic.Linarith
import Mathlib.Tactic.NormNum

/-!
# Calls granted in a closed interval of time

`granted_between_bound` carries the counting argument of the fixed window over to the limiter, with
the interval `[a, a + T]` in seconds and both ends real. `sliding_interval_bound` is the bound a
rate limit of `R` operations per second gives over whole runs, also when several pairs of an entity
and an interface share a counter.
-/

namespace HalEnforcement

/-- A reading in seconds. -/
noncomputable def seconds (reading : Int) : ℝ := (reading : ℝ) / 1000000000

/-- How many calls of a pair are granted at readings in `[a, a + T]`. -/
noncomputable def PolicyConfig.grantedBetween (policy : PolicyConfig) (entityId interface : String)
    (a T : ℝ) (calls : List RateCall) : Nat :=
  policy.grantedWhere entityId interface
    (fun reading => decide (a ≤ seconds reading ∧ seconds reading ≤ a + T)) calls

/-- The first and the last nanosecond of an interval. -/
theorem in_interval_iff (a T : ℝ) (reading : Int) :
    (a ≤ seconds reading ∧ seconds reading ≤ a + T) ↔
      ⌈a * 1000000000⌉ ≤ reading ∧ reading ≤ ⌊(a + T) * 1000000000⌋ := by
  rw [Int.ceil_le, Int.le_floor, seconds, le_div_iff₀ (by norm_num), div_le_iff₀ (by norm_num)]

theorem interval_length (a T : ℝ) :
    ((⌊(a + T) * 1000000000⌋ - ⌈a * 1000000000⌉ : Int) : ℝ) ≤ T * 1000000000 := by
  have hlo := Int.le_ceil (a * 1000000000)
  have hhi := Int.floor_le ((a + T) * 1000000000)
  push_cast
  linarith

/-- The calls of a pair granted in an interval are those of `k + 1` windows, or those of `k + 1`
windows and the last `R - d` of an earlier one. With `d = 1` every call that shares the counter has
a positive limit, so that the call that opens a window is granted. -/
theorem granted_between_bound {policy : PolicyConfig} {entityId interface : String}
    {entity : EntityConfig} (hentity : policy.findEntity entityId = some entity) {d : Nat}
    (hd : d ≤ 1)
    (hfirst : ∀ call, policy.limiter.addresses (counterKey entityId interface) call = true →
      d ≤ (policy.callLimit call).toNat)
    {calls : List RateCall} (hsorted : ReadingsSorted calls) (a : ℝ) {T : ℝ} (hT : 0 ≤ T) :
    ∃ k : Nat,
      ((k : ℝ) ≤ T ∧ policy.grantedBetween entityId interface a T calls ≤
        (policy.rateLimit entity interface).toNat * (k + 1)) ∨
      (1 / 1000000000 + (k : ℝ) ≤ T ∧ policy.grantedBetween entityId interface a T calls ≤
        ((policy.rateLimit entity interface).toNat - d) +
          (policy.rateLimit entity interface).toNat * (k + 1)) := by
  have hgrants := granted_where_eq_grants hentity interface
    (fun reading => decide (a ≤ seconds reading ∧ seconds reading ≤ a + T)) calls
  simp only [in_interval_iff] at hgrants
  rw [PolicyConfig.grantedBetween]
  simp only [in_interval_iff]
  have hlength := interval_length a T
  generalize ⌈a * 1000000000⌉ = lo at hgrants hlength ⊢
  generalize ⌊(a + T) * 1000000000⌋ = hi at hgrants hlength ⊢
  rw [hgrants]
  by_cases hlo : lo ≤ hi
  · obtain ⟨k, h⟩ := FixedWindow.grants_between_le second
      (fun call => (policy.callLimit call).toNat) RateCall.now
      (fun call => call.isPair entityId interface)
      (R := (policy.rateLimit entity interface).toNat) hd (hsorted.filter _)
      (fun call _ hpair => by simp only [call_limit_of_is_pair hentity hpair, le_refl])
      (fun call hcall => hfirst call (List.mem_filter.mp hcall).2) hlo
    refine ⟨k, h.imp (And.imp_left fun hk => ?_) (And.imp_left fun hk => ?_)⟩
    · have hcast : ((k * second : Int) : ℝ) ≤ ((hi - lo : Int) : ℝ) := by exact_mod_cast hk
      simp only [second] at hcast
      push_cast at hcast hlength
      linarith
    · have hcast : ((1 + k * second : Int) : ℝ) ≤ ((hi - lo : Int) : ℝ) := by exact_mod_cast hk
      simp only [second] at hcast
      push_cast at hcast hlength
      linarith
  · refine ⟨0, .inl ⟨by simpa using hT, ?_⟩⟩
    have hnone : ∀ reading : Int, ¬ (lo ≤ reading ∧ reading ≤ hi) := by
      intro reading h
      omega
    simp [hnone, FixedWindow.grants]

/-- A call that is granted stores the count of its open window plus one: `count += 1` has not
wrapped. -/
def PolicyConfig.IncrementFits (policy : PolicyConfig) (counters : Counters) (call : RateCall) :
    Prop :=
  let key := counterKey call.entityId call.interface
  let found := openCounter (counters.lookup key) (policy.callLimit call) call.now
  (policy.rateStep counters call).1 = .ok () →
    ∃ stored, (policy.rateStep counters call).2.lookup key = some stored ∧
      stored.count.toNat = found.count.toNat + 1

theorem increment_fits (policy : PolicyConfig) (counters : Counters) (call : RateCall) :
    policy.IncrementFits counters call := by
  intro hgranted
  cases hfind : policy.findEntity call.entityId with
  | none => simp [PolicyConfig.rateStep, PolicyConfig.checkRateLimit, hfind] at hgranted
  | some entity =>
      have hlimit : policy.callLimit call = policy.rateLimit entity call.interface := by
        simp [PolicyConfig.callLimit, hfind]
      simp only [PolicyConfig.rateStep, PolicyConfig.checkRateLimit, hfind, ← hlimit]
        at hgranted ⊢
      have hroom : (openCounter (counters.lookup (counterKey call.entityId call.interface))
          (policy.callLimit call) call.now).count < policy.callLimit call := by
        by_contra hfull
        simp [countOperation, UInt64.not_lt.mp hfull] at hgranted
      refine ⟨_, Finmap.lookup_insert _, ?_⟩
      simp only [countOperation, ge_iff_le, UInt64.not_le.mpr hroom, if_false]
      exact count_add_one hroom

/-- The limit of a pair is the configured one, or the default. -/
theorem rate_limit_eq (policy : PolicyConfig) (entity : EntityConfig) (interface : String) :
    policy.rateLimit entity interface =
      (entity.rateLimits.lookup interface).elim policy.settings.defaultRateLimit
        RateLimitConfig.operationsPerSecond := by
  unfold PolicyConfig.rateLimit
  cases entity.rateLimits.lookup interface <;> rfl

/-- A pair with limit `R`, configured or the default, is granted at most `R * (⌈T⌉ + 1)` calls in
any closed interval of `T` seconds, and no increment of a counter overflows. -/
theorem sliding_interval_bound (policy : PolicyConfig) (entityId interface : String)
    (entity : EntityConfig) (hentity : policy.findEntity entityId = some entity)
    (calls : List RateCall) (hsorted : ReadingsSorted calls) :
    (∀ a T : ℝ, 0 ≤ T → policy.grantedBetween entityId interface a T calls ≤
      ((entity.rateLimits.lookup interface).elim policy.settings.defaultRateLimit
        RateLimitConfig.operationsPerSecond).toNat * (⌈T⌉₊ + 1)) ∧
    Mealy.Along policy.rateStep policy.IncrementFits ∅ calls := by
  refine ⟨fun a T hT => ?_, Mealy.along_of_forall (increment_fits policy) _ _⟩
  rw [← rate_limit_eq]
  -- a window more than `k + 1` is met only by an interval longer than `k` seconds
  obtain ⟨k, ⟨hk, h⟩ | ⟨hk, h⟩⟩ :=
    granted_between_bound hentity (Nat.zero_le 1) (fun _ _ => Nat.zero_le _) hsorted a hT
  · have hceil : k ≤ ⌈T⌉₊ := Nat.cast_le.mp (hk.trans (Nat.le_ceil T))
    exact h.trans (Nat.mul_le_mul_left _ (by omega))
  · have hceil : k < ⌈T⌉₊ := Nat.lt_ceil.mpr (by linarith)
    calc policy.grantedBetween entityId interface a T calls
        ≤ (policy.rateLimit entity interface).toNat +
            (policy.rateLimit entity interface).toNat * (k + 1) := h
      _ = (policy.rateLimit entity interface).toNat * (k + 1 + 1) := by ring
      _ ≤ (policy.rateLimit entity interface).toNat * (⌈T⌉₊ + 1) :=
          Nat.mul_le_mul_left _ (by omega)

/-- Two pairs with limits 1 and 3 call on one counter, half a second before it is reset. -/
theorem sliding_interval_bound_tenant :
    tenantPolicy.grantedBetween "tenant" "crypto:hash" (1 / 2) (3 / 2)
      [⟨"tenant:crypto", "hash", 0⟩, ⟨"tenant", "crypto:hash", 500000000⟩,
        ⟨"tenant", "crypto:hash", second⟩, ⟨"tenant", "crypto:hash", 2 * second⟩] ≤
      1 * (⌈(3 / 2 : ℝ)⌉₊ + 1) :=
  (sliding_interval_bound tenantPolicy "tenant" "crypto:hash" _ rfl _
    (by unfold ReadingsSorted; decide)).1 (1 / 2) (3 / 2) (by norm_num)

end HalEnforcement
