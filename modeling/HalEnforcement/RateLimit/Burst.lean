import HalEnforcement.RateLimit.Interval

/-!
# Conformance to a token bucket

No operation reads `burst_size`: the limiter counts fixed windows, and two windows that meet inside
an interval grant the calls of both. `burst_conforms_iff` says for which limits a pair stays within
`max(R, B) + R * T` nevertheless: the calls of two windows back to back have to fit into a burst.
These are `2R - 1`, the first window being opened by a granted call before the interval, and `2R`
where a refused call of a pair with limit 0 can open it. The burst that `RateLimitConfig.new` sets
is enough for both (`burst_conforms_of_new`).
-/

namespace HalEnforcement

/-- `calls` calls granted within one nanosecond are within the bucket. -/
def RateLimitConfig.Admits (limit : RateLimitConfig) (calls : Nat) : Prop :=
  1000000000 * calls ≤
    1000000000 * max limit.operationsPerSecond.toNat limit.burstSize.toNat +
      limit.operationsPerSecond.toNat

/-- The calls a token bucket of this limit lets through in `T` seconds. -/
noncomputable def RateLimitConfig.bucket (limit : RateLimitConfig) (T : ℝ) : ℝ :=
  max (limit.operationsPerSecond.toNat : ℝ) limit.burstSize.toNat +
    limit.operationsPerSecond.toNat * T

/-- Every run grants the pair at most what the bucket lets through, in every interval. -/
def PolicyConfig.BurstConforms (policy : PolicyConfig) (entityId interface : String)
    (limit : RateLimitConfig) : Prop :=
  ∀ calls, ReadingsSorted calls → ∀ a T : ℝ, 0 ≤ T →
    (policy.grantedBetween entityId interface a T calls : ℝ) ≤ limit.bucket T

/-- A pair with effective limit 0 has the key of this pair. -/
def PolicyConfig.ZeroLimitShares (policy : PolicyConfig) (entityId interface : String) : Prop :=
  ∃ other ∈ policy.entities, ∃ otherInterface,
    counterKey other.id otherInterface = counterKey entityId interface ∧
      policy.rateLimit other otherInterface = 0

theorem admits_iff {limit : RateLimitConfig} {calls : Nat} :
    limit.Admits calls ↔ (calls : ℝ) ≤ limit.bucket (1 / 1000000000) := by
  have hcast : limit.Admits calls ↔ ((1000000000 * calls : Nat) : ℝ) ≤
      ((1000000000 * max limit.operationsPerSecond.toNat limit.burstSize.toNat +
        limit.operationsPerSecond.toNat : Nat) : ℝ) := Nat.cast_le.symm
  rw [hcast, RateLimitConfig.bucket]
  push_cast
  constructor
  · intro h
    linarith
  · intro h
    linarith

/-- The bucket refills by the limit every second. -/
theorem bucket_add_seconds (limit : RateLimitConfig) (T : ℝ) (k : Nat) :
    limit.bucket (T + k) = limit.bucket T + limit.operationsPerSecond.toNat * k := by
  simp only [RateLimitConfig.bucket]
  ring

theorem bucket_mono {limit : RateLimitConfig} {T U : ℝ} (h : T ≤ U) :
    limit.bucket T ≤ limit.bucket U := by
  have hR : (0 : ℝ) ≤ limit.operationsPerSecond.toNat := Nat.cast_nonneg _
  have := mul_le_mul_of_nonneg_left h hR
  simp only [RateLimitConfig.bucket]
  linarith

theorem limit_le_bucket_zero (limit : RateLimitConfig) :
    (limit.operationsPerSecond.toNat : ℝ) ≤ limit.bucket 0 := by
  have := le_max_left (limit.operationsPerSecond.toNat : ℝ) limit.burstSize.toNat
  simp only [RateLimitConfig.bucket, mul_zero, add_zero]
  exact this

/-- The configured limit of an interface is the one its calls are checked against. -/
theorem rate_limit_of_configured {policy : PolicyConfig} {entity : EntityConfig}
    {interface : String} {limit : RateLimitConfig}
    (h : entity.rateLimits.lookup interface = some limit) :
    policy.rateLimit entity interface = limit.operationsPerSecond := by
  simp [PolicyConfig.rateLimit, h]

section Conforms

variable {policy : PolicyConfig} {entityId interface : String} {entity : EntityConfig}
  {limit : RateLimitConfig}

/-- The bound of two windows back to back is enough, whatever the interval. -/
theorem burst_conforms_of_admits (hentity : policy.findEntity entityId = some entity)
    (hlimit : entity.rateLimits.lookup interface = some limit) {d : Nat} (hd : d ≤ 1)
    (hfirst : ∀ call, policy.limiter.addresses (counterKey entityId interface) call = true →
      d ≤ (policy.callLimit call).toNat)
    (hadmits : limit.Admits (limit.operationsPerSecond.toNat - d +
      limit.operationsPerSecond.toNat)) :
    policy.BurstConforms entityId interface limit := by
  intro calls hsorted a T hT
  obtain ⟨k, ⟨hk, h⟩ | ⟨hk, h⟩⟩ := granted_between_bound hentity hd hfirst hsorted a hT
  · rw [rate_limit_of_configured hlimit] at h
    calc (policy.grantedBetween entityId interface a T calls : ℝ)
        ≤ ((limit.operationsPerSecond.toNat * (k + 1) : Nat) : ℝ) := Nat.cast_le.mpr h
      _ = limit.operationsPerSecond.toNat + limit.operationsPerSecond.toNat * k := by
          push_cast
          ring
      _ ≤ limit.bucket 0 + limit.operationsPerSecond.toNat * k := by
          have := limit_le_bucket_zero limit
          linarith
      _ = limit.bucket (0 + k) := (bucket_add_seconds limit 0 k).symm
      _ ≤ limit.bucket T := bucket_mono (by linarith)
  · rw [rate_limit_of_configured hlimit] at h
    calc (policy.grantedBetween entityId interface a T calls : ℝ)
        ≤ ((limit.operationsPerSecond.toNat - d +
            limit.operationsPerSecond.toNat * (k + 1) : Nat) : ℝ) := Nat.cast_le.mpr h
      _ = ((limit.operationsPerSecond.toNat - d + limit.operationsPerSecond.toNat : Nat) : ℝ) +
            limit.operationsPerSecond.toNat * k := by
          push_cast
          ring
      _ ≤ limit.bucket (1 / 1000000000) + limit.operationsPerSecond.toNat * k := by
          have := admits_iff.mp hadmits
          linarith
      _ = limit.bucket (1 / 1000000000 + k) := (bucket_add_seconds limit _ k).symm
      _ ≤ limit.bucket T := bucket_mono hk

/-- A limit with the default burst conforms, whatever shares its counter. -/
theorem burst_conforms_of_new (hentity : policy.findEntity entityId = some entity)
    {opsPerSec : UInt64} (hfits : 2 * opsPerSec.toNat < 2 ^ 64)
    (hlimit : entity.rateLimits.lookup interface = some (.new opsPerSec)) :
    policy.BurstConforms entityId interface (.new opsPerSec) := by
  have hburst : (opsPerSec * 2).toNat = 2 * opsPerSec.toNat := by
    rw [UInt64.toNat_mul, Nat.mod_eq_of_lt]
    · exact Nat.mul_comm _ _
    · show opsPerSec.toNat * 2 < 2 ^ 64
      omega
  refine burst_conforms_of_admits hentity hlimit (Nat.zero_le 1) (fun _ _ => Nat.zero_le _) ?_
  have hmax := le_max_right opsPerSec.toNat (opsPerSec * 2).toNat
  show 1000000000 * (opsPerSec.toNat - 0 + opsPerSec.toNat) ≤
    1000000000 * max opsPerSec.toNat (opsPerSec * 2).toNat + opsPerSec.toNat
  omega

/-- The calls of the pair in the run that reaches the bound: some at the end of the window opened at
0, and those of a whole window as soon as it is over. -/
def burstCalls (entityId interface : String) (early late : Nat) : List RateCall :=
  List.replicate early ⟨entityId, interface, second - 1⟩ ++
    List.replicate late ⟨entityId, interface, second⟩

theorem mem_burst_calls {early late : Nat} {call : RateCall}
    (h : call ∈ burstCalls entityId interface early late) :
    call = ⟨entityId, interface, second - 1⟩ ∨ call = ⟨entityId, interface, second⟩ := by
  rcases List.mem_append.mp h with h | h
  · exact .inl (List.eq_of_mem_replicate h)
  · exact .inr (List.eq_of_mem_replicate h)

theorem readings_sorted_burst {opening : RateCall} (hopening : opening.now = 0)
    (early late : Nat) : ReadingsSorted (opening :: burstCalls entityId interface early late) := by
  have hsecond := second_pos
  rw [ReadingsSorted, List.pairwise_cons]
  constructor
  · intro call hcall
    rw [hopening]
    rcases mem_burst_calls hcall with rfl | rfl
    · show 0 ≤ second - 1
      omega
    · show 0 ≤ second
      omega
  · rw [burstCalls, List.pairwise_append]
    refine ⟨List.pairwise_replicate.mpr (.inr le_rfl),
      List.pairwise_replicate.mpr (.inr le_rfl), fun call hcall other hother => ?_⟩
    rw [List.eq_of_mem_replicate hcall, List.eq_of_mem_replicate hother]
    show second - 1 ≤ second
    omega

/-- Both groups of calls fall into the interval of one nanosecond that ends at `second`. -/
theorem within_burst {reading : Int} (h : reading = second - 1 ∨ reading = second) :
    seconds (second - 1) ≤ seconds reading ∧
      seconds reading ≤ seconds (second - 1) + 1 / 1000000000 := by
  rcases h with rfl | rfl
  · exact ⟨le_rfl, by simp⟩
  · constructor
    · simp only [seconds, second]
      norm_num
    · simp only [seconds, second]
      norm_num

/-- The early calls fill the window opened at 0, the late ones open and fill the next. -/
theorem burst_trace (hentity : policy.findEntity entityId = some entity)
    (hpos : 0 < (policy.rateLimit entity interface).toNat) {count early : Nat}
    (hroom : count + early ≤ (policy.rateLimit entity interface).toNat) :
    Mealy.trace policy.windowStep (some ⟨count, 0⟩)
        (burstCalls entityId interface early (policy.rateLimit entity interface).toNat) =
      List.replicate early (⟨entityId, interface, second - 1⟩, true) ++
        List.replicate (policy.rateLimit entity interface).toNat
          (⟨entityId, interface, second⟩, true) := by
  have hcall : ∀ now, (policy.callLimit ⟨entityId, interface, now⟩).toNat =
      (policy.rateLimit entity interface).toNat := fun now =>
    congrArg UInt64.toNat (call_limit_of_is_pair hentity (is_pair_iff.mpr ⟨rfl, rfl⟩))
  obtain ⟨htrace, hfinal⟩ :
      Mealy.trace policy.windowStep (some ⟨count, 0⟩)
          (List.replicate early ⟨entityId, interface, second - 1⟩) =
          List.replicate early (⟨entityId, interface, second - 1⟩, true) ∧
        Mealy.final policy.windowStep (some ⟨count, 0⟩)
          (List.replicate early ⟨entityId, interface, second - 1⟩) =
          some ⟨count + early, 0⟩ :=
    FixedWindow.trace_replicate (by simp) (by rwa [hcall])
  have hlate : Mealy.trace policy.windowStep (some ⟨count + early, 0⟩)
      (List.replicate (policy.rateLimit entity interface).toNat ⟨entityId, interface, second⟩) =
      List.replicate (policy.rateLimit entity interface).toNat
        (⟨entityId, interface, second⟩, true) :=
    (FixedWindow.trace_opening second_pos (by simp) hpos (by rw [hcall])).1
  rw [burstCalls, Mealy.trace_append, htrace, hfinal, hlate]

/-- A call that opens the window at 0 and leaves room for `early` calls is followed by that many
calls at the end of the window and those of a whole window one nanosecond later. -/
theorem burst_granted (hentity : policy.findEntity entityId = some entity)
    (hpos : 0 < (policy.rateLimit entity interface).toNat) {opening : RateCall}
    (haddresses : policy.limiter.addresses (counterKey entityId interface) opening = true)
    {granted : Bool} {count : Nat} (early : Nat)
    (hopening : policy.windowStep none opening = (granted, some ⟨count, 0⟩))
    (hroom : count + early ≤ (policy.rateLimit entity interface).toNat) :
    early + (policy.rateLimit entity interface).toNat ≤
      policy.grantedBetween entityId interface (seconds (second - 1)) (1 / 1000000000)
        (opening :: burstCalls entityId interface early
          (policy.rateLimit entity interface).toNat) := by
  have hpair : ∀ now, (⟨entityId, interface, now⟩ : RateCall).isPair entityId interface = true :=
    fun _ => is_pair_iff.mpr ⟨rfl, rfl⟩
  have hall : ∀ call ∈ opening :: burstCalls entityId interface early
      (policy.rateLimit entity interface).toNat,
      policy.limiter.addresses (counterKey entityId interface) call = true := by
    intro call hcall
    rcases List.mem_cons.mp hcall with rfl | hcall
    · exact haddresses
    · rcases mem_burst_calls hcall with rfl | rfl
      · exact addresses_of_is_pair hentity (hpair _)
      · exact addresses_of_is_pair hentity (hpair _)
  have hmine : ∀ now, now = second - 1 ∨ now = second →
      ((⟨entityId, interface, now⟩ : RateCall).isPair entityId interface &&
        decide (seconds (second - 1) ≤ seconds now ∧
          seconds now ≤ seconds (second - 1) + 1 / 1000000000)) = true := by
    intro now h
    rw [hpair, decide_eq_true (within_burst h)]
    rfl
  rw [PolicyConfig.grantedBetween, granted_where_eq_grants hentity,
    List.filter_eq_self.mpr hall, Mealy.trace_cons, hopening, burst_trace hentity hpos hroom,
    ← List.singleton_append, FixedWindow.grants_append, FixedWindow.grants_append,
    FixedWindow.grants_replicate, FixedWindow.grants_replicate]
  · exact Nat.le_add_left _ _
  · exact hmine _ (.inr rfl)
  · exact hmine _ (.inl rfl)

theorem call_limit_pos_of_no_zero_limit (hzero : ¬ policy.ZeroLimitShares entityId interface)
    (call : RateCall)
    (h : policy.limiter.addresses (counterKey entityId interface) call = true) :
    1 ≤ (policy.callLimit call).toNat := by
  obtain ⟨⟨other, hother⟩, hkey⟩ := limiter_addresses_iff.mp h
  obtain ⟨hmem, hid⟩ := mem_of_find_entity hother
  have hlimit : policy.callLimit call = policy.rateLimit other call.interface :=
    call_limit_of_is_pair hother (is_pair_iff.mpr ⟨rfl, rfl⟩)
  rw [Nat.one_le_iff_ne_zero]
  intro hnil
  refine hzero ⟨other, hmem, call.interface, by rw [hid, hkey], ?_⟩
  rw [← hlimit]
  exact UInt64.toNat_inj.mp hnil

/-- A conforming pair can bear the run that begins with this opening call. -/
theorem admits_of_opening (hentity : policy.findEntity entityId = some entity)
    (hlimit : entity.rateLimits.lookup interface = some limit)
    (hpos : 0 < limit.operationsPerSecond.toNat)
    (h : policy.BurstConforms entityId interface limit) {opening : RateCall}
    (hnow : opening.now = 0)
    (haddresses : policy.limiter.addresses (counterKey entityId interface) opening = true)
    {granted : Bool} {count : Nat} (early : Nat)
    (hopening : policy.windowStep none opening = (granted, some ⟨count, 0⟩))
    (hroom : count + early ≤ limit.operationsPerSecond.toNat) :
    limit.Admits (early + limit.operationsPerSecond.toNat) := by
  have hrate : policy.rateLimit entity interface = limit.operationsPerSecond :=
    rate_limit_of_configured hlimit
  have hgranted := burst_granted hentity (by rwa [hrate]) haddresses early hopening
    (by rwa [hrate])
  rw [hrate] at hgranted
  have hsorted : ReadingsSorted
      (opening :: burstCalls entityId interface early limit.operationsPerSecond.toNat) :=
    readings_sorted_burst hnow _ _
  exact admits_iff.mpr ((Nat.cast_le.mpr hgranted).trans (h _ hsorted _ _ (by norm_num)))

/-- The pair's own call opens the window and takes one place of it. -/
theorem admits_of_burst_conforms (hentity : policy.findEntity entityId = some entity)
    (hlimit : entity.rateLimits.lookup interface = some limit)
    (hpos : 0 < limit.operationsPerSecond.toNat)
    (h : policy.BurstConforms entityId interface limit) :
    limit.Admits (limit.operationsPerSecond.toNat - 1 + limit.operationsPerSecond.toNat) := by
  have hpair : (⟨entityId, interface, 0⟩ : RateCall).isPair entityId interface = true :=
    is_pair_iff.mpr ⟨rfl, rfl⟩
  have hcall : 0 < (policy.callLimit ⟨entityId, interface, 0⟩).toNat := by
    rwa [call_limit_of_is_pair hentity hpair, rate_limit_of_configured hlimit]
  have hopening : policy.windowStep none ⟨entityId, interface, 0⟩ = (true, some ⟨1, 0⟩) :=
    FixedWindow.step_opening hcall (by simp)
  exact admits_of_opening hentity hlimit hpos h rfl (addresses_of_is_pair hentity hpair) _ hopening
    (by omega)

/-- A refused call of a pair with limit 0 opens the window and takes none. -/
theorem admits_of_burst_conforms_of_zero_limit
    (hentity : policy.findEntity entityId = some entity) (hwell : policy.WellFormed)
    (hlimit : entity.rateLimits.lookup interface = some limit)
    (hpos : 0 < limit.operationsPerSecond.toNat)
    (hzero : policy.ZeroLimitShares entityId interface)
    (h : policy.BurstConforms entityId interface limit) :
    limit.Admits (limit.operationsPerSecond.toNat + limit.operationsPerSecond.toNat) := by
  obtain ⟨other, hmem, otherInterface, hkey, hnil⟩ := hzero
  have hother : policy.findEntity other.id = some other :=
    (find_entity_eq_some_iff hwell).mpr ⟨hmem, rfl⟩
  have hcall : policy.callLimit ⟨other.id, otherInterface, 0⟩ = 0 := by
    rw [call_limit_of_is_pair hother (is_pair_iff.mpr ⟨rfl, rfl⟩), hnil]
  have hopening : policy.windowStep none ⟨other.id, otherInterface, 0⟩ = (false, some ⟨0, 0⟩) :=
    FixedWindow.step_refused (by simp [hcall])
  exact admits_of_opening hentity hlimit hpos h rfl
    (limiter_addresses_iff.mpr ⟨⟨other, hother⟩, hkey⟩) _ hopening (by omega)

/-- A configured pair conforms to its token bucket in every run exactly when a burst has room for
the calls of two windows back to back. -/
theorem burst_conforms_iff (policy : PolicyConfig) (hvalid : policy.validate = .ok ())
    (entityId interface : String) (entity : EntityConfig)
    (hentity : policy.findEntity entityId = some entity) (limit : RateLimitConfig)
    (hlimit : entity.rateLimits.lookup interface = some limit) :
    policy.BurstConforms entityId interface limit ↔
      limit.Admits (limit.operationsPerSecond.toNat - 1 + limit.operationsPerSecond.toNat) ∧
        (policy.ZeroLimitShares entityId interface →
          limit.Admits (limit.operationsPerSecond.toNat + limit.operationsPerSecond.toNat)) := by
  have hwell := (validate_ok_iff policy).mp hvalid
  have hpos : 0 < limit.operationsPerSecond.toNat := by
    have hne := (hwell.entities entity (mem_of_find_entity hentity).1).limit_ne_zero _ _ hlimit
    exact Nat.pos_iff_ne_zero.mpr fun h => hne (UInt64.toNat_inj.mp h)
  constructor
  · intro h
    exact ⟨admits_of_burst_conforms hentity hlimit hpos h, fun hzero =>
      admits_of_burst_conforms_of_zero_limit hentity hwell hlimit hpos hzero h⟩
  · intro h
    obtain ⟨hone, htwo⟩ := h
    by_cases hzero : policy.ZeroLimitShares entityId interface
    · exact burst_conforms_of_admits hentity hlimit (Nat.zero_le 1) (fun _ _ => Nat.zero_le _)
        (htwo hzero)
    · exact burst_conforms_of_admits hentity hlimit le_rfl
        (call_limit_pos_of_no_zero_limit hzero) hone

theorem burst_conforms_tenant :
    tenantPolicy.BurstConforms "tenant:crypto" "hash" ⟨3, 6⟩ := by
  refine (burst_conforms_iff tenantPolicy (by decide) "tenant:crypto" "hash" _ rfl ⟨3, 6⟩ rfl).mpr
    ⟨?_, fun _ => ?_⟩
  · unfold RateLimitConfig.Admits
    decide
  · unfold RateLimitConfig.Admits
    decide

/-- Limit 2 and burst 2: three calls are granted within a nanosecond. -/
theorem not_burst_conforms_tenant :
    tenantPolicy.validate = .ok () ∧
      ReadingsSorted (⟨"tenant", "crypto", 0⟩ :: burstCalls "tenant" "crypto" 1 2) ∧
      ((tenantPolicy.findEntity "tenant").bind fun entity =>
        entity.rateLimits.lookup "crypto") = some ⟨2, 2⟩ ∧
      (RateLimitConfig.mk 2 2).bucket (1 / 1000000000) <
        tenantPolicy.grantedBetween "tenant" "crypto" (seconds (second - 1)) (1 / 1000000000)
          (⟨"tenant", "crypto", 0⟩ :: burstCalls "tenant" "crypto" 1 2) := by
  refine ⟨by decide, readings_sorted_burst rfl 1 2, by decide, ?_⟩
  obtain ⟨entity, hentity, hlimit⟩ : ∃ entity, tenantPolicy.findEntity "tenant" = some entity ∧
      (tenantPolicy.rateLimit entity "crypto").toNat = 2 := ⟨_, rfl, by decide⟩
  have haddresses : tenantPolicy.limiter.addresses (counterKey "tenant" "crypto")
      ⟨"tenant", "crypto", 0⟩ = true := by decide
  have hopening : tenantPolicy.windowStep none ⟨"tenant", "crypto", 0⟩ =
      (true, some ⟨1, 0⟩) := by decide
  have hgranted := burst_granted hentity (by rw [hlimit]; decide) haddresses 1 hopening
    (by rw [hlimit])
  rw [hlimit] at hgranted
  refine lt_of_lt_of_le ?_ (Nat.cast_le.mpr hgranted)
  have hbucket : ¬ (RateLimitConfig.mk 2 2).Admits 3 := by
    unfold RateLimitConfig.Admits
    decide
  rw [admits_iff, not_le] at hbucket
  exact hbucket

end Conforms

end HalEnforcement
