import HalEnforcement.RateLimit.Refusal

/-!
# A pair that has been quiet for a second

A counter is reset by the first call that finds it a second old, so a pair whose key nobody has
called for a second starts with an empty window. Whether it can be called at all is then a question
of its limit: `validate` rejects a configured limit of zero and accepts a default of zero.
`idle_pair_granted_iff` says that the next call is granted exactly when the limit is configured or
the default is positive. The clock may step back during the run.
-/

namespace HalEnforcement

/-- The limit of an interface under a valid policy is positive when it is configured or the default
is. -/
theorem rate_limit_ne_zero_iff {policy : PolicyConfig} (hvalid : policy.validate = .ok ())
    {entityId interface : String} {entity : EntityConfig}
    (hentity : policy.findEntity entityId = some entity) :
    policy.rateLimit entity interface ≠ 0 ↔
      (entity.rateLimits.lookup interface).isSome = true ∨
        policy.settings.defaultRateLimit ≠ 0 := by
  cases hlookup : entity.rateLimits.lookup interface with
  | none => simp [PolicyConfig.rateLimit, hlookup]
  | some limit =>
      have hconfigured : policy.rateLimit entity interface ≠ 0 :=
        rate_limit_ne_zero_of_lookup hvalid hentity (by rw [hlookup]; rfl)
      simp [hconfigured]

/-- The window left by calls that are all a second old has expired. -/
theorem window_expired_of_idle {policy : PolicyConfig} {calls : List RateCall} {now : Int}
    (hidle : ∀ call ∈ calls, call.now + second ≤ now) {window : FixedWindow.Window}
    (h : Mealy.final policy.windowStep none calls = some window) :
    second ≤ now - window.opened := by
  have hhi : ∀ call ∈ calls, call.now ≤ now - second := by
    intro call hcall
    have := hidle call hcall
    omega
  have hopened := FixedWindow.opened_le hhi h
  omega

/-- After any run of a valid policy in which no call with the key of the pair was made during the
last second, the next call of the pair is granted exactly when its interface has a configured limit
or the default limit is not zero. -/
theorem idle_pair_granted_iff (policy : PolicyConfig) (hvalid : policy.validate = .ok ())
    (entity : EntityConfig) (hentity : entity ∈ policy.entities) (interface : String)
    (calls : List RateCall) (now : Int)
    (hidle : ∀ call ∈ calls,
      counterKey call.entityId call.interface = counterKey entity.id interface →
        call.now + second ≤ now) :
    (policy.checkRateLimit (Mealy.final policy.rateStep ∅ calls) entity.id interface now).1 =
        .ok () ↔
      (entity.rateLimits.lookup interface).isSome = true ∨
        policy.settings.defaultRateLimit ≠ 0 := by
  have hfind : policy.findEntity entity.id = some entity :=
    (find_entity_eq_some_iff ((validate_ok_iff policy).mp hvalid)).mpr ⟨hentity, rfl⟩
  let call : RateCall := ⟨entity.id, interface, now⟩
  have hexpired : ∀ window, Mealy.final policy.windowStep none
      (calls.filter (policy.limiter.addresses (counterKey entity.id interface))) = some window →
        second ≤ call.now - window.opened := by
    intro window hwindow
    refine window_expired_of_idle (fun other hother => ?_) hwindow
    obtain ⟨hmem, haddresses⟩ := List.mem_filter.mp hother
    exact hidle other hmem (limiter_addresses_iff.mp haddresses).2
  have hgranted : (policy.rateStep (Mealy.final policy.rateStep ∅ calls) call).1.isOk =
      decide (0 < (policy.callLimit call).toNat) := by
    rw [rate_step_final_refines hfind]
    exact FixedWindow.step_expired hexpired
  have hlimit : policy.callLimit call = policy.rateLimit entity interface :=
    call_limit_of_is_pair hfind (is_pair_iff.mpr ⟨rfl, rfl⟩)
  rw [← rate_limit_ne_zero_iff hvalid hfind, ← hlimit, ← is_ok_iff]
  show (policy.rateStep (Mealy.final policy.rateStep ∅ calls) call).1.isOk = true ↔ _
  rw [hgranted, decide_eq_true_eq, Nat.pos_iff_ne_zero, ne_eq, ne_eq, ← UInt64.toNat_inj]
  rfl

/-- After a burst that used up its budget, a configured pair is granted again. -/
theorem idle_pair_granted_tenant :
    (tenantPolicy.checkRateLimit (Mealy.final tenantPolicy.rateStep ∅
      [⟨"tenant", "crypto", 0⟩, ⟨"tenant", "crypto", 1⟩, ⟨"tenant", "crypto", 2⟩,
        ⟨"tenant", "gpu", second⟩]) "tenant" "crypto" (second + 2)).1 = .ok () :=
  (idle_pair_granted_iff tenantPolicy (by decide) _ List.mem_cons_self "crypto" _ (second + 2)
    (by decide)).mpr (.inl rfl)

/-- A policy without a limit for `crypto` and with a default of zero. -/
def zeroDefaultPolicy : PolicyConfig where
  version := "1.0"
  settings := { defaultRateLimit := 0 }
  entities := [{ id := "sensor" }]

/-- Validation accepts it, and the first call of the pair is refused. -/
theorem zero_default_never_granted :
    zeroDefaultPolicy.validate = .ok () ∧
      (zeroDefaultPolicy.checkRateLimit (Mealy.final zeroDefaultPolicy.rateStep ∅ [])
        "sensor" "crypto" 0).1 =
          .error (.rateLimitExceeded "sensor" "0 operations/sec limit exceeded for crypto") := by
  refine ⟨by decide, by decide⟩

end HalEnforcement
