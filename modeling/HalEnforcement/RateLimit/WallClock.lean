import HalEnforcement.Library.WallClock
import HalEnforcement.RateLimit.Limiter

/-!
# Refusals under the wall clock

`check_rate_limit` keeps its window when the wall clock has stepped back behind `last_reset`: the
difference is negative, so it is less than a second. `rate_refusals_justified_iff` says under which
clocks a refusal still means that the budget was used up within a second of it. The clock is any
function from the instants of an ordered time to readings, so the theorem covers every sequence of
readings a run can make.
-/

namespace HalEnforcement

/-- Every call refused for its rate finds its limit used up at readings less than a second away. -/
def PolicyConfig.RefusalsJustified (policy : PolicyConfig) (calls : List RateCall) : Prop :=
  ∀ before call after, calls = before ++ call :: after →
    (∃ message, (policy.rateStep (Mealy.final policy.rateStep ∅ before) call).1 =
      .error (.rateLimitExceeded call.entityId message)) →
    (policy.callLimit call).toNat ≤ (policy.rateTrace before).countP fun entry =>
      entry.2.isOk && decide (|call.now - entry.1.now| < second)

/-- A call of the pair at an instant, with the reading the clock then shows. -/
def callAt {τ : Type} (entityId interface : String) (clock : τ → Int) (instant : τ) : RateCall :=
  ⟨entityId, interface, clock instant⟩

section Pair

variable {τ : Type} {policy : PolicyConfig} {entityId interface : String} {entity : EntityConfig}
  {clock : τ → Int}

theorem is_pair_call_at (instant : τ) :
    (callAt entityId interface clock instant).isPair entityId interface = true :=
  is_pair_iff.mpr ⟨rfl, rfl⟩

/-- The window of the pair, as a machine that reads instants. -/
theorem window_step_at (hentity : policy.findEntity entityId = some entity) :
    (fun window instant => policy.windowStep window (callAt entityId interface clock instant)) =
      FixedWindow.step second (fun _ => (policy.rateLimit entity interface).toNat) clock := by
  funext window instant
  have hlimit : policy.callLimit (callAt entityId interface clock instant) =
      policy.rateLimit entity interface :=
    call_limit_of_is_pair hentity (is_pair_call_at instant)
  simp only [PolicyConfig.windowStep, FixedWindow.step, hlimit]
  rfl

theorem addresses_call_at (hentity : policy.findEntity entityId = some entity)
    (instants : List τ) :
    ∀ call ∈ instants.map (callAt entityId interface clock),
      policy.limiter.addresses (counterKey entityId interface) call = true := by
  rw [List.forall_mem_map]
  exact fun instant _ => addresses_of_is_pair hentity (is_pair_call_at instant)

/-- A run of one pair is a run of its window at the instants of the calls. -/
theorem rate_trace_at_instants (hentity : policy.findEntity entityId = some entity)
    (instants : List τ) :
    (policy.rateTrace (instants.map (callAt entityId interface clock))).map
        (Prod.map id Except.isOk) =
      (Mealy.trace (FixedWindow.step second
        (fun _ => (policy.rateLimit entity interface).toNat) clock) none instants).map
          (Prod.map (callAt entityId interface clock) id) := by
  rw [rate_trace_of_one_key (addresses_call_at hentity instants), Mealy.trace_map,
    window_step_at hentity]

/-- After a run of one pair, the next call of it is decided by its window. -/
theorem rate_step_at_instant (hentity : policy.findEntity entityId = some entity)
    (instants : List τ) (instant : τ) :
    (policy.rateStep (Mealy.final policy.rateStep ∅
        (instants.map (callAt entityId interface clock)))
          (callAt entityId interface clock instant)).1.isOk =
      (FixedWindow.step second (fun _ => (policy.rateLimit entity interface).toNat) clock
        (Mealy.final (FixedWindow.step second
          (fun _ => (policy.rateLimit entity interface).toNat) clock) none instants) instant).1 := by
  have hall : (instants.map (callAt entityId interface clock)).filter
      (policy.limiter.addresses (counterKey entityId interface)) =
        instants.map (callAt entityId interface clock) :=
    List.filter_eq_self.mpr (addresses_call_at hentity instants)
  have hknown : policy.findEntity (callAt entityId interface clock instant).entityId =
      some entity := hentity
  rw [rate_step_final_refines hknown]
  show (policy.windowStep (Mealy.final policy.windowStep none
    ((instants.map (callAt entityId interface clock)).filter
      (policy.limiter.addresses (counterKey entityId interface)))) _).1 = _
  rw [hall, Mealy.final_map, window_step_at hentity]
  exact congrArg Prod.fst (congrFun (congrFun (window_step_at hentity) _) instant)

/-- A call of a known entity that is refused is refused for its rate. -/
theorem rate_step_refused_iff {counters : Counters} {call : RateCall}
    (hentity : policy.findEntity call.entityId = some entity) :
    (policy.rateStep counters call).1.isOk = false ↔
      ∃ message, (policy.rateStep counters call).1 =
        .error (.rateLimitExceeded call.entityId message) := by
  simp only [PolicyConfig.rateStep, PolicyConfig.checkRateLimit, hentity, countOperation]
  split
  · simp [Except.isOk, Except.toBool]
  · simp [Except.isOk, Except.toBool]

/-- The granted calls near a reading, seen at the instants of a run of one pair. -/
theorem count_near_at_instants (hentity : policy.findEntity entityId = some entity)
    (instants : List τ) (now : Int) :
    ((policy.rateTrace (instants.map (callAt entityId interface clock))).countP fun entry =>
        entry.2.isOk && decide (|now - entry.1.now| < second)) =
      (Mealy.trace (FixedWindow.step second
        (fun _ => (policy.rateLimit entity interface).toNat) clock) none instants).countP
          fun entry => entry.2 && decide (|now - clock entry.1| < second) := by
  have htrace := congrArg (List.countP fun entry : RateCall × Bool =>
    entry.2 && decide (|now - entry.1.now| < second))
      (@rate_trace_at_instants τ policy entityId interface entity clock hentity instants)
  rw [List.countP_map, List.countP_map] at htrace
  exact htrace

/-- The refusals of a run of one pair are justified when those of its window are. -/
theorem refusals_justified_at_instants (hentity : policy.findEntity entityId = some entity)
    (instants : List τ) :
    policy.RefusalsJustified (instants.map (callAt entityId interface clock)) ↔
      FixedWindow.RefusalsJustified second
        (fun _ => (policy.rateLimit entity interface).toNat) clock instants := by
  constructor
  · intro h before instant after hsplit hrefused
    rw [← rate_step_at_instant hentity, rate_step_refused_iff hentity] at hrefused
    have hjustified := h (before.map (callAt entityId interface clock)) _
      (after.map (callAt entityId interface clock)) (by rw [hsplit, List.map_append, List.map_cons])
      hrefused
    rw [count_near_at_instants hentity, call_limit_of_is_pair hentity (is_pair_call_at instant)]
      at hjustified
    exact hjustified
  · intro h calls call later hsplit hrefused
    obtain ⟨before, rest, hinstants, rfl, hrest⟩ := List.map_eq_append_iff.mp hsplit
    obtain ⟨instant, after, rfl, rfl, rfl⟩ := List.map_eq_cons_iff.mp hrest
    have hknown : policy.findEntity (callAt entityId interface clock instant).entityId =
        some entity := hentity
    rw [← rate_step_refused_iff hknown, rate_step_at_instant hentity] at hrefused
    have hjustified := h before instant after hinstants hrefused
    rw [← count_near_at_instants hentity] at hjustified
    rw [call_limit_of_is_pair hentity (is_pair_call_at instant)]
    exact hjustified

end Pair

/-- For a pair with effective limit `R` and any wall clock: in all runs of calls of the pair, every
refusal is justified by `R` calls granted at readings within one second of it, exactly when `R` is 0
or the clock never falls back by a second or more and, if `R` is above 1, never reads again what it
has skipped by falling back: a second or more after a lower reading and less than a second after the
higher one before it. -/
theorem rate_refusals_justified_iff (policy : PolicyConfig) (entityId interface : String)
    (entity : EntityConfig) (hentity : policy.findEntity entityId = some entity) {τ : Type}
    [LinearOrder τ] (clock : τ → Int) :
    (∀ instants : List τ, instants.Pairwise (· ≤ ·) →
      policy.RefusalsJustified (instants.map (callAt entityId interface clock))) ↔
        (policy.rateLimit entity interface).toNat = 0 ∨
          (FixedWindow.NeverFarBack second clock ∧
            ((policy.rateLimit entity interface).toNat = 1 ∨
              FixedWindow.NoReplay second clock)) := by
  rw [← FixedWindow.refusals_justified_iff second_pos]
  exact forall₂_congr fun instants _ => refusals_justified_at_instants hentity instants

/-- Under a clock that only advances, a refused third call has two granted ones near. -/
theorem rate_refusals_justified_tenant :
    tenantPolicy.RefusalsJustified
      ([0, 1, 2].map (callAt "tenant" "crypto" fun instant : Nat => (instant : Int))) := by
  refine (rate_refusals_justified_iff tenantPolicy "tenant" "crypto" _ rfl _).mpr
    (.inr ⟨fun s t hst => ?_, .inr fun s t u hst _ hdip _ => ?_⟩) [0, 1, 2] (by decide)
  · have hpos := second_pos
    omega
  · omega

/-- The clock is set back by ten seconds after the one call the limit allows, and the next call is
refused although nothing was granted near its reading. -/
theorem refusal_after_clock_set_back :
    tenantPolicy.validate = .ok () ∧
      (tenantPolicy.rateTrace [⟨"tenant", "crypto:hash", 10 * second⟩, ⟨"tenant", "crypto:hash", 0⟩])
        = [(⟨"tenant", "crypto:hash", 10 * second⟩, .ok ()),
          (⟨"tenant", "crypto:hash", 0⟩, .error (.rateLimitExceeded "tenant"
            "1 operations/sec limit exceeded for crypto:hash"))] ∧
      ¬ tenantPolicy.RefusalsJustified
        [⟨"tenant", "crypto:hash", 10 * second⟩, ⟨"tenant", "crypto:hash", 0⟩] := by
  refine ⟨by decide, by decide, fun h => ?_⟩
  have hjustified := h [⟨"tenant", "crypto:hash", 10 * second⟩] ⟨"tenant", "crypto:hash", 0⟩ [] rfl
    ⟨"1 operations/sec limit exceeded for crypto:hash", by decide⟩
  revert hjustified
  decide

end HalEnforcement
