import HalEnforcement.Library.GreedyWindows
import HalEnforcement.RateLimit.Limiter

/-!
# The limiter as a fixed-window specification

`rate_trace_eq_windows` gives the outcomes of all calls of a pair from their readings alone: the
calls are partitioned greedily into windows of one second, and of every window the first `R` calls
are granted and the others refused. The pair must be the only one that is called under its key, and
the clock must not step back.
-/

namespace HalEnforcement

/-- The outcome of a call, from whether it is granted. -/
def PolicyConfig.verdict (policy : PolicyConfig) (call : RateCall) (granted : Bool) : Result Unit :=
  if granted then .ok ()
  else .error (.rateLimitExceeded call.entityId
    s!"{policy.callLimit call} operations/sec limit exceeded for {call.interface}")

/-- A counter answers with one of the two verdicts. -/
theorem cell_step_eq_verdict (policy : PolicyConfig) (cell : Option OperationCounter)
    (call : RateCall) :
    (policy.limiter.cellStep cell call).1 =
      policy.verdict call (policy.limiter.cellStep cell call).1.isOk := by
  by_cases hfull : (openCounter cell (policy.callLimit call) call.now).count ≥
      policy.callLimit call
  · simp [Keyed.cellStep, PolicyConfig.limiter, countOperation, hfull, PolicyConfig.verdict,
      Except.isOk, Except.toBool]
  · simp [Keyed.cellStep, PolicyConfig.limiter, countOperation, hfull, PolicyConfig.verdict,
      Except.isOk, Except.toBool]

/-- The run of one counter, with its outcomes, from the run of its window. -/
theorem cell_trace_eq_window_trace (policy : PolicyConfig) (calls : List RateCall) :
    Mealy.trace policy.limiter.cellStep none calls =
      (Mealy.trace policy.windowStep none calls).map fun entry =>
        (entry.1, policy.verdict entry.1 entry.2) := by
  have hverdict := Mealy.trace_forall
    (P := fun call outcome => outcome = policy.verdict call outcome.isOk)
    (cell_step_eq_verdict policy) none calls
  rw [← cell_trace_refines, List.map_map]
  symm
  calc (Mealy.trace policy.limiter.cellStep none calls).map
        ((fun entry => (entry.1, policy.verdict entry.1 entry.2)) ∘ Prod.map id Except.isOk)
      = (Mealy.trace policy.limiter.cellStep none calls).map id := by
        refine List.map_congr_left fun entry hentry => ?_
        exact Prod.ext rfl (hverdict entry hentry).symm
    _ = Mealy.trace policy.limiter.cellStep none calls := List.map_id _

/-- The outcomes of the calls of one window, under a limit. -/
def windowOutcomes (entityId interface : String) (rateLimit : UInt64) (window : List RateCall) :
    List (RateCall × Result Unit) :=
  (window.take rateLimit.toNat).map (fun call => (call, .ok ())) ++
    (window.drop rateLimit.toNat).map fun call =>
      (call, .error (.rateLimitExceeded entityId
        s!"{rateLimit} operations/sec limit exceeded for {interface}"))

/-- The verdicts on the calls of a pair are told apart by their position in the window. -/
theorem map_verdicts_eq_window_outcomes {policy : PolicyConfig} {entityId interface : String}
    {entity : EntityConfig} (hentity : policy.findEntity entityId = some entity)
    {window : List RateCall} (hpair : ∀ call ∈ window, call.isPair entityId interface = true) :
    (FixedWindow.verdicts (policy.rateLimit entity interface).toNat window).map
        (fun entry => (entry.1, policy.verdict entry.1 entry.2)) =
      windowOutcomes entityId interface (policy.rateLimit entity interface) window := by
  rw [FixedWindow.verdicts, windowOutcomes, List.map_append, List.map_map, List.map_map]
  refine congrArg₂ _ rfl (List.map_congr_left fun call hcall => ?_)
  have hcall := hpair call (List.mem_of_mem_drop hcall)
  obtain ⟨hid, hinterface⟩ := is_pair_iff.mp hcall
  simp [PolicyConfig.verdict, call_limit_of_is_pair hentity hcall, hid, hinterface]

/-- While no other pair is called under its key, the calls of a pair are those that address its
counter. -/
theorem addresses_eq_is_pair {policy : PolicyConfig} {entityId interface : String}
    {entity : EntityConfig} (hentity : policy.findEntity entityId = some entity) {call : RateCall}
    (halone : counterKey call.entityId call.interface = counterKey entityId interface →
      call.isPair entityId interface = true) :
    policy.limiter.addresses (counterKey entityId interface) call =
      call.isPair entityId interface := by
  rw [Bool.eq_iff_iff]
  exact ⟨fun h => halone (limiter_addresses_iff.mp h).2, addresses_of_is_pair hentity⟩

/-- While no other pair is called under its key and the clock does not step back, the calls of a
pair are partitioned into windows, and of every window the first `R` are granted and all the others
fail with `RateLimitExceeded`, where `R` is the pair's effective limit. -/
theorem rate_trace_eq_windows (policy : PolicyConfig) (entityId interface : String)
    (entity : EntityConfig) (hentity : policy.findEntity entityId = some entity)
    (calls : List RateCall) (hsorted : ReadingsSorted calls)
    (halone : ∀ call ∈ calls,
      counterKey call.entityId call.interface = counterKey entityId interface →
        call.isPair entityId interface = true) :
    (FixedWindow.windows second RateCall.now
        (calls.filter (RateCall.isPair entityId interface))).flatten =
      calls.filter (RateCall.isPair entityId interface) ∧
    (policy.rateTrace calls).filter (fun entry => entry.1.isPair entityId interface) =
      (FixedWindow.windows second RateCall.now
        (calls.filter (RateCall.isPair entityId interface))).flatMap
          (windowOutcomes entityId interface (policy.rateLimit entity interface)) := by
  have hflatten : (FixedWindow.windows second RateCall.now
      (calls.filter (RateCall.isPair entityId interface))).flatten =
        calls.filter (RateCall.isPair entityId interface) :=
    FixedWindow.windows_flatten (hsorted.filter _)
  refine ⟨hflatten, ?_⟩
  -- seen by the calls of the pair, the run is the run of its counter
  have hfilter : calls.filter (policy.limiter.addresses (counterKey entityId interface)) =
      calls.filter (RateCall.isPair entityId interface) :=
    List.filter_congr fun call hcall => addresses_eq_is_pair hentity (halone call hcall)
  have hentries : (policy.rateTrace calls).filter (fun entry =>
      policy.limiter.addresses (counterKey entityId interface) entry.1) =
        (policy.rateTrace calls).filter fun entry => entry.1.isPair entityId interface := by
    refine List.filter_congr fun entry hentry => ?_
    have hmem : entry.1 ∈ calls := by
      rw [← Mealy.trace_map_fst policy.rateStep ∅ calls]
      exact List.mem_map_of_mem hentry
    exact addresses_eq_is_pair hentity (halone entry.1 hmem)
  have hcell := Keyed.trace_filter_key policy.limiter ∅ (counterKey entityId interface) calls
  rw [← rate_step_eq_limiter_step, Finmap.lookup_empty, hfilter,
    cell_trace_eq_window_trace] at hcell
  have hlimit : ∀ call ∈ calls.filter (RateCall.isPair entityId interface),
      (policy.callLimit call).toNat = (policy.rateLimit entity interface).toNat := by
    intro call hcall
    rw [call_limit_of_is_pair hentity (List.mem_filter.mp hcall).2]
  rw [← hentries, PolicyConfig.rateTrace, hcell, PolicyConfig.windowStep,
    FixedWindow.trace_eq_windows second_pos (hsorted.filter _) hlimit (by simp), List.map_flatMap]
  refine List.flatMap_congr fun window hwindow => ?_
  refine map_verdicts_eq_window_outcomes hentity fun call hcall => ?_
  have hmem : call ∈ calls.filter (RateCall.isPair entityId interface) := by
    rw [← hflatten]
    exact List.mem_flatten_of_mem hwindow hcall
  exact (List.mem_filter.mp hmem).2

/-- Three calls of a pair with limit 1 in two windows, with a call of another pair between them. -/
theorem rate_trace_eq_windows_tenant :
    (tenantPolicy.rateTrace
      [⟨"tenant", "crypto:hash", 5⟩, ⟨"tenant", "crypto", 6⟩,
        ⟨"tenant", "crypto:hash", second + 4⟩, ⟨"tenant", "crypto:hash", second + 5⟩]).filter
          (fun entry => entry.1.isPair "tenant" "crypto:hash") =
      (FixedWindow.windows second RateCall.now
        [⟨"tenant", "crypto:hash", 5⟩, ⟨"tenant", "crypto:hash", second + 4⟩,
          ⟨"tenant", "crypto:hash", second + 5⟩]).flatMap
            (windowOutcomes "tenant" "crypto:hash" 1) :=
  (rate_trace_eq_windows tenantPolicy "tenant" "crypto:hash" _ rfl _
    (by unfold ReadingsSorted; decide) (by decide)).2

end HalEnforcement
