import HalEnforcement.Interleaving
import HalEnforcement.Library.Observation
import HalEnforcement.RateLimit.Limiter

/-!
# The rate limiter in the running service

The other modules about the rate limiter run it alone. `rate_limits_in_service` carries what they
say over to interleaved clients: the outcomes of `check_rate_limit` in a run of the whole service
are those of the limiter run on these calls alone, whatever sessions are created, looked up and
counted and whatever is audited or queried in between.
-/

namespace HalEnforcement

/-- The call of `check_rate_limit` an event is. -/
def Event.rateCall : Event → Option RateCall
  | .checkRateLimit entityId interface now => some ⟨entityId, interface, now⟩
  | _ => none

/-- The call of `check_rate_limit` an event is, with its outcome. -/
def rateReply : Event × Reply → Option (RateCall × Result Unit)
  | (.checkRateLimit entityId interface now, .rateLimit result) =>
      some (⟨entityId, interface, now⟩, result)
  | _ => none

section Runs

variable [Wasmparser] (service : EnforcementService)

theorem effect_counters {service : EnforcementService} {world : World} {event : Event}
    (h : event.rateCall = none) :
    (service.step world event).2.state.operationCounters = world.state.operationCounters := by
  cases event with
  | checkRateLimit => cases h
  | createCall | auditCall =>
      simp only [EnforcementService.step, World.start]
      split <;> rfl
  | createResume task freshId now =>
      simp only [EnforcementService.step]
      split
      · split <;> rfl
      · rfl
  | createInsert | auditPush =>
      simp only [EnforcementService.step]
      split <;> rfl
  | getSession | getAuditLog | activeSessionsCount => rfl

/-- An event that is no call of the limiter does not touch the counters, and one that is reads and
writes nothing else. -/
theorem rate_step_commits (world : World) (event : Event) :
    Observation.Commits service.policy.rateStep (rateReply (event, (service.step world event).1))
      world.state.operationCounters (service.step world event).2.state.operationCounters := by
  cases hcall : event.rateCall with
  | none =>
      have hreply : rateReply (event, (service.step world event).1) = none := by
        cases event with
        | checkRateLimit => cases hcall
        | _ => rfl
      rw [hreply, effect_counters hcall]
      exact .silent _
  | some call =>
      cases event with
      | checkRateLimit entityId interface now => exact .call rfl
      | _ => cases hcall

/-- The calls of `check_rate_limit` in an interleaved run are a run of the limiter. -/
theorem rate_calls_run (events : List Event) :
    (Mealy.trace service.step .empty events).filterMap rateReply =
        service.policy.rateTrace (events.filterMap Event.rateCall) ∧
      (Mealy.final service.step .empty events).state.operationCounters =
        Mealy.final service.policy.rateStep ∅ (events.filterMap Event.rateCall) := by
  have hentry : ∀ entry ∈ Mealy.trace service.step .empty events,
      (rateReply entry).map Prod.fst = entry.1.rateCall := by
    refine Mealy.trace_forall (P := fun event reply =>
      (rateReply (event, reply)).map Prod.fst = event.rateCall) (fun world event => ?_) _ events
    cases event <;> rfl
  have hcalls : ((Mealy.trace service.step .empty events).filterMap rateReply).map Prod.fst =
      events.filterMap Event.rateCall := by
    rw [List.map_filterMap, List.filterMap_congr hentry, ← Function.comp_def Event.rateCall,
      ← List.filterMap_map, Mealy.trace_map_fst]
  have hrun := Observation.filterMap_run (fun world : World => world.state.operationCounters)
    .empty events fun world event _ => rate_step_commits service world event
  simp only [hcalls] at hrun
  exact hrun

/-- In every interleaved run the calls of `check_rate_limit` have the outcomes that the limiter
alone gives to these calls, and leave the counters it leaves. -/
theorem rate_limits_in_service (events : List Event) :
    (Mealy.trace service.step .empty events).filterMap rateReply =
        service.policy.rateTrace (events.filterMap Event.rateCall) ∧
      (Mealy.final service.step .empty events).state.operationCounters =
        Mealy.final service.policy.rateStep ∅ (events.filterMap Event.rateCall) :=
  rate_calls_run service events

end Runs

end HalEnforcement
