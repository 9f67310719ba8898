import HalEnforcement.InFlight
import HalEnforcement.RateLimit.Service
import HalEnforcement.Sessions

/-!
# Two schedules of the same calls

Two interleaved runs in which every waiting call has the same events in the same order, and the rate
limiter the same calls, may differ in how the calls overtake each other. `schedules_agree` says that
the creations, the `audit` calls and the calls of the limiter cannot tell, and that the runs leave
the same behind up to the order of the audit log. It says nothing of the lookups and queries, which
may come at other points of the two runs and then see other contents.
-/

namespace HalEnforcement

/-- The event that a step adds to the audit log. -/
def World.pushed (world : World) (event : Event) : Option AuditEvent :=
  match event with
  | .auditPush task =>
      match world.tasks.lookup task with
      | some (.push pushed) => some pushed
      | _ => none
  | _ => none

section Recorded

variable [Wasmparser]

/-- The service, with what each step adds to the audit log written next to the reply. -/
def EnforcementService.recorded (service : EnforcementService) (world : World) (event : Event) :
    (Reply × Option AuditEvent) × World :=
  (((service.step world event).1, world.pushed event), (service.step world event).2)

variable {service : EnforcementService} {world : World}

theorem recorded_trace (service : EnforcementService) (world : World) (events : List Event) :
    (Mealy.trace service.recorded world events).map (Prod.map id Prod.fst) =
      Mealy.trace service.step world events := by
  refine Mealy.trace_map_of_simulation (R := fun left right => left = right) rfl ?_ events
  intro left right event h
  subst h
  exact ⟨rfl, rfl⟩

theorem recorded_final (service : EnforcementService) (world : World) (events : List Event) :
    Mealy.final service.recorded world events = Mealy.final service.step world events := by
  refine Mealy.final_of_simulation (R := fun left right => left = right) rfl ?_ events
  intro left right event h
  subst h
  rfl

/-- What a step adds to the audit log. -/
theorem audit_log_step (world : World) (event : Event) :
    (service.step world event).2.state.auditLog =
      world.state.auditLog ++ (world.pushed event).toList := by
  cases event with
  | createCall | auditCall =>
      simp only [EnforcementService.step, World.start, World.pushed]
      split <;> exact (List.append_nil _).symm
  | createResume task freshId now =>
      simp only [EnforcementService.step, World.pushed]
      split
      · split <;> exact (List.append_nil _).symm
      · exact (List.append_nil _).symm
  | createInsert task =>
      simp only [EnforcementService.step, World.pushed]
      split <;> exact (List.append_nil _).symm
  | auditPush task =>
      simp only [EnforcementService.step, World.pushed]
      cases world.tasks.lookup task with
      | none => exact (List.append_nil _).symm
      | some pending =>
          cases pending with
          | push pushed => rfl
          | resolve | insert => exact (List.append_nil _).symm
  | getSession | checkRateLimit | getAuditLog | activeSessionsCount =>
      exact (List.append_nil _).symm

/-- The audit log lists what the steps of the run have added. -/
theorem audit_log_of_recorded (service : EnforcementService) (events : List Event) :
    (Mealy.final service.step .empty events).state.auditLog =
      (Mealy.trace service.recorded .empty events).filterMap fun entry => entry.2.2 := by
  rw [← recorded_final]
  refine Mealy.trace_induction
    (P := fun (past : List (Event × Reply × Option AuditEvent)) (world : World) =>
      world.state.auditLog = past.filterMap fun entry => entry.2.2) rfl events
      fun past world event _ h => ?_
  show (service.step world event).2.state.auditLog = _
  rw [audit_log_step, h, List.filterMap_append]
  show past.filterMap (fun entry => entry.2.2) ++ _ = past.filterMap (fun entry => entry.2.2) ++
    [(event, (service.step world event).1, world.pushed event)].filterMap fun entry => entry.2.2
  cases world.pushed event <;> simp

/-- An event of no task draws no id, creates no session and pushes nothing. -/
theorem recorded_quiet (service : EnforcementService) (events : List Event) :
    ∀ entry ∈ Mealy.trace service.recorded .empty events, entry.1.task = none →
      entry.2.1.drawnId = none ∧ entry.2.1.createdSession = none ∧ entry.2.2 = none := by
  refine Mealy.trace_forall
    (P := fun (event : Event) (output : Reply × Option AuditEvent) => event.task = none →
      output.1.drawnId = none ∧ output.1.createdSession = none ∧ output.2 = none)
      (fun (world : World) event hnone => ?_) .empty events
  cases event with
  | createCall | createResume | createInsert | auditCall | auditPush => cases hnone
  | getSession | checkRateLimit | getAuditLog | activeSessionsCount => exact ⟨rfl, rfl, rfl⟩

theorem recorded_of_task (service : EnforcementService) (events : List Event) (task : Nat) :
    (Mealy.trace service.recorded .empty events).filter (fun entry => entry.1.isOf task) =
      Mealy.trace service.recorded .empty (events.filter (Event.isOf task)) := by
  refine Observation.purge_run
    (R := fun left right : World => left.tasks.lookup task = right.tasks.lookup task) rfl
    (fun left right event _ h hown => ?_)
    fun left _ _ _ h hother => (step_not_own left hother).trans h
  have hstep : (service.step left event).1 = (service.step right event).1 ∧
      (service.step left event).2.tasks.lookup task =
        (service.step right event).2.tasks.lookup task := step_own h hown
  obtain ⟨hreply, hnext⟩ := hstep
  refine ⟨Prod.ext hreply ?_, hnext⟩
  show left.pushed event = right.pushed event
  cases event with
  | auditPush other =>
      obtain rfl := task_eq_of_own hown rfl
      simp only [World.pushed, h]
  | createCall | createResume | createInsert | getSession | checkRateLimit | auditCall
    | getAuditLog | activeSessionsCount => rfl

end Recorded

section Schedules

variable [Wasmparser] (service : EnforcementService) {events events' : List Event}
  (htasks : ∀ task, events.filter (Event.isOf task) = events'.filter (Event.isOf task))
include htasks

/-- What the steps of the calls show is the same, in some order. -/
theorem recorded_perm {α : Type*} {select : Event × Reply × Option AuditEvent → Option α}
    (hselect : ∀ entry, entry.1.task = none →
      entry.2.1.drawnId = none ∧ entry.2.1.createdSession = none ∧ entry.2.2 = none →
        select entry = none) :
    ((Mealy.trace service.recorded .empty events).filterMap select).Perm
      ((Mealy.trace service.recorded .empty events').filterMap select) := by
  refine Observation.perm_of_filters (fun entry => entry.1.task) (fun task => ?_)
    (fun entry hentry hnone => hselect entry hnone (recorded_quiet service _ entry hentry hnone))
    fun entry hentry hnone => hselect entry hnone (recorded_quiet service _ entry hentry hnone)
  have hleft := recorded_of_task service events task
  have hright := recorded_of_task service events' task
  rw [← htasks task] at hright
  exact hleft.trans hright.symm

/-- Two schedules of the same calls give the same replies to the events of each creation and `audit`
call and the same outcomes to the calls of the limiter, and leave the same sessions, counters and
calls in flight, and the same audit events in some order, when no id is drawn twice. -/
theorem schedules_agree
    (hrates : events.filterMap Event.rateCall = events'.filterMap Event.rateCall)
    (hfresh : (drawnIds (Mealy.trace service.step .empty events)).Nodup) :
    let world := Mealy.final service.step .empty events
    let world' := Mealy.final service.step .empty events'
    (∀ task, (Mealy.trace service.step .empty events).filter (fun entry => entry.1.isOf task) =
        (Mealy.trace service.step .empty events').filter fun entry => entry.1.isOf task) ∧
      (Mealy.trace service.step .empty events).filterMap rateReply =
        (Mealy.trace service.step .empty events').filterMap rateReply ∧
      world.state.sessions = world'.state.sessions ∧
      world.state.operationCounters = world'.state.operationCounters ∧
      world.tasks = world'.tasks ∧
      world.state.auditLog.Perm world'.state.auditLog := by
  intro world world'
  obtain ⟨houtcomes, hcounters⟩ := rate_calls_run service events
  obtain ⟨houtcomes', hcounters'⟩ := rate_calls_run service events'
  refine ⟨fun task => ?_, ?_, ?_, ?_, ?_, ?_⟩
  · rw [trace_of_task, trace_of_task, htasks]
  · rw [houtcomes, houtcomes', hrates]
  · have hdrawn : (drawnIds (Mealy.trace service.step .empty events)).Perm
        (drawnIds (Mealy.trace service.step .empty events')) := by
      rw [← recorded_trace, ← recorded_trace, drawnIds, drawnIds, List.filterMap_map,
        List.filterMap_map]
      exact recorded_perm service htasks fun entry _ hquiet => hquiet.1
    have hcreated : (createdSessions (Mealy.trace service.step .empty events)).Perm
        (createdSessions (Mealy.trace service.step .empty events')) := by
      rw [← recorded_trace, ← recorded_trace, createdSessions, createdSessions,
        List.filterMap_map, List.filterMap_map]
      exact recorded_perm service htasks fun entry _ hquiet => hquiet.2.1
    refine Finmap.ext_lookup fun sessionId => Option.ext fun session => ?_
    have hindexes := indexes_run service hfresh sessionId session
    have hindexes' := indexes_run service (hdrawn.nodup_iff.mp hfresh) sessionId session
    rw [hindexes, hindexes', hcreated.mem_iff]
  · rw [hcounters, hcounters', hrates]
  · exact Finmap.ext_lookup fun task => by
      rw [final_of_task, final_of_task .empty events', htasks]
  · rw [audit_log_of_recorded, audit_log_of_recorded]
    exact recorded_perm service htasks fun entry _ hquiet => hquiet.2.2

end Schedules

/-- Two audits that take their readings in one order. -/
def auditReadings : List Event :=
  [.auditCall 0 "sensor" ⟨7⟩ "crypto" "hash" true none 1,
    .auditCall 1 "sensor" ⟨7⟩ "crypto" "sign" true none 2]

/-- Pushed in the other order, they leave the same events in the log. -/
theorem overtaken_audit_agrees :
    (Mealy.final (@EnforcementService.step sampleParser mixedService) .empty
        (auditReadings ++ [.auditPush 0, .auditPush 1])).state.auditLog.Perm
      (Mealy.final (@EnforcementService.step sampleParser mixedService) .empty
        (auditReadings ++ [.auditPush 1, .auditPush 0])).state.auditLog := by
  refine (@schedules_agree sampleParser mixedService (auditReadings ++ [.auditPush 0, .auditPush 1])
    (auditReadings ++ [.auditPush 1, .auditPush 0]) (fun task => ?_) rfl (by decide)).2.2.2.2.2
  rw [List.filter_append, List.filter_append]
  by_cases hfirst : 0 = task
  · subst hfirst
    rfl
  · simp [List.filter_cons, Event.isOf, Event.task, hfirst]

end HalEnforcement
