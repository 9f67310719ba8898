import HalEnforcement.Interleaving
import HalEnforcement.Library.AppendLog
import HalEnforcement.Operations

/-!
# The order of the audit log

`audit` reads the clock before it asks for the log's lock, so that a call that read an earlier time
can append behind one that read a later time. `queries_newest_first_iff` says that this is the only
thing that keeps `get_audit_log` from returning the newest events first.
-/

namespace HalEnforcement

/-- Whatever is asked of the audit log, the newest events come first. -/
def ServiceState.NewestFirst (state : ServiceState) : Prop :=
  ∀ entityId limit, AppendLog.NewestFirst AuditEvent.timestamp
    (matchingEvents state.auditLog entityId) (state.getAuditLog entityId limit)

/-- An event appended here is not behind the ones in the log. -/
def World.PushesInOrder (world : World) (event : Event) : Prop :=
  ∀ task pending, event = .auditPush task → world.tasks.lookup task = some (.push pending) →
    ∀ earlier ∈ world.state.auditLog, earlier.timestamp ≤ pending.timestamp

/-- The clock reading an event takes. -/
def Event.reading : Event → Option Int
  | .createResume _ _ now => some now
  | .getSession _ now => some now
  | .checkRateLimit _ _ now => some now
  | .auditCall _ _ _ _ _ _ _ now => some now
  | .activeSessionsCount now => some now
  | _ => none

theorem newest_first_iff_chronological (state : ServiceState) :
    state.NewestFirst ↔ AppendLog.Chronological AuditEvent.timestamp state.auditLog := by
  constructor
  · exact fun h => AppendLog.newest_first_iff.mp fun limit => h none limit
  · intro h entityId limit
    cases entityId with
    | none => exact AppendLog.newest_first_of_chronological h limit
    | some id => exact AppendLog.newest_first_of_chronological (h.filter _) limit

section Runs

variable [Wasmparser] {service : EnforcementService}

theorem EnforcementService.Effect.auditLog {world next : World} {event : Event} {reply : Reply}
    (h : service.Effect world event reply next) (hevent : ∀ task, event ≠ .auditPush task) :
    next.state.auditLog = world.state.auditLog := by
  cases h with
  | quiet _ _ _ hlog => exact hlog
  | start | refuse | draw | create => rfl
  | @push task _ _ => exact absurd rfl (hevent task)

/-- One event keeps the log chronological when it pushes in order, and only then. -/
theorem chronological_step (world : World) (event : Event) :
    AppendLog.Chronological AuditEvent.timestamp (service.step world event).2.state.auditLog ↔
      AppendLog.Chronological AuditEvent.timestamp world.state.auditLog ∧
        world.PushesInOrder event := by
  by_cases hpush : ∃ task pending, event = .auditPush task ∧
      world.tasks.lookup task = some (.push pending)
  · obtain ⟨task, pending, rfl, hpending⟩ := hpush
    simp only [EnforcementService.step, hpending, ServiceState.pushAuditEvent,
      AppendLog.chronological_concat, World.PushesInOrder, Event.auditPush.injEq]
    refine and_congr_right fun _ => ⟨?_, fun h => h task pending rfl hpending⟩
    rintro h _ other rfl hother
    rw [hpending] at hother
    cases hother
    exact h
  · -- nothing is pushed, and the log stays as it is
    have horder : world.PushesInOrder event := fun task pending hevent hpending =>
      absurd ⟨task, pending, hevent, hpending⟩ hpush
    have hlog : (service.step world event).2.state.auditLog = world.state.auditLog := by
      by_cases hevent : ∃ task, event = .auditPush task
      · obtain ⟨task, rfl⟩ := hevent
        simp only [EnforcementService.step]
        split
        · next pending hpending => exact absurd ⟨task, pending, rfl, hpending⟩ hpush
        · rfl
      · exact (step_effect service world event).auditLog
          fun task heq => hevent ⟨task, heq⟩
    rw [hlog]
    exact (and_iff_left horder).symm

/-- The log after a run is chronological when all pushes were in order. -/
theorem chronological_run (events : List Event) :
    AppendLog.Chronological AuditEvent.timestamp
        (Mealy.final service.step .empty events).state.auditLog ↔
      Mealy.Along service.step World.PushesInOrder .empty events := by
  rw [Mealy.final_iff_along (P := fun world : World =>
    AppendLog.Chronological AuditEvent.timestamp world.state.auditLog) chronological_step]
  exact and_iff_right List.Pairwise.nil

/-- At every point of a run every query is newest first, exactly when no event was pushed behind one
with a later timestamp. -/
theorem queries_newest_first_iff (service : EnforcementService) (events : List Event) :
    (∀ earlier later, events = earlier ++ later →
      (Mealy.final service.step .empty earlier).state.NewestFirst) ↔
        Mealy.Along service.step World.PushesInOrder .empty events := by
  simp only [newest_first_iff_chronological, chronological_run]
  constructor
  · exact fun h => h events [] (List.append_nil events).symm
  · rintro h earlier later rfl
    exact ((Mealy.along_append _ earlier later).mp h).1

end Runs

/-- Two `audit` calls of one client. The first reads the clock at 1 and appends last. -/
def overtakenCalls : List Event :=
  [.auditCall 0 "sensor" ⟨7⟩ "crypto" "hash" true none 1,
    .auditCall 1 "sensor" ⟨7⟩ "crypto" "sign" true none 2, .auditPush 1, .auditPush 0]

/-- The clock does not step back, and the query returns the older event first. -/
theorem overtaken_calls_not_newest_first :
    (overtakenCalls.filterMap Event.reading).Pairwise (· ≤ ·) ∧
      ¬ (Mealy.final (@EnforcementService.step sampleParser mixedService) .empty
        overtakenCalls).state.NewestFirst := by
  refine ⟨by decide, fun h => ?_⟩
  have hquery := (h (some "sensor") 10).1
  revert hquery
  decide

end HalEnforcement
