import HalEnforcement.Interleaving
import HalEnforcement.Library.Observation
import HalEnforcement.Library.StoreCount
import HalEnforcement.Operations

/-!
# Interleaved calls as single steps

A client sees a call begin and, some events later, its result. `observeCall` puts the two together
for every call of a run. `completed_calls_linearize` says that the completed calls, in the order in
which they completed, could as well have been made one after the other: the operations of
`Operations`, run on these calls, give the same results and leave the locks with the same contents.
A creation takes effect where it inserts its session, or where it is refused; an `audit` call where
it pushes its event.
-/

namespace HalEnforcement

/-- The calls that have begun and not completed, by task. -/
abbrev OpenCalls := Finmap fun _ : Nat => Call

/-- The call under this task has completed. -/
def OpenCalls.complete (calls : OpenCalls) (task : Nat) (outcome : Outcome) :
    Option (Call × Outcome) × OpenCalls :=
  ((calls.lookup task).map fun call => (call, outcome), calls.erase task)

/-- The call under this task has taken its readings. -/
def OpenCalls.draw (calls : OpenCalls) (task : Nat) (now : Int) (freshId : Uuid) : OpenCalls :=
  match calls.lookup task with
  | some call => calls.insert task { call with now, freshId }
  | none => calls

/-- An observer that reports each call of a run when it completes. It sees what the clients see,
not the state of the service. -/
def observeCall (calls : OpenCalls) : Event × Reply → Option (Call × Outcome) × OpenCalls
  | (.createCall task entityId wasmBytes, .suspended) =>
      -- the readings come with `createResume`; a call that is refused there takes none
      (none, calls.insert task
        { operation := .createSessionWithWasm entityId wasmBytes, now := 0, freshId := ⟨0⟩ })
  | (.createResume task _ now, .drew sessionId) => (none, calls.draw task now sessionId)
  | (.createResume task _ _, .refused error) => calls.complete task (.session (.error error))
  | (.createInsert task, .created session) => calls.complete task (.session (.ok session))
  | (.auditCall task entityId sessionId interface operation success error now, .suspended) =>
      (none, calls.insert task
        { operation := .audit entityId sessionId interface operation success error, now,
          freshId := ⟨0⟩ })
  | (.auditPush task, .audited) => calls.complete task .audited
  | (.getSession sessionId now, .session result) =>
      (some (⟨.getSession sessionId, now, ⟨0⟩⟩, .session result), calls)
  | (.checkRateLimit entityId interface now, .rateLimit result) =>
      (some (⟨.checkRateLimit entityId interface, now, ⟨0⟩⟩, .rateLimit result), calls)
  | (.getAuditLog entityId limit, .auditLog events) =>
      (some (⟨.getAuditLog entityId limit, 0, ⟨0⟩⟩, .auditLog events), calls)
  | (.activeSessionsCount now, .activeSessions count) =>
      (some (⟨.activeSessionsCount, now, ⟨0⟩⟩, .activeSessions count), calls)
  | _ => (none, calls)

/-- The completed calls of a run with their results, in the order of completion. -/
def completedCalls (trace : List (Event × Reply)) : List (Call × Outcome) :=
  Observation.history observeCall ∅ trace

section Runs

variable [Wasmparser] (service : EnforcementService)

/-- The task is what is left of the call. -/
inductive EnforcementService.Tracks : Task → Call → Prop where
  | resolve (call : Call) {entityId : String} {wasmBytes : Option Bytes} :
      call.operation = .createSessionWithWasm entityId wasmBytes →
      EnforcementService.Tracks (.resolve entityId wasmBytes) call
  | insert (call : Call) {entityId : String} {wasmBytes : Option Bytes}
      {caps : CapabilitiesConfig} {source : PolicySource} :
      call.operation = .createSessionWithWasm entityId wasmBytes →
      service.authorize entityId wasmBytes = .ok (caps, source) →
      EnforcementService.Tracks
        (.insert (newSession call.freshId call.now entityId caps source)) call
  | push (call : Call) {entityId : String} {sessionId : Uuid} {interface operation : String}
      {success : Bool} {error : Option String} :
      call.operation = .audit entityId sessionId interface operation success error →
      EnforcementService.Tracks
        (.push (newAuditEvent entityId sessionId interface operation success error call.now)) call

/-- Every task in the world is an open call, and every open call a task. -/
def EnforcementService.TracksAll (world : World) (calls : OpenCalls) : Prop :=
  ∀ task, Option.Rel service.Tracks (world.tasks.lookup task) (calls.lookup task)

variable {service} {world : World} {calls : OpenCalls}

theorem tracks_all_empty : service.TracksAll .empty ∅ := by
  intro task
  simp [World.empty]

theorem tracks_all_insert (h : service.TracksAll world calls) {task : Nat} {pending : Task}
    {call : Call} (htracks : service.Tracks pending call) :
    service.TracksAll (world.setTask task pending) (calls.insert task call) := by
  intro other
  by_cases hother : other = task
  · subst hother
    simp [World.setTask, htracks]
  · simp [World.setTask, Finmap.lookup_insert_of_ne _ hother, h other]

theorem tracks_all_erase (h : service.TracksAll world calls) (task : Nat) (state : ServiceState) :
    service.TracksAll { world.endTask task with state } (calls.erase task) := by
  intro other
  by_cases hother : other = task
  · subst hother
    simp [World.endTask]
  · simp [World.endTask, Finmap.lookup_erase_ne hother, h other]

/-- A task has an open call. -/
theorem open_call_of_task (h : service.TracksAll world calls) {task : Nat} {pending : Task}
    (hpending : world.tasks.lookup task = some pending) :
    ∃ call, calls.lookup task = some call ∧ service.Tracks pending call := by
  have hrel := h task
  rw [hpending] at hrel
  cases hlookup : calls.lookup task with
  | none =>
      rw [hlookup] at hrel
      cases hrel
  | some call =>
      rw [hlookup] at hrel
      cases hrel with
      | some htracks => exact ⟨call, rfl, htracks⟩

omit [Wasmparser] in
theorem complete_of_lookup {task : Nat} {call : Call} (h : calls.lookup task = some call)
    (outcome : Outcome) :
    calls.complete task outcome = (some (call, outcome), calls.erase task) := by
  rw [OpenCalls.complete, h]
  rfl

/-- One event keeps tasks and open calls together. It completes no call and leaves the locks as
they are, or does at once what the call it completes does alone. -/
theorem commits_step (h : service.TracksAll world calls) (event : Event) :
    Observation.Commits service.perform
        (observeCall calls (event, (service.step world event).1)).1 world.state
        (service.step world event).2.state ∧
      service.TracksAll (service.step world event).2
        (observeCall calls (event, (service.step world event).1)).2 := by
  cases event with
  | createCall task entityId wasmBytes =>
      simp only [EnforcementService.step, World.start]
      cases world.tasks.lookup task with
      | some _ => exact ⟨.silent _, h⟩
      | none => exact ⟨.silent _, tracks_all_insert h (.resolve _ rfl)⟩
  | createResume task freshId now =>
      simp only [EnforcementService.step]
      split
      · next entityId wasmBytes hpending =>
          obtain ⟨call, hcall, htracks⟩ := open_call_of_task h hpending
          cases htracks with
          | resolve _ hoperation =>
              cases hauthorize : service.authorize entityId wasmBytes with
              | error error =>
                  simp only [observeCall, complete_of_lookup hcall]
                  refine ⟨.call ?_, tracks_all_erase h task world.state⟩
                  simp [EnforcementService.perform, hoperation,
                    EnforcementService.createSessionWithWasm, hauthorize, World.endTask]
              | ok resolved =>
                  simp only [observeCall, OpenCalls.draw, hcall]
                  refine ⟨.silent _, tracks_all_insert h ?_⟩
                  exact .insert { call with now, freshId } hoperation hauthorize
      · exact ⟨.silent _, h⟩
  | createInsert task =>
      simp only [EnforcementService.step]
      split
      · next session hpending =>
          obtain ⟨call, hcall, htracks⟩ := open_call_of_task h hpending
          simp only [observeCall, complete_of_lookup hcall]
          refine ⟨.call ?_, tracks_all_erase h task _⟩
          cases htracks with
          | insert _ hoperation hauthorize =>
              simp [EnforcementService.perform, hoperation,
                EnforcementService.createSessionWithWasm, hauthorize]
      · exact ⟨.silent _, h⟩
  | getSession sessionId now => exact ⟨.call rfl, h⟩
  | checkRateLimit entityId interface now => exact ⟨.call rfl, h⟩
  | auditCall task entityId sessionId interface operation success error now =>
      simp only [EnforcementService.step, World.start]
      cases world.tasks.lookup task with
      | some _ => exact ⟨.silent _, h⟩
      | none =>
          refine ⟨.silent _, tracks_all_insert h ?_⟩
          exact .push ⟨.audit entityId sessionId interface operation success error, now, ⟨0⟩⟩ rfl
  | auditPush task =>
      simp only [EnforcementService.step]
      split
      · next event hpending =>
          obtain ⟨call, hcall, htracks⟩ := open_call_of_task h hpending
          simp only [observeCall, complete_of_lookup hcall]
          refine ⟨.call ?_, tracks_all_erase h task _⟩
          cases htracks with
          | push _ hoperation => simp [EnforcementService.perform, hoperation]
      · exact ⟨.silent _, h⟩
  | getAuditLog entityId limit => exact ⟨.call rfl, h⟩
  | activeSessionsCount now => exact ⟨.call rfl, h⟩

/-! ## No call is lost or answered twice -/

/-- The operation of a call that begins here and goes on in later events. -/
def begunOperation : Event × Reply → Option Operation
  | (.createCall _ entityId wasmBytes, .suspended) =>
      some (.createSessionWithWasm entityId wasmBytes)
  | (.auditCall _ entityId sessionId interface operation success error _, .suspended) =>
      some (.audit entityId sessionId interface operation success error)
  | _ => none

/-- The operation of a completed call, if it is one that takes several events. -/
def endedOperation (completed : Call × Outcome) : Option Operation :=
  match completed.1.operation with
  | .createSessionWithWasm .. => some completed.1.operation
  | .audit .. => some completed.1.operation
  | _ => none

/-- The operations of the open calls. -/
def OpenCalls.operations (calls : OpenCalls) : Multiset Operation :=
  calls.entries.map fun entry => entry.2.operation

omit [Wasmparser] in
theorem operations_insert {task : Nat} (h : calls.lookup task = none) (call : Call) :
    OpenCalls.operations (calls.insert task call) = call.operation ::ₘ calls.operations := by
  rw [OpenCalls.operations, StoreCount.entries_insert h, Multiset.map_cons]
  rfl

omit [Wasmparser] in
theorem operations_of_lookup {task : Nat} {call : Call} (h : calls.lookup task = some call) :
    calls.operations = call.operation ::ₘ OpenCalls.operations (calls.erase task) := by
  rw [OpenCalls.operations, StoreCount.entries_of_lookup h, Multiset.map_cons]
  rfl

omit [Wasmparser] in
/-- A call keeps its operation when it takes its readings. -/
theorem operations_draw (calls : OpenCalls) (task : Nat) (now : Int) (freshId : Uuid) :
    (calls.draw task now freshId).operations = calls.operations := by
  unfold OpenCalls.draw
  cases hcall : calls.lookup task with
  | none => rfl
  | some call =>
      have herase : ∀ value, (calls.insert task value).erase task = calls.erase task := by
        intro value
        refine Finmap.ext_lookup fun other => ?_
        by_cases hother : other = task
        · rw [hother, Finmap.lookup_erase, Finmap.lookup_erase]
        · rw [Finmap.lookup_erase_ne hother, Finmap.lookup_erase_ne hother,
            Finmap.lookup_insert_of_ne _ hother]
      rw [operations_of_lookup hcall, operations_of_lookup (Finmap.lookup_insert calls), herase]

omit [Wasmparser] in
theorem begin_balance (operations : Multiset Operation) (operation : Operation) :
    operations + ((some operation).toList : Multiset Operation) =
      ((Option.bind none endedOperation).toList : Multiset Operation) +
        operation ::ₘ operations := by
  simp [← Multiset.singleton_add, add_comm]

omit [Wasmparser] in
/-- A call that completes leaves the open calls and is reported. -/
theorem complete_balance {task : Nat} {call : Call} (h : calls.lookup task = some call)
    (outcome : Outcome) (hended : endedOperation (call, outcome) = some call.operation) :
    calls.operations = (((calls.complete task outcome).1.bind endedOperation).toList : Multiset _) +
      OpenCalls.operations (calls.complete task outcome).2 := by
  rw [complete_of_lookup h, operations_of_lookup h, Option.bind_some, hended]
  rfl

/-- The operations of a begun call are those of the open calls and of what it completes. -/
theorem balance_step (h : service.TracksAll world calls) (event : Event) :
    calls.operations +
        ((begunOperation (event, (service.step world event).1)).toList : Multiset Operation) =
      (((observeCall calls (event, (service.step world event).1)).1.bind
          endedOperation).toList : Multiset Operation) +
        OpenCalls.operations (observeCall calls (event, (service.step world event).1)).2 := by
  have hfree : ∀ task, world.tasks.lookup task = none → calls.lookup task = none := by
    intro task hnone
    have hrel := h task
    rw [hnone] at hrel
    cases hrel' : calls.lookup task with
    | none => rfl
    | some call =>
        rw [hrel'] at hrel
        cases hrel
  cases event with
  | createCall task entityId wasmBytes =>
      simp only [EnforcementService.step, World.start]
      cases htask : world.tasks.lookup task with
      | some _ => simp [begunOperation, observeCall]
      | none =>
          rw [begunOperation, observeCall, operations_insert (hfree task htask)]
          exact begin_balance calls.operations _
  | createResume task freshId now =>
      simp only [EnforcementService.step]
      split
      · next entityId wasmBytes hpending =>
          obtain ⟨call, hcall, htracks⟩ := open_call_of_task h hpending
          cases htracks with
          | resolve _ hoperation =>
              cases service.authorize entityId wasmBytes with
              | error error =>
                  simpa [begunOperation, observeCall] using
                    complete_balance hcall _ (by simp [endedOperation, hoperation])
              | ok resolved => simp [begunOperation, observeCall, operations_draw]
      · simp [begunOperation, observeCall]
  | createInsert task =>
      simp only [EnforcementService.step]
      split
      · next session hpending =>
          obtain ⟨call, hcall, htracks⟩ := open_call_of_task h hpending
          cases htracks with
          | insert _ hoperation _ =>
              simpa [begunOperation, observeCall] using
                complete_balance hcall _ (by simp [endedOperation, hoperation])
      · simp [begunOperation, observeCall]
  | auditCall task entityId sessionId interface operation success error now =>
      simp only [EnforcementService.step, World.start]
      cases htask : world.tasks.lookup task with
      | some _ => simp [begunOperation, observeCall]
      | none =>
          rw [begunOperation, observeCall, operations_insert (hfree task htask)]
          exact begin_balance calls.operations _
  | auditPush task =>
      simp only [EnforcementService.step]
      split
      · next event hpending =>
          obtain ⟨call, hcall, htracks⟩ := open_call_of_task h hpending
          cases htracks with
          | push _ hoperation =>
              simpa [begunOperation, observeCall] using
                complete_balance hcall _ (by simp [endedOperation, hoperation])
      · simp [begunOperation, observeCall]
  | getSession | checkRateLimit | getAuditLog | activeSessionsCount =>
      simp [begunOperation, observeCall, EnforcementService.step, endedOperation]

/-- Of the creations and `audit` calls that have begun, each one has completed or is a task that
goes on, and none is both or completes twice. -/
theorem calls_neither_lost_nor_doubled (service : EnforcementService) (events : List Event) :
    let trace := Mealy.trace service.step .empty events
    let openCalls := Mealy.final observeCall ∅ trace
    (trace.filterMap begunOperation : Multiset Operation) =
        ((completedCalls trace).filterMap endedOperation : Multiset Operation) +
          OpenCalls.operations openCalls ∧
      service.TracksAll (Mealy.final service.step .empty events) openCalls := by
  refine ⟨?_, ?_⟩
  · have hbalance := Observation.balance_run begunOperation endedOperation
      OpenCalls.operations tracks_all_empty events
      fun world calls event _ (h : service.TracksAll world calls) =>
        ⟨balance_step h event, (commits_step h event).2⟩
    have hnone : OpenCalls.operations ∅ = 0 := rfl
    rwa [hnone, zero_add] at hbalance
  · exact (Observation.history_run World.state observeCall tracks_all_empty events
      fun _ _ event _ h => commits_step h event).2.2

variable (service)

/-- The completed calls are a run of the operations, and what it leaves in the locks is there. -/
theorem completed_calls_run (events : List Event) :
    completedCalls (Mealy.trace service.step .empty events) =
        Mealy.trace service.perform .empty
          ((completedCalls (Mealy.trace service.step .empty events)).map Prod.fst) ∧
      (Mealy.final service.step .empty events).state =
        Mealy.final service.perform .empty
          ((completedCalls (Mealy.trace service.step .empty events)).map Prod.fst) := by
  have h := Observation.history_run World.state observeCall tracks_all_empty events
    fun world calls event _ (h : service.TracksAll world calls) => commits_step h event
  exact ⟨h.1, h.2.1⟩

/-- At every point of every interleaved run, the completed calls, in the order of completion, are a
run of the operations that gives the same results and leaves the same contents in the locks. A call
that completed before another one began stands before it, as later events only add to the list. -/
theorem completed_calls_linearize (events later : List Event) :
    let completed := completedCalls (Mealy.trace service.step .empty events)
    completed = Mealy.trace service.perform .empty (completed.map Prod.fst) ∧
      (Mealy.final service.step .empty events).state =
        Mealy.final service.perform .empty (completed.map Prod.fst) ∧
      completed <+: completedCalls (Mealy.trace service.step .empty (events ++ later)) := by
  refine ⟨(completed_calls_run service events).1, (completed_calls_run service events).2, ?_⟩
  rw [Mealy.trace_append, completedCalls, completedCalls, Observation.history_append]
  exact List.prefix_append _ _

end Runs

/-- The creation begins first and takes effect last. -/
example : completedCalls (Mealy.trace (@EnforcementService.step sampleParser mixedService) .empty
    [.createCall 0 "sensor" none, .createResume 0 ⟨7⟩ 5, .getSession ⟨7⟩ 6, .createInsert 0]) =
      [(⟨.getSession ⟨7⟩, 6, ⟨0⟩⟩, .session (.error (.session "Session not found"))),
        (⟨.createSessionWithWasm "sensor" none, 5, ⟨7⟩⟩, .session (.ok
          (newSession ⟨7⟩ 5 "sensor" { crypto := true, random := true } .manual)))] := by
  decide

end HalEnforcement
