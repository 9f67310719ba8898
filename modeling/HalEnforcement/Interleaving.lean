import HalEnforcement.Admission
import HalEnforcement.Library.Mealy

/-!
# Interleaved clients

The service with any number of calls in flight. `create_session_with_wasm` lets go of its thread at
the analyser and at the sessions lock, and `audit` at the audit lock, after it has read the clock;
each of these calls is a task, in the `World`, from its first event to its last. The other
operations wait for a lock first and are one event. Events come in any order, and one that no task
is ready for is idle.

`step_effect` says once what an event can do. The proofs about runs are case analyses of it.
-/

namespace HalEnforcement

/-- What a call in flight still has to do. -/
inductive Task where
  | resolve (entityId : String) (wasmBytes : Option Bytes)
  | insert (session : Session)
  | push (event : AuditEvent)
  deriving DecidableEq

/-- The locks' contents and the calls in flight. -/
structure World where
  state : ServiceState
  tasks : Finmap fun _ : Nat => Task

/-- A new service, before any call. -/
def World.empty : World where
  state := .empty
  tasks := ∅

/-- One event, with the readings it takes. -/
inductive Event where
  | createCall (task : Nat) (entityId : String) (wasmBytes : Option Bytes)
  | createResume (task : Nat) (freshId : Uuid) (now : Int)
  | createInsert (task : Nat)
  | getSession (sessionId : Uuid) (now : Int)
  | checkRateLimit (entityId interface : String) (now : Int)
  | auditCall (task : Nat) (entityId : String) (sessionId : Uuid) (interface operation : String)
      (success : Bool) (error : Option String) (now : Int)
  | auditPush (task : Nat)
  | getAuditLog (entityId : Option String) (limit : Nat)
  | activeSessionsCount (now : Int)
  deriving DecidableEq

/-- What an event shows: the result of a call, or how far it got. -/
inductive Reply where
  | idle
  | suspended
  | refused (error : EnforcementError)
  | drew (sessionId : Uuid)
  | created (session : Session)
  | session (result : Result Session)
  | rateLimit (result : Result Unit)
  | audited
  | auditLog (events : List AuditEvent)
  | activeSessions (count : Nat)
  deriving DecidableEq

/-- A call starts or goes on. -/
def World.setTask (world : World) (task : Nat) (pending : Task) : World :=
  { world with tasks := world.tasks.insert task pending }

/-- A call is over. -/
def World.endTask (world : World) (task : Nat) : World :=
  { world with tasks := world.tasks.erase task }

/-- A new call, under a task number that is free. -/
def World.start (world : World) (task : Nat) (pending : Task) : Reply × World :=
  match world.tasks.lookup task with
  | some _ => (.idle, world)
  | none => (.suspended, world.setTask task pending)

/-- One event of the service. -/
def EnforcementService.step [Wasmparser] (self : EnforcementService) (world : World)
    (event : Event) : Reply × World :=
  match event with
  | .createCall task entityId wasmBytes => world.start task (.resolve entityId wasmBytes)
  | .createResume task freshId now =>
      match world.tasks.lookup task with
      | some (.resolve entityId wasmBytes) =>
          -- `authorize` reads the policy only, so it is all one whether it ran before or after
          -- the wait
          match self.authorize entityId wasmBytes with
          -- a refused call draws neither an id nor a reading
          | .error error => (.refused error, world.endTask task)
          | .ok (caps, source) =>
              (.drew freshId,
                world.setTask task (.insert (newSession freshId now entityId caps source)))
      | _ => (.idle, world)
  | .createInsert task =>
      match world.tasks.lookup task with
      | some (.insert session) =>
          (.created session, { world.endTask task with state := world.state.insertSession session })
      | _ => (.idle, world)
  | .getSession sessionId now => (.session (world.state.getSession sessionId now), world)
  | .checkRateLimit entityId interface now =>
      let checked := self.checkRateLimit world.state entityId interface now
      (.rateLimit checked.1, { world with state := checked.2 })
  | .auditCall task entityId sessionId interface operation success error now =>
      world.start task (.push
        (newAuditEvent entityId sessionId interface operation success error now))
  | .auditPush task =>
      match world.tasks.lookup task with
      | some (.push event) =>
          (.audited, { world.endTask task with state := world.state.pushAuditEvent event })
      | _ => (.idle, world)
  | .getAuditLog entityId limit => (.auditLog (world.state.getAuditLog entityId limit), world)
  | .activeSessionsCount now => (.activeSessions (world.state.activeSessionsCount now), world)

/-- The id an event drew for a session. -/
def Reply.drawnId : Reply → Option Uuid
  | .drew sessionId => some sessionId
  | _ => none

/-- The session a creation returned. -/
def Reply.createdSession : Reply → Option Session
  | .created made => some made
  | _ => none

/-- The ids drawn in a run, in order. -/
def drawnIds (trace : List (Event × Reply)) : List Uuid :=
  trace.filterMap fun entry => entry.2.drawnId

/-- The sessions that were created in a run, in order. -/
def createdSessions (trace : List (Event × Reply)) : List Session :=
  trace.filterMap fun entry => entry.2.createdSession

/-- What an event can do to the sessions, the audit log and the calls in flight. -/
inductive EnforcementService.Effect [Wasmparser] (self : EnforcementService) (world : World) :
    Event → Reply → World → Prop where
  | quiet {event : Event} {reply : Reply} {state : ServiceState} : reply.drawnId = none →
      reply.createdSession = none → state.sessions = world.state.sessions →
      state.auditLog = world.state.auditLog →
      self.Effect world event reply { world with state }
  | start {event : Event} {task : Nat} {pending : Task} : world.tasks.lookup task = none →
      (∀ session, pending ≠ .insert session) →
      self.Effect world event .suspended (world.setTask task pending)
  | refuse {event : Event} {task : Nat} {error : EnforcementError} :
      self.Effect world event (.refused error) (world.endTask task)
  | draw {task : Nat} {freshId : Uuid} {now : Int} {entityId : String}
      {wasmBytes : Option Bytes} {caps : CapabilitiesConfig} {source : PolicySource} :
      world.tasks.lookup task = some (.resolve entityId wasmBytes) →
      self.authorize entityId wasmBytes = .ok (caps, source) →
      self.Effect world (.createResume task freshId now) (.drew freshId)
        (world.setTask task (.insert (newSession freshId now entityId caps source)))
  | create {task : Nat} {session : Session} :
      world.tasks.lookup task = some (.insert session) →
      self.Effect world (.createInsert task) (.created session)
        { world.endTask task with state := world.state.insertSession session }
  | push {task : Nat} {event : AuditEvent} :
      world.tasks.lookup task = some (.push event) →
      self.Effect world (.auditPush task) .audited
        { world.endTask task with state := world.state.pushAuditEvent event }

section Effect

variable [Wasmparser] {service : EnforcementService} {world : World}

theorem EnforcementService.Effect.idle (event : Event) :
    service.Effect world event .idle world :=
  .quiet rfl rfl rfl rfl

theorem start_effect (event : Event) (task : Nat) {pending : Task}
    (hpending : ∀ session, pending ≠ .insert session) :
    service.Effect world event (world.start task pending).1 (world.start task pending).2 := by
  unfold World.start
  cases hfree : world.tasks.lookup task with
  | some _ => exact .idle event
  | none => exact .start hfree hpending

/-- Every event has one of these effects. -/
theorem step_effect (service : EnforcementService) (world : World) (event : Event) :
    service.Effect world event (service.step world event).1 (service.step world event).2 := by
  cases event with
  | createCall task entityId wasmBytes => exact start_effect _ _ nofun
  | createResume task freshId now =>
      simp only [EnforcementService.step]
      split
      · next entityId wasmBytes hpending =>
          split
          · exact .refuse
          · next caps source hauthorize => exact .draw hpending hauthorize
      · exact .idle _
  | createInsert task =>
      simp only [EnforcementService.step]
      split
      · next session hpending => exact .create hpending
      · exact .idle _
  | getSession sessionId now => exact .quiet rfl rfl rfl rfl
  | checkRateLimit entityId interface now => exact .quiet rfl rfl rfl rfl
  | auditCall task entityId sessionId interface operation success error now =>
      exact start_effect _ _ nofun
  | auditPush task =>
      simp only [EnforcementService.step]
      split
      · next event hpending => exact .push hpending
      · exact .idle _
  | getAuditLog entityId limit => exact .quiet rfl rfl rfl rfl
  | activeSessionsCount now => exact .quiet rfl rfl rfl rfl

end Effect

/-! ## Calls that run alone -/

section Alone

variable [Wasmparser] (service : EnforcementService) {world : World} {task : Nat}

/-- The three events of a creation, one right after the other, are `createSessionWithWasm`. -/
theorem create_alone (hfree : world.tasks.lookup task = none) (entityId : String)
    (wasmBytes : Option Bytes) (sessionId : Uuid) (now : Int) :
    let events : List Event :=
      [.createCall task entityId wasmBytes, .createResume task sessionId now, .createInsert task]
    let outcome := service.createSessionWithWasm world.state entityId wasmBytes sessionId now
    (Mealy.final service.step world events).state = outcome.2 ∧
      createdSessions (Mealy.trace service.step world events) = outcome.1.toOption.toList := by
  simp only [Mealy.final_cons, Mealy.final_nil, Mealy.trace_cons, Mealy.trace_nil,
    EnforcementService.step, World.start, hfree, World.setTask, Finmap.lookup_insert,
    EnforcementService.createSessionWithWasm]
  cases service.authorize entityId wasmBytes with
  | error error => simp [World.endTask, createdSessions, Reply.createdSession, Except.toOption]
  | ok resolved => simp [World.endTask, createdSessions, Reply.createdSession, Except.toOption]

/-- The two events of an `audit` call, one right after the other. -/
theorem audit_alone (hfree : world.tasks.lookup task = none) (entityId : String)
    (sessionId : Uuid) (interface operation : String) (success : Bool) (error : Option String)
    (now : Int) :
    (Mealy.final service.step world
      [.auditCall task entityId sessionId interface operation success error now,
        .auditPush task]).state =
      world.state.pushAuditEvent
        (newAuditEvent entityId sessionId interface operation success error now) := by
  simp [EnforcementService.step, World.start, hfree, World.setTask]

end Alone

end HalEnforcement
