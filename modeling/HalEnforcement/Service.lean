import HalEnforcement.Analyzer
import HalEnforcement.Clock
import Mathlib.Data.Finmap

/-!
# Enforcement service

The operations of `src/service.rs`. An `EnforcementService` is the part that never changes after
construction, the validated policy and the analyser; a `ServiceState` is what the three locks
protect. An operation takes the state it finds and the readings of `Utc::now()` and
`Uuid::new_v4()` it makes, and gives its result with the state it leaves.

The body of `create_session_with_wasm` is cut where the source suspends: `authorize` up to the
draw of the session id, `newSession`, and `insertSession` under the write lock. `audit` is cut
into `newAuditEvent` and `pushAuditEvent` in the same way.
-/

namespace HalEnforcement

/-- `uuid::Uuid`. -/
structure Uuid where
  bits : BitVec 128
  deriving DecidableEq, Repr

/-- `PolicySource`. -/
inductive PolicySource where
  | manual
  | auto (model : String)
  deriving DecidableEq, Repr

/-- `Session`. -/
structure Session where
  sessionId : Uuid
  entityId : String
  grantedCapabilities : List String
  policySource : PolicySource
  createdAt : Int
  expiresAt : Int
  operationCount : UInt64
  deriving DecidableEq, Repr

/-- `AuditEvent`. -/
structure AuditEvent where
  timestamp : Int
  entityId : String
  sessionId : Uuid
  interface : String
  operation : String
  success : Bool
  error : Option String
  deriving DecidableEq, Repr

/-- `OperationCounter`. -/
structure OperationCounter where
  count : UInt64
  lastReset : Int
  rateLimit : UInt64
  deriving DecidableEq, Repr

/-- The map behind `operation_counters`. -/
abbrev Counters := Finmap fun _ : String => OperationCounter

/-- The fixed part of `EnforcementService`. `EnforcementService::new` is its only constructor, so
the policy has passed validation. -/
structure EnforcementService where
  policy : PolicyConfig
  analyzer : LlmAnalyzer
  validated : policy.validate = .ok ()

/-- The contents of the locks of `EnforcementService`. -/
structure ServiceState where
  sessions : Finmap fun _ : Uuid => Session
  auditLog : List AuditEvent
  operationCounters : Counters

/-- The locks' contents after `EnforcementService::new`. -/
def ServiceState.empty : ServiceState where
  sessions := ∅
  auditLog := []
  operationCounters := ∅

/-- `EnforcementService::new`. -/
def EnforcementService.new (policy : PolicyConfig) : Result EnforcementService :=
  match h : policy.validate with
  | .error error => .error error
  | .ok () => .ok ⟨policy, mockAnalyzer, h⟩

/-- `EnforcementService::with_analyzer`. -/
def EnforcementService.withAnalyzer (self : EnforcementService) (analyzer : LlmAnalyzer) :
    EnforcementService :=
  { self with analyzer }

theorem EnforcementService.well_formed (self : EnforcementService) : self.policy.WellFormed :=
  (validate_ok_iff _).mp self.validated

/-! ## Sessions -/

/-- `resolve_capabilities`. -/
def EnforcementService.resolveCapabilities (self : EnforcementService) (entityId : String)
    (wasmBytes : Option Bytes) : Result (CapabilitiesConfig × PolicySource) := do
  let entity ← okOrElse (self.policy.findEntity entityId) (.entityNotFound entityId)
  match entity.mode with
  | .manual => .ok (entity.capabilities, .manual)
  | .auto model => do
      let bytes ← okOrElse wasmBytes
        (.policy s!"entity '{entityId}' is in auto mode but no WASM bytes were supplied")
      let caps ← self.analyzer model bytes
      .ok (caps, .auto model)

/-- `create_session_with_wasm` up to the draw of the session id. -/
def EnforcementService.authorize [Wasmparser] (self : EnforcementService) (entityId : String)
    (wasmBytes : Option Bytes) : Result (CapabilitiesConfig × PolicySource) := do
  -- looked up again in `resolveCapabilities`
  let _entity ← okOrElse (self.policy.findEntity entityId) (.entityNotFound entityId)
  let (caps, source) ← self.resolveCapabilities entityId wasmBytes
  match wasmBytes with
  | none => .ok (caps, source)
  | some bytes => do
      let _checked ← checkWorkload bytes caps
      .ok (caps, source)

/-- The session `create_session_with_wasm` builds. -/
def newSession (sessionId : Uuid) (now : Int) (entityId : String) (caps : CapabilitiesConfig)
    (source : PolicySource) : Session where
  sessionId
  entityId
  grantedCapabilities := caps.listGranted
  policySource := source
  createdAt := now
  expiresAt := now + hours 24
  operationCount := 0

/-- `self.sessions.write().await.insert(session_id, session)`. -/
def ServiceState.insertSession (state : ServiceState) (session : Session) : ServiceState :=
  { state with sessions := state.sessions.insert session.sessionId session }

/-- `create_session_with_wasm`. -/
def EnforcementService.createSessionWithWasm [Wasmparser] (self : EnforcementService)
    (state : ServiceState) (entityId : String) (wasmBytes : Option Bytes) (sessionId : Uuid)
    (now : Int) : Result Session × ServiceState :=
  match self.authorize entityId wasmBytes with
  | .error error => (.error error, state)
  | .ok (caps, source) =>
      let session := newSession sessionId now entityId caps source
      (.ok session, state.insertSession session)

/-- `create_session`. -/
def EnforcementService.createSession [Wasmparser] (self : EnforcementService)
    (state : ServiceState) (entityId : String) (sessionId : Uuid) (now : Int) :
    Result Session × ServiceState :=
  self.createSessionWithWasm state entityId none sessionId now

/-- `get_session`. -/
def ServiceState.getSession (state : ServiceState) (sessionId : Uuid) (now : Int) :
    Result Session := do
  let session ← okOrElse (state.sessions.lookup sessionId) (.session "Session not found")
  -- a session is still valid at the very reading it expires
  if now > session.expiresAt then .error (.session "Session expired") else .ok session

/-- `active_sessions_count`. -/
def ServiceState.activeSessionsCount (state : ServiceState) (now : Int) : Nat :=
  (state.sessions.entries.filter fun entry => entry.2.expiresAt > now).card

/-- `has_capability`. -/
def EnforcementService.hasCapability (self : EnforcementService) (entityId capability : String) :
    Result Bool := do
  let entity ← okOrElse (self.policy.findEntity entityId) (.entityNotFound entityId)
  match entity.mode with
  | .manual => .ok (entity.capabilities.hasCapability capability)
  | .auto _ =>
      .error (.policy s!"entity '{entityId}' is in auto mode; capabilities are per-session")

/-- `list_entities`. -/
def EnforcementService.listEntities (self : EnforcementService) : List String :=
  self.policy.entities.map EntityConfig.id

/-- `get_entity_config`. -/
def EnforcementService.getEntityConfig (self : EnforcementService) (entityId : String) :
    Option EntityConfig :=
  self.policy.findEntity entityId

/-! ## Rate limiting -/

/-- `format!("{}:{}", entity_id, interface)`. -/
def counterKey (entityId interface : String) : String := s!"{entityId}:{interface}"

/-- The limit `check_rate_limit` picks: the one configured for the interface, or the default. -/
def PolicyConfig.rateLimit (policy : PolicyConfig) (entity : EntityConfig) (interface : String) :
    UInt64 :=
  match entity.rateLimits.lookup interface with
  | some limitConfig => limitConfig.operationsPerSecond
  | none => policy.settings.defaultRateLimit

/-- The counter after `entry(key).or_insert(..)` and the reset of a window a second old. -/
def openCounter (cell : Option OperationCounter) (rateLimit : UInt64) (now : Int) :
    OperationCounter :=
  -- the stored limit is that of the call that inserted the counter; nothing reads it
  let counter := cell.getD { count := 0, lastReset := now, rateLimit }
  if numSeconds (now - counter.lastReset) ≥ 1 then { counter with count := 0, lastReset := now }
  else counter

/-- The critical section of `check_rate_limit` on the counter of its key. `count += 1` is the
wrapping addition of a release build. -/
def countOperation (cell : Option OperationCounter) (entityId interface : String)
    (rateLimit : UInt64) (now : Int) : Result Unit × OperationCounter :=
  let counter := openCounter cell rateLimit now
  if counter.count ≥ rateLimit then
    (.error (.rateLimitExceeded entityId
      s!"{rateLimit} operations/sec limit exceeded for {interface}"), counter)
  else (.ok (), { counter with count := counter.count + 1 })

/-- `check_rate_limit`. -/
def PolicyConfig.checkRateLimit (policy : PolicyConfig) (counters : Counters)
    (entityId interface : String) (now : Int) : Result Unit × Counters :=
  match policy.findEntity entityId with
  | none => (.error (.entityNotFound entityId), counters)
  | some entity =>
      let key := counterKey entityId interface
      let counted := countOperation (counters.lookup key) entityId interface
        (policy.rateLimit entity interface) now
      (counted.1, counters.insert key counted.2)

/-- `check_rate_limit` on the service's own counters. -/
def EnforcementService.checkRateLimit (self : EnforcementService) (state : ServiceState)
    (entityId interface : String) (now : Int) : Result Unit × ServiceState :=
  let checked := self.policy.checkRateLimit state.operationCounters entityId interface now
  (checked.1, { state with operationCounters := checked.2 })

/-! ## Audit log -/

/-- The event `audit` builds, with the reading it takes before it asks for the lock. -/
def newAuditEvent (entityId : String) (sessionId : Uuid) (interface operation : String)
    (success : Bool) (error : Option String) (now : Int) : AuditEvent where
  timestamp := now
  entityId
  sessionId
  interface
  operation
  success
  error

/-- `self.audit_log.write().await.push(event)`. -/
def ServiceState.pushAuditEvent (state : ServiceState) (event : AuditEvent) : ServiceState :=
  { state with auditLog := state.auditLog ++ [event] }

/-- The events of the log a query asks for. -/
def matchingEvents (log : List AuditEvent) (entityId : Option String) : List AuditEvent :=
  match entityId with
  | some id => log.filter fun event => decide (event.entityId = id)
  | none => log

/-- `get_audit_log`. -/
def ServiceState.getAuditLog (state : ServiceState) (entityId : Option String) (limit : Nat) :
    List AuditEvent :=
  (matchingEvents state.auditLog entityId).reverse.take limit

end HalEnforcement
