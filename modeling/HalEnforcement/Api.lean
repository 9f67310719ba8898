import HalEnforcement.Service

/-!
# HTTP handlers

The handlers of `src/api.rs` and the rendering of the errors they fail with. A JSON body is the
record of the values it is built from.
-/

namespace HalEnforcement

/-- `CreateAccessResponse`, with the reading that `expires_at` renders. -/
structure CreateAccessResponse where
  sessionId : Uuid
  grantedCapabilities : List String
  expiresAt : Int
  deriving DecidableEq, Repr

/-- The body of a successful `GET /api/v1/hal/capabilities`. -/
structure CapabilitiesResponse where
  entityId : String
  capabilities : List String
  rateLimits : HashMap String RateLimitConfig
  quotas : HashMap String QuotaConfig
  deriving DecidableEq

/-- `create_hal_access`. -/
def createHalAccess [Wasmparser] (service : EnforcementService) (state : ServiceState)
    (entityId : String) (sessionId : Uuid) (now : Int) :
    Result CreateAccessResponse × ServiceState :=
  match service.createSession state entityId sessionId now with
  | (.error error, state) => (.error error, state)
  | (.ok session, state) =>
      (.ok ⟨session.sessionId, session.grantedCapabilities, session.expiresAt⟩, state)

/-- `get_capabilities`, on the query parameters of the request. -/
def getCapabilities (service : EnforcementService) (params : HashMap String String) :
    Result CapabilitiesResponse := do
  let entityId ← okOrElse (params.lookup "entity_id") (.config "entity_id required")
  let config ← okOrElse (service.getEntityConfig entityId) (.entityNotFound entityId)
  .ok ⟨entityId, config.capabilities.listGranted, config.rateLimits, config.quotas⟩

/-- The status codes of the requests that fail in a handler. Those that `axum` rejects before, with
400, 404, 405, 415 or 422, are not modelled. -/
inductive StatusCode where
  | notFound
  | forbidden
  | tooManyRequests
  | internalServerError
  deriving DecidableEq, Repr

/-- `AppError::into_response`: the status and the text of the body's `error` field. -/
def EnforcementError.intoResponse : EnforcementError → StatusCode × String
  | .entityNotFound entity => (.notFound, entity)
  | .capabilityDenied entity capability => (.forbidden, s!"{capability} denied for {entity}")
  | .rateLimitExceeded entity message => (.tooManyRequests, s!"{entity}: {message}")
  | error => (.internalServerError, error.display)

/-! ## The other endpoints -/

/-- `VERSION`, from `Cargo.toml`. -/
def version : String := "0.1.0"

/-- `CreateAccessRequest`. -/
structure CreateAccessRequest where
  entityId : String
  -- no handler reads it
  sessionId : Option Uuid := none
  deriving DecidableEq, Repr

/-- `default_limit()`. -/
def defaultLimit : Nat := 100

/-- `AuditLogQuery`. -/
structure AuditLogQuery where
  entityId : Option String := none
  limit : Nat := defaultLimit
  deriving DecidableEq, Repr

/-- The body of `GET /health`. -/
structure HealthResponse where
  status : String
  service : String
  version : String
  deriving DecidableEq, Repr

/-- The body of `GET /api/v1/entities`. -/
structure EntitiesResponse where
  entities : List String
  count : Nat
  deriving DecidableEq, Repr

/-- The body of `GET /api/v1/audit`. -/
structure AuditResponse where
  events : List AuditEvent
  count : Nat
  deriving DecidableEq, Repr

/-- The body of `GET /api/v1/stats`. -/
structure StatsResponse where
  activeSessions : Nat
  totalEntities : Nat
  version : String
  deriving DecidableEq, Repr

/-- `health_check`. -/
def healthCheck : HealthResponse := ⟨"healthy", "hal-enforcement-service", version⟩

/-- `list_entities`. -/
def listEntities (service : EnforcementService) : EntitiesResponse :=
  let entities := service.listEntities
  ⟨entities, entities.length⟩

/-- `get_audit_log`. -/
def getAuditLog (state : ServiceState) (query : AuditLogQuery) : AuditResponse :=
  let events := state.getAuditLog query.entityId query.limit
  ⟨events, events.length⟩

/-- `get_stats`. -/
def getStats (service : EnforcementService) (state : ServiceState) (now : Int) : StatsResponse :=
  ⟨state.activeSessionsCount now, service.listEntities.length, version⟩

/-- The body of a response with status 200. -/
inductive Body where
  | health (response : HealthResponse)
  | access (response : CreateAccessResponse)
  | capabilities (response : CapabilitiesResponse)
  | entities (response : EntitiesResponse)
  | audit (response : AuditResponse)
  | stats (response : StatsResponse)
  deriving DecidableEq

/-- A response: status 200 and a body, or the status and the `error` text of a failure. -/
inductive Response where
  | ok (body : Body)
  | failed (status : StatusCode) (error : String)
  deriving DecidableEq

/-- `ApiResult` as a response. -/
def Response.ofResult (result : Result Body) : Response :=
  match result with
  | .ok body => .ok body
  | .error error => .failed error.intoResponse.1 error.intoResponse.2

end HalEnforcement
