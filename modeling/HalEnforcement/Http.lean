import HalEnforcement.Api
import HalEnforcement.Library.StoreCount
import HalEnforcement.Sessions

/-!
# The HTTP front end

The router of `src/api.rs` in front of the service, with any number of connections. A request for
access takes the three events of a creation without bytes; the other handlers wait for a lock first
or need none, and are one event. `serve` answers an event with the response it sends, if it sends
one.

A request that the router or an extractor of `axum` rejects, because of its path, method, body or
query string, is answered before a handler sees it and is no event here.

The results say what a client of the HTTP API can see in any interleaving. Each response is about
the entity that the request it answers names (`http_responses`); the API never writes the audit log
and never asks the rate limiter (`http_leaves_no_trail`), and counts as active the sessions it has
handed out that have not expired (`http_stats_count_access`).
-/

namespace HalEnforcement

/-- One event of the server: a request that has reached its handler, or the next part of one for
access. -/
inductive HttpEvent where
  | health
  | access (task : Nat) (request : CreateAccessRequest)
  | accessResume (task : Nat) (freshId : Uuid) (now : Int)
  | accessInsert (task : Nat)
  | capabilities (params : HashMap String String)
  | entities
  | audit (query : AuditLogQuery)
  | stats (now : Int)
  deriving DecidableEq

/-- What `create_hal_access` tells of a session. -/
def Session.access (session : Session) : CreateAccessResponse :=
  ⟨session.sessionId, session.grantedCapabilities, session.expiresAt⟩

/-- The response of `create_hal_access` to what its call of the service shows. -/
def Reply.accessResponse : Reply → Option Response
  | .refused error => some (.ofResult (.error error))
  | .created made => some (.ok (.access made.access))
  | _ => none

/-- One event of the server, with the response it sends. -/
def EnforcementService.serve [Wasmparser] (self : EnforcementService) (world : World)
    (event : HttpEvent) : Option Response × World :=
  match event with
  | .health => (some (.ok (.health healthCheck)), world)
  | .access task request =>
      (self.step world (.createCall task request.entityId none)).map Reply.accessResponse id
  | .accessResume task freshId now =>
      (self.step world (.createResume task freshId now)).map Reply.accessResponse id
  | .accessInsert task => (self.step world (.createInsert task)).map Reply.accessResponse id
  | .capabilities params =>
      (some (.ofResult ((getCapabilities self params).map .capabilities)), world)
  | .entities => (some (.ok (.entities (HalEnforcement.listEntities self))), world)
  | .audit query => (some (.ok (.audit (getAuditLog world.state query))), world)
  | .stats now => (some (.ok (.stats (getStats self world.state now))), world)

/-- The access a response hands out. -/
def Response.handedOut : Response → Option CreateAccessResponse
  | .ok (.access response) => some response
  | _ => none

/-- The accesses handed out in a run, in order. -/
def accessResponses (trace : List (HttpEvent × Option Response)) : List CreateAccessResponse :=
  trace.filterMap fun entry => entry.2.bind Response.handedOut

/-! ## Requests for access in flight -/

/-- How far a request for access has come: it has been read, or its id and its reading have been
drawn. -/
inductive Access where
  | asked (request : CreateAccessRequest)
  | drew (request : CreateAccessRequest) (freshId : Uuid) (now : Int)
  deriving DecidableEq

/-- The request goes on with these readings. -/
def Access.draw (freshId : Uuid) (now : Int) : Access → Access
  | .asked request => .drew request freshId now
  | access => access

/-- What an event and its response, if any, do to the request that a task is at. -/
def Access.advance (task : Nat) (access : Option Access) (entry : HttpEvent × Option Response) :
    Option Access :=
  match entry with
  | (.access other request, _) =>
      -- a task that is at a request takes no other
      if other = task then access <|> some (.asked request) else access
  | (.accessResume other freshId now, none) =>
      if other = task then access.map (Access.draw freshId now) else access
  | (.accessResume other _ _, some _) => if other = task then none else access
  | (.accessInsert other, some _) => if other = task then none else access
  | _ => access

/-- The task of an event, if it is one of a request for access. -/
def HttpEvent.task : HttpEvent → Option Nat
  | .access task _ => some task
  | .accessResume task _ _ => some task
  | .accessInsert task => some task
  | _ => none

/-- An event leaves the requests of other tasks where they are. -/
theorem advance_of_ne {task : Nat} {event : HttpEvent} (h : event.task ≠ some task)
    (access : Option Access) (response : Option Response) :
    Access.advance task access (event, response) = access := by
  cases event with
  | access other request => exact if_neg fun heq => h (congrArg some heq)
  | accessResume other freshId now =>
      cases response with
      | none => exact if_neg fun heq => h (congrArg some heq)
      | some _ => exact if_neg fun heq => h (congrArg some heq)
  | accessInsert other =>
      cases response with
      | none => rfl
      | some _ => exact if_neg fun heq => h (congrArg some heq)
  | health | capabilities | entities | audit | stats => rfl

/-- The request that a task is at after this history, if it is at one. -/
def openAccess (past : List (HttpEvent × Option Response)) (task : Nat) : Option Access :=
  past.foldl (Access.advance task) none

theorem open_access_append (past : List (HttpEvent × Option Response))
    (entry : HttpEvent × Option Response) (task : Nat) :
    openAccess (past ++ [entry]) task = Access.advance task (openAccess past task) entry := by
  rw [openAccess, openAccess, List.foldl_append]
  rfl

/-- The policy lists the entity under this id. -/
def EnforcementService.Lists (service : EnforcementService) (entityId : String)
    (entity : EntityConfig) : Prop :=
  entity ∈ service.policy.entities ∧ entity.id = entityId

/-- What the task of a request has to do next. -/
inductive EnforcementService.Stands (service : EnforcementService) :
    Option Access → Option Task → Prop where
  | idle : service.Stands none none
  | asked (request : CreateAccessRequest) :
      service.Stands (some (.asked request)) (some (.resolve request.entityId none))
  | drew {request : CreateAccessRequest} {entity : EntityConfig} (freshId : Uuid) (now : Int) :
      service.Lists request.entityId entity → entity.mode = .manual →
      service.Stands (some (.drew request freshId now))
        (some (.insert (newSession freshId now request.entityId entity.capabilities .manual)))

/-- What the requests of a history leave in the world: nothing logged, nothing counted, and the
tasks where their requests are. -/
structure EnforcementService.FromHttp (service : EnforcementService)
    (past : List (HttpEvent × Option Response)) (world : World) : Prop where
  auditLog : world.state.auditLog = []
  counters : world.state.operationCounters = ∅
  tasks : ∀ task, service.Stands (openAccess past task) (world.tasks.lookup task)

/-! ## Responses -/

/-- The response to an event after this history. A response to a request for access is about the
entity that the request of the task names, with the id and the reading drawn for it; one to a
request for capabilities is about the entity in its parameter. -/
inductive EnforcementService.Answers (service : EnforcementService)
    (past : List (HttpEvent × Option Response)) : HttpEvent → Option Response → Prop where
  | health : service.Answers past .health
      (some (.ok (.health ⟨"healthy", "hal-enforcement-service", "0.1.0"⟩)))
  | access {task : Nat} {req : CreateAccessRequest} :
      service.Answers past (.access task req) none
  | unlisted {task : Nat} {freshId : Uuid} {now : Int} {req : CreateAccessRequest} :
      openAccess past task = some (.asked req) →
      (∀ entity, ¬ service.Lists req.entityId entity) →
      service.Answers past (.accessResume task freshId now)
        (some (.failed .notFound req.entityId))
  | autoMode {task : Nat} {freshId : Uuid} {now : Int} {req : CreateAccessRequest}
      {entity : EntityConfig} {model : String} :
      openAccess past task = some (.asked req) → service.Lists req.entityId entity →
      entity.mode = .auto model →
      service.Answers past (.accessResume task freshId now) (some (.failed .internalServerError
      s!"Policy error: entity '{req.entityId}' is in auto mode but no WASM bytes were supplied"))
  | drew {task : Nat} {freshId : Uuid} {now : Int} {req : CreateAccessRequest}
      {entity : EntityConfig} :
      openAccess past task = some (.asked req) → service.Lists req.entityId entity →
      entity.mode = .manual →
      service.Answers past (.accessResume task freshId now) none
  | granted {task : Nat} {freshId : Uuid} {now : Int} {req : CreateAccessRequest}
      {entity : EntityConfig} :
      openAccess past task = some (.drew req freshId now) →
      service.Lists req.entityId entity → entity.mode = .manual →
      service.Answers past (.accessInsert task) (some (.ok (.access
        ⟨freshId, entity.capabilities.listGranted, now + 86400000000000⟩)))
  | notAsked {task : Nat} {freshId : Uuid} {now : Int} :
      (∀ req, openAccess past task ≠ some (.asked req)) →
      service.Answers past (.accessResume task freshId now) none
  | notDrawn {task : Nat} :
      (∀ req freshId now, openAccess past task ≠ some (.drew req freshId now)) →
      service.Answers past (.accessInsert task) none
  | missingParameter {params : HashMap String String} : params.lookup "entity_id" = none →
      service.Answers past (.capabilities params)
        (some (.failed .internalServerError "Configuration error: entity_id required"))
  | unlistedParameter {params : HashMap String String} {entityId : String} :
      params.lookup "entity_id" = some entityId → (∀ entity, ¬ service.Lists entityId entity) →
      service.Answers past (.capabilities params) (some (.failed .notFound entityId))
  | capabilities {params : HashMap String String} {entityId : String} {entity : EntityConfig} :
      params.lookup "entity_id" = some entityId → service.Lists entityId entity →
      service.Answers past (.capabilities params) (some (.ok (.capabilities
        ⟨entityId, entity.capabilities.listGranted, entity.rateLimits, entity.quotas⟩)))
  | entities : service.Answers past .entities (some (.ok (.entities
      ⟨service.policy.entities.map EntityConfig.id, service.policy.entities.length⟩)))
  | audit {query : AuditLogQuery} :
      service.Answers past (.audit query) (some (.ok (.audit ⟨[], 0⟩)))
  | stats {now : Int} {activeSessions : Nat} : service.Answers past (.stats now)
      (some (.ok (.stats ⟨activeSessions, service.policy.entities.length, "0.1.0"⟩)))

section Flight

variable {service : EnforcementService} {past : List (HttpEvent × Option Response)}
  {world : World}

theorem lists_of_find_entity {entityId : String} {entity : EntityConfig}
    (h : service.policy.findEntity entityId = some entity) : service.Lists entityId entity :=
  mem_of_find_entity h

theorem not_lists_of_find_entity {entityId : String}
    (h : service.policy.findEntity entityId = none) (entity : EntityConfig) :
    ¬ service.Lists entityId entity := by
  intro hlists
  rw [(find_entity_eq_some_iff service.well_formed).mpr hlists] at h
  cases h

theorem from_http_empty (service : EnforcementService) : service.FromHttp [] .empty where
  auditLog := rfl
  counters := rfl
  tasks task := by
    rw [World.empty, Finmap.lookup_empty]
    exact .idle

/-- The three places a request can be at, with what its task holds there. -/
theorem stands_cases (h : service.FromHttp past world) (task : Nat) :
    (openAccess past task = none ∧ world.tasks.lookup task = none) ∨
      (∃ request, openAccess past task = some (.asked request) ∧
        world.tasks.lookup task = some (.resolve request.entityId none)) ∨
      ∃ request freshId now entity, openAccess past task = some (.drew request freshId now) ∧
        service.Lists request.entityId entity ∧ entity.mode = .manual ∧
        world.tasks.lookup task = some (.insert
          (newSession freshId now request.entityId entity.capabilities .manual)) := by
  have hstands := h.tasks task
  generalize openAccess past task = access at hstands ⊢
  generalize world.tasks.lookup task = pending at hstands ⊢
  cases hstands with
  | idle => exact .inl ⟨rfl, rfl⟩
  | asked request => exact .inr (.inl ⟨request, rfl, rfl⟩)
  | drew freshId now hlists hmanual =>
      exact .inr (.inr ⟨_, freshId, now, _, rfl, hlists, hmanual, rfl⟩)

/-- An event that changes neither the world nor a request. -/
theorem from_http_quiet (h : service.FromHttp past world) {entry : HttpEvent × Option Response}
    (hentry : ∀ task, Access.advance task (openAccess past task) entry = openAccess past task) :
    service.FromHttp (past ++ [entry]) world where
  auditLog := h.auditLog
  counters := h.counters
  tasks task := by
    rw [open_access_append, hentry]
    exact h.tasks task

/-- An event of a task that leaves its request where it is. -/
theorem from_http_same (h : service.FromHttp past world) {task : Nat} {event : HttpEvent}
    (htask : event.task = some task) {response : Option Response}
    (hsame : Access.advance task (openAccess past task) (event, response) = openAccess past task) :
    service.FromHttp (past ++ [(event, response)]) world := by
  refine from_http_quiet h fun other => ?_
  by_cases heq : other = task
  · rw [heq, hsame]
  · exact advance_of_ne (by simp [htask, Ne.symm heq]) _ _

/-- A request that starts or goes on. -/
theorem from_http_set_task (h : service.FromHttp past world) {task : Nat} {event : HttpEvent}
    (htask : event.task = some task) {response : Option Response} {access : Access}
    (haccess : Access.advance task (openAccess past task) (event, response) = some access)
    {pending : Task} (hpending : service.Stands (some access) (some pending)) :
    service.FromHttp (past ++ [(event, response)]) (world.setTask task pending) where
  auditLog := h.auditLog
  counters := h.counters
  tasks other := by
    rw [open_access_append, World.setTask]
    by_cases heq : other = task
    · rw [heq, haccess, Finmap.lookup_insert]
      exact hpending
    · rw [advance_of_ne (by simp [htask, Ne.symm heq]), Finmap.lookup_insert_of_ne _ heq]
      exact h.tasks other

/-- A request that gets its response, with what the event does to the sessions. -/
theorem from_http_end_task (h : service.FromHttp past world) {task : Nat} {event : HttpEvent}
    (htask : event.task = some task) {response : Option Response}
    (haccess : Access.advance task (openAccess past task) (event, response) = none)
    {state : ServiceState} (hlog : state.auditLog = world.state.auditLog)
    (hcounters : state.operationCounters = world.state.operationCounters) :
    service.FromHttp (past ++ [(event, response)]) { world.endTask task with state } where
  auditLog := hlog.trans h.auditLog
  counters := hcounters.trans h.counters
  tasks other := by
    rw [open_access_append]
    show service.Stands _ ((world.tasks.erase task).lookup other)
    by_cases heq : other = task
    · rw [heq, haccess, Finmap.lookup_erase]
      exact .idle
    · rw [advance_of_ne (by simp [htask, Ne.symm heq]), Finmap.lookup_erase_ne heq]
      exact h.tasks other

/-- The capabilities that are reported are those of the entity in the parameter. -/
theorem answers_capabilities (params : HashMap String String) :
    service.Answers past (.capabilities params)
      (some (.ofResult ((getCapabilities service params).map .capabilities))) := by
  unfold getCapabilities EnforcementService.getEntityConfig
  cases hid : params.lookup "entity_id" with
  | none => exact .missingParameter hid
  | some entityId =>
      simp only [ok_or_else_some, bind, Except.bind]
      cases hfind : service.policy.findEntity entityId with
      | none => exact .unlistedParameter hid (not_lists_of_find_entity hfind)
      | some entity => exact .capabilities hid (lists_of_find_entity hfind)

end Flight

section Runs

variable [Wasmparser] {service : EnforcementService}
  {past : List (HttpEvent × Option Response)} {world : World}

/-- A request for access starts, if its task is at no other. -/
theorem from_http_access (h : service.FromHttp past world) (task : Nat)
    (request : CreateAccessRequest) :
    service.FromHttp (past ++ [(.access task request,
        (service.serve world (.access task request)).1)])
        (service.serve world (.access task request)).2 ∧
      service.Answers past (.access task request)
        (service.serve world (.access task request)).1 := by
  simp only [EnforcementService.serve, EnforcementService.step, World.start]
  have hbusy : ∀ access, openAccess past task = some access →
      Access.advance task (openAccess past task) (.access task request, none) =
        openAccess past task := by
    intro access haccess
    rw [haccess]
    exact if_pos rfl
  rcases stands_cases h task with ⟨haccess, hlookup⟩ | ⟨asked, haccess, hlookup⟩ |
      ⟨asked, freshId, now, entity, haccess, _, _, hlookup⟩
  · rw [hlookup]
    refine ⟨from_http_set_task h rfl ?_ (.asked request), .access⟩
    rw [haccess]
    exact if_pos rfl
  · rw [hlookup]
    exact ⟨from_http_same h rfl (hbusy _ haccess), .access⟩
  · rw [hlookup]
    exact ⟨from_http_same h rfl (hbusy _ haccess), .access⟩

/-- A request for access is refused, or draws its id and its reading. -/
theorem from_http_resume (h : service.FromHttp past world) (task : Nat) (freshId : Uuid)
    (now : Int) :
    service.FromHttp (past ++ [(.accessResume task freshId now,
        (service.serve world (.accessResume task freshId now)).1)])
        (service.serve world (.accessResume task freshId now)).2 ∧
      service.Answers past (.accessResume task freshId now)
        (service.serve world (.accessResume task freshId now)).1 := by
  simp only [EnforcementService.serve, EnforcementService.step]
  have hdraw : Access.advance task (openAccess past task) (.accessResume task freshId now, none) =
      (openAccess past task).map (Access.draw freshId now) := if_pos rfl
  rcases stands_cases h task with ⟨haccess, hlookup⟩ | ⟨request, haccess, hlookup⟩ |
      ⟨request, drawnId, drawnAt, entity, haccess, _, _, hlookup⟩
  · rw [hlookup]
    -- there is nothing left to draw
    refine ⟨from_http_same h rfl (hdraw.trans ?_), .notAsked (by simp [haccess])⟩
    rw [haccess]
    rfl
  · have hrefused : ∀ response, Access.advance task (openAccess past task)
        (.accessResume task freshId now, some response) = none := fun _ => if_pos rfl
    simp only [hlookup, authorize_without_bytes]
    cases hfind : service.policy.findEntity request.entityId with
    | none =>
        exact ⟨from_http_end_task h rfl (hrefused _) rfl rfl,
          .unlisted haccess (not_lists_of_find_entity hfind)⟩
    | some entity =>
        have hlists := lists_of_find_entity hfind
        cases hmode : entity.mode with
        | auto model =>
            simp only [hmode]
            exact ⟨from_http_end_task h rfl (hrefused _) rfl rfl, .autoMode haccess hlists hmode⟩
        | manual =>
            simp only [hmode]
            refine ⟨from_http_set_task h rfl (hdraw.trans ?_) (.drew freshId now hlists hmode),
              .drew haccess hlists hmode⟩
            rw [haccess]
            rfl
  · rw [hlookup]
    -- there is nothing left to draw
    refine ⟨from_http_same h rfl (hdraw.trans ?_), .notAsked (by simp [haccess])⟩
    rw [haccess]
    rfl

/-- A request for access that has drawn its id gets its session. -/
theorem from_http_insert (h : service.FromHttp past world) (task : Nat) :
    service.FromHttp (past ++ [(.accessInsert task,
        (service.serve world (.accessInsert task)).1)])
        (service.serve world (.accessInsert task)).2 ∧
      service.Answers past (.accessInsert task)
        (service.serve world (.accessInsert task)).1 := by
  simp only [EnforcementService.serve, EnforcementService.step]
  rcases stands_cases h task with ⟨haccess, hlookup⟩ | ⟨request, haccess, hlookup⟩ |
      ⟨request, freshId, now, entity, haccess, hlists, hmanual, hlookup⟩
  · rw [hlookup]
    exact ⟨from_http_quiet h fun _ => rfl, .notDrawn (by simp [haccess])⟩
  · rw [hlookup]
    exact ⟨from_http_quiet h fun _ => rfl, .notDrawn (by simp [haccess])⟩
  · have hdone : ∀ response, Access.advance task (openAccess past task)
        (.accessInsert task, some response) = none := fun _ => if_pos rfl
    rw [hlookup]
    exact ⟨from_http_end_task h rfl (hdone _) rfl rfl, .granted haccess hlists hmanual⟩

/-- One event of the server. -/
theorem from_http_step (h : service.FromHttp past world) (event : HttpEvent) :
    service.FromHttp (past ++ [(event, (service.serve world event).1)])
        (service.serve world event).2 ∧
      service.Answers past event (service.serve world event).1 := by
  have hlength : service.listEntities.length = service.policy.entities.length :=
    List.length_map _
  cases event with
  | health => exact ⟨from_http_quiet h fun _ => rfl, .health⟩
  | access task request => exact from_http_access h task request
  | accessResume task freshId now => exact from_http_resume h task freshId now
  | accessInsert task => exact from_http_insert h task
  | capabilities params => exact ⟨from_http_quiet h fun _ => rfl, answers_capabilities params⟩
  | entities =>
      refine ⟨from_http_quiet h fun _ => rfl, ?_⟩
      simp only [EnforcementService.serve, HalEnforcement.listEntities, hlength]
      exact .entities
  | audit query =>
      refine ⟨from_http_quiet h fun _ => rfl, ?_⟩
      have hnone : world.state.getAuditLog query.entityId query.limit = [] := by
        unfold ServiceState.getAuditLog matchingEvents
        rw [h.auditLog]
        cases query.entityId <;> simp
      simp only [EnforcementService.serve, HalEnforcement.getAuditLog, hnone]
      exact .audit
  | stats now =>
      refine ⟨from_http_quiet h fun _ => rfl, ?_⟩
      simp only [EnforcementService.serve, getStats, hlength]
      exact .stats

theorem from_http_run (service : EnforcementService) (events : List HttpEvent) :
    service.FromHttp (Mealy.trace service.serve .empty events)
      (Mealy.final service.serve .empty events) :=
  Mealy.trace_induction (P := service.FromHttp) (from_http_empty service) events
    fun _ _ event _ h => (from_http_step h event).1

/-- The events of a request for access, one right after the other, are `createHalAccess`. -/
theorem access_alone (service : EnforcementService) {task : Nat}
    (hfree : world.tasks.lookup task = none) (request : CreateAccessRequest) (freshId : Uuid)
    (now : Int) :
    let events := [.access task request, .accessResume task freshId now, .accessInsert task]
    let answer := createHalAccess service world.state request.entityId freshId now
    (Mealy.trace service.serve world events).filterMap Prod.snd =
        [.ofResult (answer.1.map .access)] ∧
      (Mealy.final service.serve world events).state = answer.2 := by
  simp only [Mealy.trace_cons, Mealy.trace_nil, Mealy.final_cons, Mealy.final_nil,
    EnforcementService.serve, EnforcementService.step, World.start, hfree, World.setTask,
    Prod.map_fst, Prod.map_snd, id_eq, Finmap.lookup_insert, createHalAccess,
    EnforcementService.createSession, EnforcementService.createSessionWithWasm]
  cases service.authorize request.entityId none with
  | error error => simp [World.endTask, Reply.accessResponse, Except.map]
  | ok resolved =>
      simp [World.endTask, Reply.accessResponse, Session.access, Except.map, Response.ofResult]

/-! ## What the API answers -/

/-- Nothing that a client of the HTTP API does, from any number of connections, is written to the
audit log or is counted against a rate limit; `GET /api/v1/audit` answers with no events. -/
theorem http_leaves_no_trail (service : EnforcementService) (events : List HttpEvent) :
    (Mealy.final service.serve .empty events).state.auditLog = [] ∧
      (Mealy.final service.serve .empty events).state.operationCounters = ∅ ∧
      ∀ query response,
        (.audit query, response) ∈ Mealy.trace service.serve .empty events →
          response = some (.ok (.audit ⟨[], 0⟩)) := by
  have hworld := from_http_run service events
  refine ⟨hworld.auditLog, hworld.counters, ?_⟩
  -- the response to a query is among the answers of the event that makes it
  refine (Mealy.trace_induction (P := fun past world => service.FromHttp past world ∧
    ∀ query response, (.audit query, response) ∈ past → response = some (.ok (.audit ⟨[], 0⟩)))
      ⟨from_http_empty service, by simp⟩ events fun past world event _ h => ?_).2
  obtain ⟨hnext, hanswer⟩ := from_http_step h.1 event
  refine ⟨hnext, fun query response hentry => ?_⟩
  rcases List.mem_append.mp hentry with hold | hnew
  · exact h.2 query response hold
  · obtain ⟨hevent, hresponse⟩ := Prod.mk.inj (List.mem_singleton.mp hnew)
    subst hevent
    rw [← hresponse] at hanswer
    cases hanswer with
    | audit => rfl

end Runs

section Accounting

variable [Wasmparser] {service : EnforcementService} {world : World}

/-- What an event of the server does to the sessions. -/
theorem serve_sessions (service : EnforcementService) (world : World) (event : HttpEvent) :
    ((service.serve world event).1.bind Response.handedOut = none ∧
        (service.serve world event).2.state.sessions = world.state.sessions) ∨
      ∃ made, (service.serve world event).1.bind Response.handedOut = some (Session.access made) ∧
        (service.serve world event).2.state.sessions =
          world.state.sessions.insert made.sessionId made := by
  cases event with
  | health | entities | stats | audit => exact .inl ⟨rfl, rfl⟩
  | capabilities params =>
      refine .inl ⟨?_, rfl⟩
      simp only [EnforcementService.serve]
      cases getCapabilities service params <;> rfl
  | access task request =>
      simp only [EnforcementService.serve, EnforcementService.step, World.start]
      cases world.tasks.lookup task <;> exact .inl ⟨rfl, rfl⟩
  | accessResume task freshId now =>
      simp only [EnforcementService.serve, EnforcementService.step]
      split
      · split <;> exact .inl ⟨rfl, rfl⟩
      · exact .inl ⟨rfl, rfl⟩
  | accessInsert task =>
      simp only [EnforcementService.serve, EnforcementService.step]
      split
      · next session _ => exact .inr ⟨session, rfl, rfl⟩
      · exact .inl ⟨rfl, rfl⟩

/-- The store holds the accesses that were handed out, one session for each. -/
structure Accounted (past : List (HttpEvent × Option Response)) (world : World) : Prop where
  keyed : ∀ sessionId session, world.state.sessions.lookup sessionId = some session →
    session.sessionId = sessionId
  handed_out : world.state.sessions.entries.map (fun entry => entry.2.access) =
    (accessResponses past : Multiset CreateAccessResponse)

omit [Wasmparser] in
theorem access_responses_append (past : List (HttpEvent × Option Response)) (event : HttpEvent)
    (response : Option Response) :
    accessResponses (past ++ [(event, response)]) =
      accessResponses past ++ (response.bind Response.handedOut).toList := by
  unfold accessResponses
  rw [List.filterMap_append]
  cases h : response.bind Response.handedOut <;> simp [h]

/-- One event of the server, if the id it hands out is new. -/
theorem accounted_step {past : List (HttpEvent × Option Response)} (h : Accounted past world)
    (event : HttpEvent)
    (hfresh : ((accessResponses (past ++ [(event, (service.serve world event).1)])).map
      CreateAccessResponse.sessionId).Nodup) :
    Accounted (past ++ [(event, (service.serve world event).1)])
      (service.serve world event).2 := by
  rw [access_responses_append] at hfresh
  rcases serve_sessions service world event with ⟨hnone, hsessions⟩ | ⟨made, hmade, hsessions⟩
  · refine ⟨fun sessionId session hlookup => h.keyed sessionId session (hsessions ▸ hlookup), ?_⟩
    rw [hsessions, h.handed_out, access_responses_append, hnone, Option.toList_none,
      List.append_nil]
  · rw [hmade, Option.toList_some, List.map_append] at hfresh
    have hnew : world.state.sessions.lookup made.sessionId = none := by
      cases hlookup : world.state.sessions.lookup made.sessionId with
      | none => rfl
      | some old =>
          have hmem : old.access ∈ (accessResponses past : Multiset CreateAccessResponse) := by
            rw [← h.handed_out]
            exact Multiset.mem_map_of_mem (fun entry => entry.2.access)
              (Finmap.mem_lookup_iff.mp hlookup)
          have hid := h.keyed _ _ hlookup
          refine absurd rfl ((List.nodup_append.mp hfresh).2.2 made.sessionId ?_ made.sessionId ?_)
          · exact List.mem_map.mpr ⟨old.access, Multiset.mem_coe.mp hmem, hid⟩
          · exact List.mem_singleton_self _
    refine ⟨fun sessionId session hlookup => ?_, ?_⟩
    · rw [hsessions] at hlookup
      by_cases hid : sessionId = made.sessionId
      · subst hid
        rw [Finmap.lookup_insert] at hlookup
        cases hlookup
        rfl
      · rw [Finmap.lookup_insert_of_ne _ hid] at hlookup
        exact h.keyed sessionId session hlookup
    · rw [hsessions, StoreCount.entries_insert hnew, Multiset.map_cons, h.handed_out,
        access_responses_append, hmade, Option.toList_some, ← Multiset.coe_add, add_comm]
      rfl

/-- While no id is handed out twice, the store holds the accesses. -/
theorem accounted_run (service : EnforcementService) (events : List HttpEvent)
    (hfresh : ((accessResponses (Mealy.trace service.serve .empty events)).map
      CreateAccessResponse.sessionId).Nodup) :
    Accounted (Mealy.trace service.serve .empty events)
      (Mealy.final service.serve .empty events) := by
  refine Mealy.trace_induction (P := fun past world =>
    ((accessResponses past).map CreateAccessResponse.sessionId).Nodup → Accounted past world)
      (fun _ => ⟨by simp [World.empty, ServiceState.empty], rfl⟩) events
      (fun past world event _ h hnodup => ?_) hfresh
  refine accounted_step (h ?_) event hnodup
  rw [access_responses_append, List.map_append] at hnodup
  exact hnodup.of_append_left

/-- While no id is handed out twice, `GET /api/v1/stats` counts the accesses that have been handed
out and have not expired: an access granted by any connection is counted from the moment its
response is sent, and nothing else is. -/
theorem http_stats_count_access (service : EnforcementService) (events : List HttpEvent)
    (hfresh : ((accessResponses (Mealy.trace service.serve .empty events)).map
      CreateAccessResponse.sessionId).Nodup) (now : Int) :
    (service.serve (Mealy.final service.serve .empty events) (.stats now)).1 =
      some (.ok (.stats
        { activeSessions := (accessResponses (Mealy.trace service.serve .empty events)).countP
            fun access => access.expiresAt > now
          totalEntities := service.policy.entities.length
          version })) := by
  have haccounted := (accounted_run service events hfresh).handed_out
  have hcount : (Mealy.final service.serve .empty events).state.activeSessionsCount now =
      (accessResponses (Mealy.trace service.serve .empty events)).countP
        fun access => access.expiresAt > now := by
    rw [← Multiset.coe_countP, ← haccounted, Multiset.countP_map]
    rfl
  simp only [EnforcementService.serve, getStats, hcount, EnforcementService.listEntities,
    List.length_map]

end Accounting

/-- Two connections ask at once, one for an entity that has no session without bytes. -/
theorem http_stats_after_two_requests :
    (@EnforcementService.serve sampleParser mixedService
      (Mealy.final (@EnforcementService.serve sampleParser mixedService) .empty
        [.access 0 ⟨"sensor", none⟩, .access 1 ⟨"agent", none⟩, .accessResume 0 ⟨7⟩ 5,
          .accessResume 1 ⟨8⟩ 6, .accessInsert 0]) (.stats 7)).1 =
      some (.ok (.stats ⟨1, 2, "0.1.0"⟩)) :=
  @http_stats_count_access sampleParser mixedService
    [.access 0 ⟨"sensor", none⟩, .access 1 ⟨"agent", none⟩, .accessResume 0 ⟨7⟩ 5,
      .accessResume 1 ⟨8⟩ 6, .accessInsert 0] (by decide) 7

end HalEnforcement
