import HalEnforcement.Linearizability
import HalEnforcement.RateLimit.Limiter

/-!
# The service as a function of its history

An abstract model of the service that has no state: `answer` reads what a call has to return off
the calls completed before it. A lookup finds the last session that was created under the id, the
rate limiter a window that the earlier calls under the same key have left, a query of the audit log
the calls of `audit`. `service_refines_history` says that every completed call of every
interleaved run returned this answer, and that the locks hold what the history says.
-/

namespace HalEnforcement

/-! ## Reading the history -/

/-- The entity and the bytes of a creation. -/
def Operation.creation : Operation → Option (String × Option Bytes)
  | .createSession entityId => some (entityId, none)
  | .createSessionWithWasm entityId wasmBytes => some (entityId, wasmBytes)
  | _ => none

/-- The session a completed call created. -/
def createdBy (completed : Call × Outcome) : Option Session :=
  match completed.1.operation.creation, completed.2 with
  | some _, .session (.ok session) => some session
  | _, _ => none

/-- The last session that was created under this id. -/
def lastSession (past : List (Call × Outcome)) (sessionId : Uuid) : Option Session :=
  (past.filterMap createdBy).reverse.find? fun session => decide (session.sessionId = sessionId)

/-- The ids of the sessions that were created. -/
def sessionIds (past : List (Call × Outcome)) : Finset Uuid :=
  ((past.filterMap createdBy).map Session.sessionId).toFinset

/-- The event a call of `audit` records. -/
def Call.auditEvent (call : Call) : Option AuditEvent :=
  match call.operation with
  | .audit entityId sessionId interface operation success error =>
      some (newAuditEvent entityId sessionId interface operation success error call.now)
  | _ => none

/-- The recorded events, in the order in which they were pushed. -/
def auditEvents (past : List (Call × Outcome)) : List AuditEvent :=
  past.filterMap fun completed => completed.1.auditEvent

/-- The call of `check_rate_limit`, with its reading. -/
def Call.rateCall (call : Call) : Option RateCall :=
  match call.operation with
  | .checkRateLimit entityId interface => some ⟨entityId, interface, call.now⟩
  | _ => none

/-- The calls of `check_rate_limit`, in the order in which they took the counters lock. -/
def rateCalls (past : List (Call × Outcome)) : List RateCall :=
  past.filterMap fun completed => completed.1.rateCall

/-- The window that earlier calls have left under the key of a call. -/
def PolicyConfig.windowBefore (policy : PolicyConfig) (earlier : List RateCall)
    (call : RateCall) : Option FixedWindow.Window :=
  Mealy.final policy.windowStep none
    (earlier.filter (policy.limiter.addresses (counterKey call.entityId call.interface)))

/-- The outcome of a call of `check_rate_limit` after these calls. -/
def PolicyConfig.rateAnswer (policy : PolicyConfig) (earlier : List RateCall) (call : RateCall) :
    Result Unit :=
  match policy.findEntity call.entityId with
  | none => .error (.entityNotFound call.entityId)
  | some entity =>
      let rateLimit := policy.rateLimit entity call.interface
      if (policy.windowStep (policy.windowBefore earlier call) call).1 then .ok ()
      else .error (.rateLimitExceeded call.entityId
        s!"{rateLimit} operations/sec limit exceeded for {call.interface}")

section Answer

variable [Wasmparser] (service : EnforcementService)

/-- The outcome of a creation that draws these readings. -/
def EnforcementService.creationAnswer (entityId : String) (wasmBytes : Option Bytes)
    (call : Call) : Outcome :=
  .session ((service.authorize entityId wasmBytes).map fun resolved =>
    newSession call.freshId call.now entityId resolved.1 resolved.2)

/-- What a call returns after these calls. -/
def EnforcementService.answer (past : List (Call × Outcome)) (call : Call) : Outcome :=
  match call.operation with
  | .resolveCapabilities entityId wasmBytes =>
      .capabilities (service.resolveCapabilities entityId wasmBytes)
  | .createSession entityId => service.creationAnswer entityId none call
  | .createSessionWithWasm entityId wasmBytes => service.creationAnswer entityId wasmBytes call
  | .getSession sessionId =>
      .session (match lastSession past sessionId with
        | none => .error (.session "Session not found")
        | some session =>
            if session.expiresAt < call.now then .error (.session "Session expired")
            else .ok session)
  | .hasCapability entityId capability => .capability (service.hasCapability entityId capability)
  | .checkRateLimit entityId interface =>
      .rateLimit (service.policy.rateAnswer (rateCalls past) ⟨entityId, interface, call.now⟩)
  | .audit .. => .audited
  | .getAuditLog entityId limit =>
      .auditLog ((matchingEvents (auditEvents past) entityId).reverse.take limit)
  | .activeSessionsCount =>
      .activeSessions ((sessionIds past).filter fun sessionId =>
        (lastSession past sessionId).any fun session => session.expiresAt > call.now).card

/-- The machine whose state is the history. -/
def EnforcementService.historyStep (past : List (Call × Outcome)) (call : Call) :
    Outcome × List (Call × Outcome) :=
  (service.answer past call, past ++ [(call, service.answer past call)])

end Answer

/-! ## The locks hold what the history says -/

/-- The contents of the locks after these calls. -/
structure PolicyConfig.Represents (policy : PolicyConfig) (past : List (Call × Outcome))
    (state : ServiceState) : Prop where
  sessions : ∀ sessionId, state.sessions.lookup sessionId = lastSession past sessionId
  auditLog : state.auditLog = auditEvents past
  counters : state.operationCounters = Mealy.final policy.rateStep ∅ (rateCalls past)

theorem represents_empty (policy : PolicyConfig) : policy.Represents [] .empty where
  sessions _ := rfl
  auditLog := rfl
  counters := rfl

section Concat

variable (past : List (Call × Outcome)) (completed : Call × Outcome)

theorem created_concat : (past ++ [completed]).filterMap createdBy =
    past.filterMap createdBy ++ (createdBy completed).toList := by
  rw [List.filterMap_append]
  cases h : createdBy completed <;> simp [h]

theorem last_session_created {completed : Call × Outcome} {made : Session}
    (h : createdBy completed = some made) (sessionId : Uuid) :
    lastSession (past ++ [completed]) sessionId =
      if made.sessionId = sessionId then some made else lastSession past sessionId := by
  unfold lastSession
  rw [created_concat, h]
  by_cases hid : made.sessionId = sessionId
  · simp [hid]
  · simp [hid]

theorem last_session_other {completed : Call × Outcome} (h : createdBy completed = none)
    (sessionId : Uuid) :
    lastSession (past ++ [completed]) sessionId = lastSession past sessionId := by
  unfold lastSession
  rw [created_concat, h]
  simp

theorem audit_events_concat :
    auditEvents (past ++ [completed]) = auditEvents past ++ completed.1.auditEvent.toList := by
  unfold auditEvents
  rw [List.filterMap_append]
  cases h : completed.1.auditEvent <;> simp [h]

theorem rate_calls_concat :
    rateCalls (past ++ [completed]) = rateCalls past ++ completed.1.rateCall.toList := by
  unfold rateCalls
  rw [List.filterMap_append]
  cases h : completed.1.rateCall <;> simp [h]

end Concat

/-- The ids that were created are those under which there is a last session. -/
theorem mem_session_ids_iff {past : List (Call × Outcome)} {sessionId : Uuid} :
    sessionId ∈ sessionIds past ↔ ∃ session, lastSession past sessionId = some session := by
  rw [sessionIds, List.mem_toFinset, List.mem_map, ← Option.isSome_iff_exists, lastSession,
    List.find?_isSome]
  simp

theorem lookup_insert_session (state : ServiceState) (made : Session) (sessionId : Uuid) :
    (state.insertSession made).sessions.lookup sessionId =
      if made.sessionId = sessionId then some made else state.sessions.lookup sessionId := by
  unfold ServiceState.insertSession
  by_cases hid : made.sessionId = sessionId
  · subst hid
    simp
  · rw [Finmap.lookup_insert_of_ne _ (Ne.symm hid), if_neg hid]

/-- A refusal of the rate limiter has one text for each pair. -/
theorem rate_step_answer (policy : PolicyConfig) (earlier : List RateCall) (call : RateCall) :
    (policy.rateStep (Mealy.final policy.rateStep ∅ earlier) call).1 =
      policy.rateAnswer earlier call := by
  unfold PolicyConfig.rateAnswer
  cases hfind : policy.findEntity call.entityId with
  | none => simp [PolicyConfig.rateStep, PolicyConfig.checkRateLimit, hfind]
  | some entity =>
      have hgranted := rate_step_final_refines hfind earlier
      rw [PolicyConfig.windowBefore, ← hgranted]
      generalize Mealy.final policy.rateStep ∅ earlier = counters
      simp only [PolicyConfig.rateStep, PolicyConfig.checkRateLimit, hfind, countOperation]
      split
      · rfl
      · rfl

section Runs

variable [Wasmparser] {service : EnforcementService} {past : List (Call × Outcome)}
  {state : ServiceState}

omit [Wasmparser] in
theorem creation_eq {operation : Operation} {entityId : String} {wasmBytes : Option Bytes}
    (h : operation.creation = some (entityId, wasmBytes)) :
    operation = .createSession entityId ∧ wasmBytes = none ∨
      operation = .createSessionWithWasm entityId wasmBytes := by
  cases operation with
  | createSession =>
      cases h
      exact .inl ⟨rfl, rfl⟩
  | createSessionWithWasm =>
      cases h
      exact .inr rfl
  | _ => cases h

/-- Both operations that create a session are `create_session_with_wasm`. -/
theorem perform_creation {call : Call} {entityId : String} {wasmBytes : Option Bytes}
    (h : call.operation.creation = some (entityId, wasmBytes)) (state : ServiceState) :
    service.perform state call =
      (service.createSessionWithWasm state entityId wasmBytes call.freshId call.now).map
        .session id := by
  unfold EnforcementService.perform
  rcases creation_eq h with ⟨hoperation, rfl⟩ | hoperation
  · rw [hoperation]
    rfl
  · rw [hoperation]

/-- The outcome of a creation does not depend on the state. -/
theorem creation_outcome {call : Call} {entityId : String} {wasmBytes : Option Bytes}
    (h : call.operation.creation = some (entityId, wasmBytes)) (state : ServiceState) :
    (service.perform state call).1 = service.creationAnswer entityId wasmBytes call := by
  rw [perform_creation h]
  unfold EnforcementService.createSessionWithWasm EnforcementService.creationAnswer
  cases service.authorize entityId wasmBytes <;> rfl

/-- What a creation does to the contents of the locks. -/
theorem represents_creation (h : service.policy.Represents past state) {call : Call}
    {entityId : String} {wasmBytes : Option Bytes}
    (hcreation : call.operation.creation = some (entityId, wasmBytes)) :
    service.policy.Represents (past ++ [(call, (service.perform state call).1)])
      (service.perform state call).2 := by
  have haudit : call.auditEvent = none := by
    unfold Call.auditEvent
    rcases creation_eq hcreation with ⟨hoperation, _⟩ | hoperation <;> rw [hoperation]
  have hrate : call.rateCall = none := by
    unfold Call.rateCall
    rcases creation_eq hcreation with ⟨hoperation, _⟩ | hoperation <;> rw [hoperation]
  have hcreated : ∀ result, createdBy (call, .session result) = result.toOption := by
    intro result
    cases result <;> simp [createdBy, hcreation, Except.toOption]
  rw [perform_creation hcreation]
  unfold EnforcementService.createSessionWithWasm
  cases service.authorize entityId wasmBytes with
  | error error =>
      refine ⟨fun sessionId => ?_, ?_, ?_⟩
      · exact (h.sessions sessionId).trans (last_session_other _ (hcreated _) _).symm
      · simp [audit_events_concat, haudit, h.auditLog]
      · simp [rate_calls_concat, hrate, h.counters]
  | ok resolved =>
      refine ⟨fun sessionId => ?_, ?_, ?_⟩
      · exact (lookup_insert_session state _ sessionId).trans
          (by rw [h.sessions]; exact (last_session_created _ (hcreated _) sessionId).symm)
      · simp [audit_events_concat, haudit, h.auditLog, ServiceState.insertSession]
      · simp [rate_calls_concat, hrate, h.counters, ServiceState.insertSession]

omit [Wasmparser] in
/-- An operation that changes nothing, and that the history does not read. -/
theorem represents_quiet (h : service.policy.Represents past state) {call : Call}
    (outcome : Outcome) (hcreated : createdBy (call, outcome) = none)
    (haudit : call.auditEvent = none) (hrate : call.rateCall = none) :
    service.policy.Represents (past ++ [(call, outcome)]) state where
  sessions sessionId := (h.sessions sessionId).trans (last_session_other _ hcreated _).symm
  auditLog := by simp [audit_events_concat, haudit, h.auditLog]
  counters := by simp [rate_calls_concat, hrate, h.counters]

omit [Wasmparser] in
theorem get_session_of_represents (h : service.policy.Represents past state) (sessionId : Uuid)
    (now : Int) :
    state.getSession sessionId now =
      match lastSession past sessionId with
      | none => .error (.session "Session not found")
      | some session =>
          if session.expiresAt < now then .error (.session "Session expired")
          else .ok session := by
  rw [ServiceState.getSession, h.sessions]
  cases lastSession past sessionId with
  | none => rfl
  | some session => rfl

omit [Wasmparser] in
theorem keys_of_represents {policy : PolicyConfig} (h : policy.Represents past state) :
    state.sessions.keys = sessionIds past := by
  ext sessionId
  rw [Finmap.mem_keys, ← Finmap.lookup_isSome, Option.isSome_iff_exists, h.sessions,
    mem_session_ids_iff]

omit [Wasmparser] in
theorem active_sessions_of_represents (h : service.policy.Represents past state) (now : Int) :
    state.activeSessionsCount now =
      ((sessionIds past).filter fun sessionId =>
        (lastSession past sessionId).any fun session => session.expiresAt > now).card := by
  rw [ServiceState.activeSessionsCount, ← keys_of_represents h]
  refine (StoreCount.card_filter_keys state.sessions _ (fun session => session.expiresAt > now)
    fun sessionId session hlookup => ?_).symm
  rw [← h.sessions, hlookup, Option.any_some, decide_eq_true_eq]

/-- An operation that creates no session. -/
theorem represents_other (h : service.policy.Represents past state) {call : Call}
    (hcreation : call.operation.creation = none) :
    (service.perform state call).1 = service.answer past call ∧
      service.policy.Represents (past ++ [(call, (service.perform state call).1)])
        (service.perform state call).2 := by
  have hcreated : ∀ outcome, createdBy (call, outcome) = none := by simp [createdBy, hcreation]
  unfold EnforcementService.perform EnforcementService.answer
  cases hoperation : call.operation with
  | createSession | createSessionWithWasm =>
      rw [hoperation] at hcreation
      cases hcreation
  | resolveCapabilities | hasCapability =>
      exact ⟨rfl, represents_quiet h _ (hcreated _) (by simp [Call.auditEvent, hoperation])
        (by simp [Call.rateCall, hoperation])⟩
  | getSession sessionId =>
      refine ⟨congrArg _ (get_session_of_represents h sessionId call.now), ?_⟩
      exact represents_quiet h _ (hcreated _) (by simp [Call.auditEvent, hoperation])
        (by simp [Call.rateCall, hoperation])
  | checkRateLimit entityId interface =>
      have haudit : call.auditEvent = none := by simp [Call.auditEvent, hoperation]
      have hrate : call.rateCall = some ⟨entityId, interface, call.now⟩ := by
        simp [Call.rateCall, hoperation]
      refine ⟨?_, ⟨fun sessionId => ?_, ?_, ?_⟩⟩
      · have hanswer :=
          rate_step_answer service.policy (rateCalls past) ⟨entityId, interface, call.now⟩
        rw [← h.counters] at hanswer
        exact congrArg Outcome.rateLimit hanswer
      · exact (h.sessions sessionId).trans (last_session_other _ (hcreated _) _).symm
      · rw [audit_events_concat, haudit]
        exact h.auditLog.trans (List.append_nil _).symm
      · rw [rate_calls_concat, hrate, Option.toList_some, Mealy.final_concat, ← h.counters]
        rfl
  | audit entityId sessionId interface operation success error =>
      refine ⟨rfl, ⟨fun sessionId => ?_, ?_, ?_⟩⟩
      · exact (h.sessions sessionId).trans (last_session_other _ (hcreated _) _).symm
      · simp [audit_events_concat, Call.auditEvent, hoperation, ServiceState.pushAuditEvent,
          h.auditLog]
      · simp [rate_calls_concat, Call.rateCall, hoperation, ServiceState.pushAuditEvent,
          h.counters]
  | getAuditLog entityId limit =>
      refine ⟨?_, represents_quiet h _ (hcreated _) (by simp [Call.auditEvent, hoperation])
        (by simp [Call.rateCall, hoperation])⟩
      show Outcome.auditLog (state.getAuditLog entityId limit) = _
      rw [ServiceState.getAuditLog, h.auditLog]
  | activeSessionsCount =>
      refine ⟨congrArg _ (active_sessions_of_represents h call.now), ?_⟩
      exact represents_quiet h _ (hcreated _) (by simp [Call.auditEvent, hoperation])
        (by simp [Call.rateCall, hoperation])

/-- An operation returns its answer and leaves what the history says with the call added. -/
theorem represents_step (h : service.policy.Represents past state) (call : Call) :
    (service.perform state call).1 = service.answer past call ∧
      service.policy.Represents (past ++ [(call, (service.perform state call).1)])
        (service.perform state call).2 := by
  cases hcreation : call.operation.creation with
  | none => exact represents_other h hcreation
  | some created =>
      refine ⟨?_, represents_creation h hcreation⟩
      rw [creation_outcome hcreation, EnforcementService.answer]
      rcases creation_eq hcreation with ⟨hoperation, hbytes⟩ | hoperation
      · rw [hoperation, hbytes]
      · rw [hoperation]

/-- After any sequence of operations the locks hold what the history says. -/
theorem represents_run (service : EnforcementService) (calls : List Call) :
    service.policy.Represents (Mealy.trace service.perform .empty calls)
      (Mealy.final service.perform .empty calls) :=
  Mealy.trace_induction (P := service.policy.Represents) (represents_empty service.policy) calls
    fun _ _ call _ h => (represents_step h call).2

/-- The locks hold, at every point of an interleaved run, what the completed calls say. -/
theorem represents_interleaved (service : EnforcementService) (events : List Event) :
    service.policy.Represents (completedCalls (Mealy.trace service.step .empty events))
      (Mealy.final service.step .empty events).state := by
  obtain ⟨htrace, hfinal⟩ := completed_calls_run service events
  rw [hfinal]
  generalize hcalls : (completedCalls (Mealy.trace service.step .empty events)).map Prod.fst =
    calls at htrace
  rw [htrace]
  exact represents_run service calls

/-- The service has no state beyond its history: the completed calls of an interleaved run are a run
of the machine that remembers the calls and returns their answers, and at its end the locks hold
what they say. -/
theorem service_refines_history (service : EnforcementService) (events : List Event) :
    let completed := completedCalls (Mealy.trace service.step .empty events)
    completed = Mealy.trace service.historyStep [] (completed.map Prod.fst) ∧
      service.policy.Represents completed (Mealy.final service.step .empty events).state := by
  refine ⟨?_, represents_interleaved service events⟩
  have hstep : ∀ state past call, service.policy.Represents past state →
      id (service.perform state call).1 = (service.historyStep past call).1 ∧
        service.policy.Represents (service.historyStep past call).2
          (service.perform state call).2 := by
    intro state past call h
    obtain ⟨hanswer, hnext⟩ := represents_step h call
    rw [hanswer] at hnext
    exact ⟨hanswer, hnext⟩
  have hsimulation := Mealy.trace_map_of_simulation
    (R := fun state past => service.policy.Represents past state)
    (represents_empty service.policy) hstep
  simp only [Prod.map_id, List.map_id] at hsimulation
  have hrun := (completed_calls_run service events).1
  rwa [hsimulation] at hrun

end Runs

end HalEnforcement
