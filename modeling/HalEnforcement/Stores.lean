import HalEnforcement.History

/-!
# What the locks hold

Invariants of the reachable states, read off the history of the completed calls. Every stored
session goes back to a call that admitted it (`stored_session_admitted`), and the three stores only
grow (`stores_only_grow`).
-/

namespace HalEnforcement

/-! ## Admission -/

section Runs

variable [Wasmparser]

omit [Wasmparser] in
theorem last_session_mem {past : List (Call × Outcome)} {sessionId : Uuid} {session : Session}
    (h : lastSession past sessionId = some session) :
    session.sessionId = sessionId ∧ ∃ completed ∈ past, createdBy completed = some session := by
  have hid := List.find?_some h
  have hmem := List.mem_filterMap.mp (List.mem_reverse.mp (List.mem_of_find?_eq_some h))
  exact ⟨by simpa using hid, hmem⟩

/-- The session was admitted by this call: the entity is listed, its capabilities resolved, and the
bytes, where there are any, import nothing else. -/
structure EnforcementService.AdmittedBy (service : EnforcementService) (call : Call)
    (session : Session) (entity : EntityConfig) (wasmBytes : Option Bytes)
    (caps : CapabilitiesConfig) : Prop where
  creation : call.operation.creation = some (entity.id, wasmBytes)
  listed : entity ∈ service.policy.entities
  resolves : entity.Resolves service.analyzer wasmBytes caps
  session_eq : session = newSession call.freshId call.now entity.id caps entity.mode.source
  checked : ∀ bytes, wasmBytes = some bytes →
    Parses bytes ∧ ∀ bucket ∈ requiredBuckets bytes, bucket ∈ session.grantedCapabilities

/-- A call that creates a session admits it. -/
theorem admitted_of_created {service : EnforcementService} {state : ServiceState} {call : Call}
    {session : Session}
    (h : createdBy (call, (service.perform state call).1) = some session) :
    ∃ entity wasmBytes caps, service.AdmittedBy call session entity wasmBytes caps := by
  obtain ⟨⟨entityId, wasmBytes⟩, hcreation⟩ : ∃ created,
      call.operation.creation = some created := by
    cases hcreation : call.operation.creation with
    | none => simp [createdBy, hcreation] at h
    | some created => exact ⟨created, rfl⟩
  rw [perform_creation hcreation] at h
  cases hresult : service.createSessionWithWasm state entityId wasmBytes call.freshId call.now with
  | mk result after =>
      rw [hresult] at h
      cases result with
      | error error => simp [createdBy, hcreation] at h
      | ok made =>
          obtain rfl : made = session := by simpa [createdBy, hcreation] using h
          obtain ⟨caps, source, hauthorize, hmade, _⟩ := create_session_ok_iff.mp hresult
          obtain ⟨hresolve, hchecked⟩ := authorize_ok_iff.mp hauthorize
          obtain ⟨entity, hentity, rfl, hcaps⟩ := resolve_capabilities_ok_iff.mp hresolve
          obtain ⟨hlisted, rfl⟩ := mem_of_find_entity hentity
          refine ⟨entity, wasmBytes, caps, hcreation, hlisted, hcaps, hmade, fun bytes hbytes => ?_⟩
          obtain ⟨checked, hok⟩ := hchecked bytes hbytes
          obtain ⟨hparses, hcovers, _⟩ := check_workload_ok_iff.mp hok
          refine ⟨hparses, fun bucket hbucket => ?_⟩
          rw [hmade]
          exact mem_list_granted.mpr (covers_iff_required.mp hcovers bucket hbucket)

/-- Every session in the store of an interleaved run was admitted by a completed call, and is still
what that call made of it: nobody has raised its grant or its expiry. -/
theorem stored_session_admitted (service : EnforcementService) (events : List Event)
    {sessionId : Uuid} {session : Session}
    (h : (Mealy.final service.step .empty events).state.sessions.lookup sessionId = some session) :
    session.sessionId = sessionId ∧
      ∃ call entity wasmBytes caps,
        (call, .session (.ok session)) ∈
            completedCalls (Mealy.trace service.step .empty events) ∧
          service.AdmittedBy call session entity wasmBytes caps := by
  rw [(represents_interleaved service events).sessions] at h
  obtain ⟨hid, ⟨call, outcome⟩, hmem, hcreated⟩ := last_session_mem h
  have houtcome : outcome = .session (.ok session) := by
    unfold createdBy at hcreated
    split at hcreated
    · next heq =>
        cases hcreated
        exact heq
    · cases hcreated
  refine ⟨hid, call, ?_⟩
  have hentries : ∀ completed ∈ completedCalls (Mealy.trace service.step .empty events),
      ∀ session, createdBy completed = some session →
        ∃ entity wasmBytes caps, service.AdmittedBy completed.1 session entity wasmBytes caps := by
    rw [(completed_calls_run service events).1]
    refine Mealy.trace_forall (P := fun call outcome => ∀ session,
      createdBy (call, outcome) = some session →
        ∃ entity wasmBytes caps, service.AdmittedBy call session entity wasmBytes caps) ?_ _ _
    exact fun state call session h => admitted_of_created h
  obtain ⟨entity, wasmBytes, caps, hadmitted⟩ := hentries _ hmem _ hcreated
  rw [houtcome] at hmem
  exact ⟨entity, wasmBytes, caps, hmem, hadmitted⟩

/-! ## Nothing is evicted -/

omit [Wasmparser] in
/-- The keys of the counters: `entity:interface` for every call that has named a listed entity,
whether the policy limits the interface or not. -/
theorem counters_keys_of_represents {policy : PolicyConfig} {past : List (Call × Outcome)}
    {state : ServiceState} (h : policy.Represents past state) (key : String) :
    key ∈ state.operationCounters ↔
      ∃ call ∈ rateCalls past, (policy.findEntity call.entityId).isSome ∧
        counterKey call.entityId call.interface = key := by
  have hnone := Keyed.lookup_final_eq_none_iff policy.limiter key (rateCalls past)
  rw [← rate_step_eq_limiter_step, ← h.counters, Finmap.lookup_eq_none] at hnone
  rw [← not_iff_not, hnone]
  simp only [← Bool.not_eq_true, limiter_addresses_iff, not_exists, not_and,
    Option.isSome_iff_exists]

/-- The stores only grow. The sessions are as many as the ids that creations have drawn, expired or
not; the audit log has all the events; there is a counter for every pair that was ever asked for
under a listed entity; and no later event takes any of them away. -/
theorem stores_only_grow (service : EnforcementService) (events later : List Event) :
    let completed := completedCalls (Mealy.trace service.step .empty events)
    let state := (Mealy.final service.step .empty events).state
    let after := (Mealy.final service.step .empty (events ++ later)).state
    state.sessions.keys = sessionIds completed ∧ state.auditLog = auditEvents completed ∧
      (∀ key, key ∈ state.operationCounters ↔
        ∃ call ∈ rateCalls completed, (service.policy.findEntity call.entityId).isSome ∧
          counterKey call.entityId call.interface = key) ∧
      state.sessions.keys ⊆ after.sessions.keys ∧ state.auditLog <+: after.auditLog ∧
      ∀ key, key ∈ state.operationCounters → key ∈ after.operationCounters := by
  have hnow := represents_interleaved service events
  have hafter := represents_interleaved service (events ++ later)
  have hmore : ∃ more, completedCalls (Mealy.trace service.step .empty (events ++ later)) =
      completedCalls (Mealy.trace service.step .empty events) ++ more := by
    rw [Mealy.trace_append, completedCalls, Observation.history_append]
    exact ⟨_, rfl⟩
  obtain ⟨more, hmore⟩ := hmore
  rw [hmore] at hafter
  refine ⟨keys_of_represents hnow, hnow.auditLog, counters_keys_of_represents hnow, ?_, ?_, ?_⟩
  · rw [keys_of_represents hnow, keys_of_represents hafter]
    intro sessionId hmem
    simp only [sessionIds, List.filterMap_append, List.map_append, List.toFinset_append]
    exact Finset.mem_union_left _ hmem
  · rw [hnow.auditLog, hafter.auditLog, auditEvents, auditEvents, List.filterMap_append]
    exact List.prefix_append _ _
  · intro key
    rw [counters_keys_of_represents hnow, counters_keys_of_represents hafter]
    intro hkey
    obtain ⟨call, hmem, hcall⟩ := hkey
    refine ⟨call, ?_, hcall⟩
    rw [rateCalls, List.filterMap_append]
    exact List.mem_append_left _ hmem

end Runs

/-- A session of the entity in `Auto` mode, admitted for the buckets of its one import. -/
theorem agent_session_admitted :
    ∃ call entity wasmBytes caps,
      (call, .session (.ok (newSession ⟨8⟩ 3 "agent" CapabilitiesConfig.all
          (.auto "gpt-4o-2024-11-20")))) ∈
        completedCalls (Mealy.trace (@EnforcementService.step sampleParser mixedService) .empty
          [.createCall 1 "agent" (some cryptoModule), .createResume 1 ⟨8⟩ 3, .createInsert 1]) ∧
      @EnforcementService.AdmittedBy sampleParser mixedService call
        (newSession ⟨8⟩ 3 "agent" CapabilitiesConfig.all (.auto "gpt-4o-2024-11-20"))
        entity wasmBytes caps :=
  (@stored_session_admitted sampleParser mixedService
    [.createCall 1 "agent" (some cryptoModule), .createResume 1 ⟨8⟩ 3, .createInsert 1] ⟨8⟩ _
    (by decide)).2

end HalEnforcement
