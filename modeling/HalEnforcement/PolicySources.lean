import HalEnforcement.Operations

/-!
# Manual and Auto policy sources

An entity's capabilities come either from its YAML block or from the analyser. The two theorems that
`policy_sources_do_not_interfere` assembles compare two runs of the whole service: changing the YAML
blocks of `Auto` entities changes no outcome at all, and changing the analyser changes no outcome of
an operation that names a `Manual` entity.
-/

namespace HalEnforcement

/-- Two policies that are identical except for the `capabilities` blocks of `Auto` entities. -/
structure PolicyConfig.SameExceptAutoBlocks (left right : PolicyConfig) : Prop where
  version : left.version = right.version
  settings : left.settings = right.settings
  entities : List.Forall₂ EntityConfig.Similar left.entities right.entities

/-- The policy has a `Manual` entity of this id. -/
def PolicyConfig.Manual (policy : PolicyConfig) (entityId : String) : Prop :=
  ∃ entity ∈ policy.entities, entity.id = entityId ∧ entity.mode = .manual

/-- The operation names a `Manual` entity of the policy. -/
def PolicyConfig.NamesManual (policy : PolicyConfig) (operation : Operation) : Prop :=
  ∃ entityId, operation.entityId = some entityId ∧ policy.Manual entityId

/-! ## Two policies -/

theorem find_similar {left right : List EntityConfig}
    (h : List.Forall₂ EntityConfig.Similar left right) (id : String) :
    Option.Rel EntityConfig.Similar (left.find? fun entity => decide (entity.id = id))
      (right.find? fun entity => decide (entity.id = id)) := by
  induction h with
  | nil => exact .none
  | @cons entity other _ _ hsimilar _ ih =>
      by_cases hid : entity.id = id
      · rw [List.find?_cons_of_pos (by simpa using hid),
          List.find?_cons_of_pos (by simpa [hsimilar.id_eq] using hid)]
        exact .some hsimilar
      · rw [List.find?_cons_of_neg (by simpa using hid),
          List.find?_cons_of_neg (by simpa [hsimilar.id_eq] using hid)]
        exact ih

theorem PolicyConfig.SameExceptAutoBlocks.similar {left right : PolicyConfig}
    (h : left.SameExceptAutoBlocks right) : left.Similar right where
  settings := congrArg GlobalSettings.defaultRateLimit h.settings
  find := find_similar h.entities

/-! ## Two analysers -/

/-- The parts of the state that no analyser's verdict reaches. -/
structure ServiceState.SameRecords (left right : ServiceState) : Prop where
  auditLog : left.auditLog = right.auditLog
  operationCounters : left.operationCounters = right.operationCounters

theorem ServiceState.SameRecords.refl (state : ServiceState) : state.SameRecords state :=
  ⟨rfl, rfl⟩

theorem ServiceState.SameRecords.symm {left right : ServiceState} (h : left.SameRecords right) :
    right.SameRecords left :=
  ⟨h.auditLog.symm, h.operationCounters.symm⟩

theorem ServiceState.SameRecords.trans {first second third : ServiceState}
    (h : first.SameRecords second) (h' : second.SameRecords third) : first.SameRecords third :=
  ⟨h.auditLog.trans h'.auditLog, h.operationCounters.trans h'.operationCounters⟩

/-- The analyser is not asked about a `Manual` entity. -/
theorem resolve_capabilities_manual (service : EnforcementService) (analyzer : LlmAnalyzer)
    {entityId : String} (hmanual : service.policy.Manual entityId) (wasmBytes : Option Bytes) :
    (service.withAnalyzer analyzer).resolveCapabilities entityId wasmBytes =
      service.resolveCapabilities entityId wasmBytes := by
  obtain ⟨entity, hmem, hid, hmode⟩ := hmanual
  have hfind := (find_entity_eq_some_iff service.well_formed).mpr ⟨hmem, hid⟩
  simp only [EnforcementService.resolveCapabilities, EnforcementService.withAnalyzer, hfind,
    ok_or_else_some, bind, Except.bind, hmode]

section Analysers

variable [Wasmparser]

/-- Session creation keeps the audit log and the counters. -/
theorem create_session_same_records (service : EnforcementService) (state : ServiceState)
    (entityId : String) (wasmBytes : Option Bytes) (sessionId : Uuid) (now : Int) :
    state.SameRecords
      (service.createSessionWithWasm state entityId wasmBytes sessionId now).2 := by
  unfold EnforcementService.createSessionWithWasm
  split
  · exact .refl state
  · exact ⟨rfl, rfl⟩

/-- What a creation answers does not depend on the state, nor on the analyser if the entity is in
`Manual` mode. -/
theorem create_session_manual (service : EnforcementService) (analyzer : LlmAnalyzer)
    (state state' : ServiceState) {entityId : String}
    (hmanual : service.policy.Manual entityId) (wasmBytes : Option Bytes) (sessionId : Uuid)
    (now : Int) :
    ((service.withAnalyzer analyzer).createSessionWithWasm state entityId wasmBytes sessionId
      now).1 = (service.createSessionWithWasm state' entityId wasmBytes sessionId now).1 := by
  have hauthorize : (service.withAnalyzer analyzer).authorize entityId wasmBytes =
      service.authorize entityId wasmBytes := by
    unfold EnforcementService.authorize
    rw [resolve_capabilities_manual service analyzer hmanual]
    rfl
  unfold EnforcementService.createSessionWithWasm
  rw [hauthorize]
  cases service.authorize entityId wasmBytes with
  | error error => rfl
  | ok resolved => rfl

/-- One operation, under any two analysers. -/
theorem perform_agrees (service : EnforcementService) (analyzer analyzer' : LlmAnalyzer)
    {left right : ServiceState} (h : left.SameRecords right) (call : Call) :
    (service.policy.NamesManual call.operation →
      ((service.withAnalyzer analyzer).perform left call).1 =
        ((service.withAnalyzer analyzer').perform right call).1) ∧
    ((service.withAnalyzer analyzer).perform left call).2.SameRecords
      ((service.withAnalyzer analyzer').perform right call).2 := by
  have hcreated : ∀ entityId wasmBytes,
      ((service.withAnalyzer analyzer).createSessionWithWasm left entityId wasmBytes call.freshId
        call.now).2.SameRecords ((service.withAnalyzer analyzer').createSessionWithWasm right
          entityId wasmBytes call.freshId call.now).2 := by
    intro entityId wasmBytes
    exact ((create_session_same_records _ _ _ _ _ _).symm.trans h).trans
      (create_session_same_records _ _ _ _ _ _)
  have hanswered : ∀ entityId wasmBytes, service.policy.Manual entityId →
      ((service.withAnalyzer analyzer).createSessionWithWasm left entityId wasmBytes call.freshId
        call.now).1 = ((service.withAnalyzer analyzer').createSessionWithWasm right entityId
          wasmBytes call.freshId call.now).1 := by
    intro entityId wasmBytes hmanual
    exact (create_session_manual service _ _ right hmanual _ _ _).trans
      (create_session_manual service _ _ right hmanual _ _ _).symm
  unfold EnforcementService.perform
  cases hoperation : call.operation with
  | resolveCapabilities entityId wasmBytes =>
      refine ⟨?_, h⟩
      intro h
      obtain ⟨_, hnamed, hmanual⟩ := h
      cases hnamed
      simp only [resolve_capabilities_manual service _ hmanual]
  | createSession entityId =>
      -- the stored sessions may differ, which only `get_session` and the count can see
      refine ⟨?_, hcreated entityId none⟩
      intro h
      obtain ⟨_, hnamed, hmanual⟩ := h
      cases hnamed
      exact congrArg Outcome.session (hanswered _ _ hmanual)
  | createSessionWithWasm entityId wasmBytes =>
      refine ⟨?_, hcreated entityId wasmBytes⟩
      intro h
      obtain ⟨_, hnamed, hmanual⟩ := h
      cases hnamed
      exact congrArg Outcome.session (hanswered _ _ hmanual)
  | getSession sessionId =>
      refine ⟨?_, h⟩
      intro h
      obtain ⟨_, hnamed, _⟩ := h
      cases hnamed
  | hasCapability entityId capability => exact ⟨fun _ => rfl, h⟩
  | checkRateLimit entityId interface =>
      simp only [EnforcementService.checkRateLimit, h.operationCounters]
      exact ⟨fun _ => rfl, h.auditLog, rfl⟩
  | audit entityId sessionId interface operation success error =>
      refine ⟨fun _ => rfl, ?_, h.operationCounters⟩
      simp only [ServiceState.pushAuditEvent, h.auditLog]
  | getAuditLog entityId limit =>
      refine ⟨fun _ => ?_, h⟩
      simp only [ServiceState.getAuditLog, h.auditLog]
  | activeSessionsCount =>
      refine ⟨?_, h⟩
      intro h
      obtain ⟨_, hnamed, _⟩ := h
      cases hnamed

/-- Without bytes, an `Auto` entity gets no session. -/
theorem create_session_auto (service : EnforcementService) {entity : EntityConfig}
    (hmem : entity ∈ service.policy.entities) {model : String} (hmode : entity.mode = .auto model)
    (state : ServiceState) (sessionId : Uuid) (now : Int) :
    service.createSession state entity.id sessionId now =
      (.error (.policy
        s!"entity '{entity.id}' is in auto mode but no WASM bytes were supplied"), state) := by
  have hfind := (find_entity_eq_some_iff service.well_formed).mpr ⟨hmem, rfl⟩
  simp only [EnforcementService.createSession, EnforcementService.createSessionWithWasm,
    EnforcementService.authorize, EnforcementService.resolveCapabilities, hfind,
    ok_or_else_some, ok_or_else_none, bind, Except.bind, hmode]

/-- The YAML blocks of `Auto` entities are not consulted, the analyser is not consulted for
`Manual` entities, and an `Auto` entity gets no session without bytes. -/
theorem policy_sources_do_not_interfere (service service' : EnforcementService)
    (h : service.policy.SameExceptAutoBlocks service'.policy) (calls : List Call) :
    (∀ analyzer,
      Mealy.trace (service.withAnalyzer analyzer).perform .empty calls =
        Mealy.trace (service'.withAnalyzer analyzer).perform .empty calls) ∧
    (∀ analyzer analyzer', List.Forall₂
      (fun left right => left.1 = right.1 ∧
        (service.policy.NamesManual left.1.operation → left.2 = right.2))
      (Mealy.trace (service.withAnalyzer analyzer).perform .empty calls)
      (Mealy.trace (service.withAnalyzer analyzer').perform .empty calls)) ∧
    ∀ entity ∈ service.policy.entities, ∀ model, entity.mode = .auto model →
      ∀ analyzer state now freshId,
        (service.withAnalyzer analyzer).perform state ⟨.createSession entity.id, now, freshId⟩ =
          (.session (.error (.policy
            s!"entity '{entity.id}' is in auto mode but no WASM bytes were supplied")), state) := by
  refine ⟨fun analyzer => ?_, fun analyzer analyzer' => ?_, ?_⟩
  · have hsimilar : (service.withAnalyzer analyzer).policy.Similar
        (service'.withAnalyzer analyzer).policy := h.similar
    rw [perform_eq_of_similar hsimilar rfl]
  · exact Mealy.trace_forall₂_of_simulation (R := ServiceState.SameRecords)
      (Q := fun call left right => service.policy.NamesManual call.operation → left = right)
      (.refl .empty) (fun _ _ call hrecords => perform_agrees service _ _ hrecords call) calls
  · intro entity hmem model hmode analyzer state now freshId
    simp only [EnforcementService.perform,
      create_session_auto (service.withAnalyzer analyzer) hmem hmode]
    rfl

end Analysers

/-- `mixedService` with an empty block for its `Auto` entity. -/
def blocklessService : EnforcementService where
  policy :=
    { mixedPolicy with
      entities := mixedPolicy.entities.map fun entity =>
        if entity.mode = .manual then entity else { entity with capabilities := .none } }
  analyzer := mockAnalyzer
  validated := by decide

theorem mixed_service_without_block :
    Mealy.trace (@EnforcementService.perform sampleParser mixedService) .empty
        [⟨.createSessionWithWasm "agent" (some cryptoModule), 0, ⟨7⟩⟩, ⟨.getSession ⟨7⟩, 1, ⟨8⟩⟩] =
      Mealy.trace (@EnforcementService.perform sampleParser blocklessService) .empty
        [⟨.createSessionWithWasm "agent" (some cryptoModule), 0, ⟨7⟩⟩,
          ⟨.getSession ⟨7⟩, 1, ⟨8⟩⟩] :=
  (@policy_sources_do_not_interfere sampleParser mixedService blocklessService
    ⟨rfl, rfl, .cons (.refl _) (.cons ⟨rfl, nofun⟩ .nil)⟩ _).1 mockAnalyzer

end HalEnforcement
