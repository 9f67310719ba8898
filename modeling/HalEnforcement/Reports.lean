import HalEnforcement.Api
import HalEnforcement.Sessions

/-!
# Reports of an entity's capabilities

`GET /api/v1/hal/capabilities`, `has_capability` and session creation each derive an entity's
capabilities on their own. They agree on unknown entities and on those in `Manual` mode; for an
entity in `Auto` mode the handler reports the YAML block, which the other two do not consult.
`reports_agree_iff` is the exact statement.
-/

namespace HalEnforcement

/-- The query `?entity_id=..` alone. -/
def entityQuery (entityId : String) : HashMap String String :=
  AList.singleton "entity_id" entityId

theorem entity_query_lookup (entityId : String) :
    (entityQuery entityId).lookup "entity_id" = some entityId := by
  simp [entityQuery, AList.singleton, AList.lookup]

section Reports

variable [Wasmparser]

/-- All paths that report the capabilities of an entity agree. -/
structure EnforcementService.ReportsAgree (service : EnforcementService) (entityId : String) :
    Prop where
  errors : ∀ params : HashMap String String, params.lookup "entity_id" = some entityId → ∀ cap,
    (∃ error, getCapabilities service params = .error error) ↔
      ∃ error, service.hasCapability entityId cap = .error error
  listed : ∀ params : HashMap String String, params.lookup "entity_id" = some entityId →
    ∀ response, getCapabilities service params = .ok response → ∀ cap,
      cap ∈ response.capabilities ↔ service.hasCapability entityId cap = .ok true
  sessions : ∀ params : HashMap String String, params.lookup "entity_id" = some entityId →
    ∀ response, getCapabilities service params = .ok response → ∀ analyzer events,
      ∀ session ∈ createdSessions
          (Mealy.trace (service.withAnalyzer analyzer).step .empty events),
        session.entityId = entityId → session.grantedCapabilities = response.capabilities

omit [Wasmparser] in
/-- What the handler answers for a listed entity, whatever its mode. -/
theorem get_capabilities_of_find {service : EnforcementService} {params : HashMap String String}
    {entityId : String} (hparams : params.lookup "entity_id" = some entityId)
    {entity : EntityConfig} (hfind : service.policy.findEntity entityId = some entity) :
    getCapabilities service params =
      .ok ⟨entityId, entity.capabilities.listGranted, entity.rateLimits, entity.quotas⟩ := by
  simp [getCapabilities, hparams, EnforcementService.getEntityConfig, hfind, bind, Except.bind]

omit [Wasmparser] in
theorem get_capabilities_of_not_found {service : EnforcementService}
    {params : HashMap String String} {entityId : String}
    (hparams : params.lookup "entity_id" = some entityId)
    (hfind : service.policy.findEntity entityId = none) :
    getCapabilities service params = .error (.entityNotFound entityId) := by
  simp [getCapabilities, hparams, EnforcementService.getEntityConfig, hfind, bind, Except.bind]

omit [Wasmparser] in
theorem has_capability_of_manual {service : EnforcementService} {entityId : String}
    {entity : EntityConfig} (hfind : service.policy.findEntity entityId = some entity)
    (hmode : entity.mode = .manual) (cap : String) :
    service.hasCapability entityId cap = .ok (entity.capabilities.hasCapability cap) := by
  simp [EnforcementService.hasCapability, hfind, bind, Except.bind, hmode]

/-- A session of a `Manual` entity grants its YAML block. -/
theorem granted_of_manual {service : EnforcementService} {session : Session}
    (hauthorized : service.Authorized session) {entity : EntityConfig}
    (hfind : service.policy.findEntity session.entityId = some entity)
    (hmode : entity.mode = .manual) :
    session.grantedCapabilities = entity.capabilities.listGranted := by
  obtain ⟨wasmBytes, caps, source, hauthorize, hsession⟩ := hauthorized
  obtain ⟨entity', hentity', _, hcaps⟩ :=
    resolve_capabilities_ok_iff.mp (authorize_ok_iff.mp hauthorize).1
  rw [hfind] at hentity'
  cases hentity'
  rw [EntityConfig.Resolves, hmode] at hcaps
  rw [hsession, ← hcaps]
  rfl

theorem reports_agree_of_manual {service : EnforcementService} {entityId : String}
    {entity : EntityConfig} (hfind : service.policy.findEntity entityId = some entity)
    (hmode : entity.mode = .manual) : service.ReportsAgree entityId where
  errors params hparams cap := by
    rw [get_capabilities_of_find hparams hfind, has_capability_of_manual hfind hmode]
    simp
  listed params hparams response hresponse cap := by
    rw [get_capabilities_of_find hparams hfind] at hresponse
    cases hresponse
    rw [has_capability_of_manual hfind hmode, mem_list_granted, Except.ok.injEq]
  sessions params hparams response hresponse analyzer events session hmem hid := by
    rw [get_capabilities_of_find hparams hfind] at hresponse
    cases hresponse
    have hauthorized := (authorized_run (service.withAnalyzer analyzer) events).created _ hmem
    exact granted_of_manual hauthorized (by rw [hid]; exact hfind) hmode

theorem reports_agree_of_not_found {service : EnforcementService} {entityId : String}
    (hfind : service.policy.findEntity entityId = none) : service.ReportsAgree entityId where
  errors params hparams cap := by
    rw [get_capabilities_of_not_found hparams hfind]
    simp [EnforcementService.hasCapability, hfind, bind, Except.bind]
  listed params hparams response hresponse := by
    rw [get_capabilities_of_not_found hparams hfind] at hresponse
    cases hresponse
  sessions params hparams response hresponse := by
    rw [get_capabilities_of_not_found hparams hfind] at hresponse
    cases hresponse

/-- `POST /api/v1/hal/access` answers with the list that `GET /api/v1/hal/capabilities` reports: it
has no bytes to offer, so it succeeds for `Manual` entities only. -/
theorem create_hal_access_reports {service : EnforcementService} {state after : ServiceState}
    {entityId : String} {sessionId : Uuid} {now : Int} {access : CreateAccessResponse}
    (haccess : createHalAccess service state entityId sessionId now = (.ok access, after))
    {params : HashMap String String} (hparams : params.lookup "entity_id" = some entityId) :
    ∃ report, getCapabilities service params = .ok report ∧
      access.grantedCapabilities = report.capabilities := by
  obtain ⟨session, hcreated, hgranted⟩ : ∃ session,
      service.createSessionWithWasm state entityId none sessionId now = (.ok session, after) ∧
        access.grantedCapabilities = session.grantedCapabilities := by
    unfold createHalAccess EnforcementService.createSession at haccess
    split at haccess
    · cases haccess
    · next session after' hcreated =>
        cases haccess
        exact ⟨session, hcreated, rfl⟩
  obtain ⟨caps, ⟨entity, hmem, hid, hcaps⟩, hlist⟩ := create_session_resolves hcreated
  have hfind := (find_entity_eq_some_iff service.well_formed).mpr ⟨hmem, hid⟩
  refine ⟨_, get_capabilities_of_find hparams hfind, ?_⟩
  rw [hgranted, hlist]
  cases hmode : entity.mode with
  | manual =>
      rw [EntityConfig.Resolves, hmode] at hcaps
      rw [hcaps]
  | auto model =>
      rw [EntityConfig.Resolves, hmode] at hcaps
      obtain ⟨bytes, hbytes, _⟩ := hcaps
      cases hbytes

/-- The reports agree for the entities that are unknown or in `Manual` mode, and for no other. -/
theorem reports_agree_iff (service : EnforcementService) (entityId : String) :
    service.ReportsAgree entityId ↔
      ∀ entity ∈ service.policy.entities, entity.id = entityId → entity.mode = .manual := by
  constructor
  · intro h entity hmem hid
    have hfind := (find_entity_eq_some_iff service.well_formed).mpr ⟨hmem, hid⟩
    cases hmode : entity.mode with
    | manual => rfl
    | auto model =>
        -- the handler lists the YAML block where `has_capability` has no answer
        obtain ⟨error, herror⟩ := (h.errors _ (entity_query_lookup entityId) "").mpr (by
          simp [EnforcementService.hasCapability, hfind, bind, Except.bind, hmode])
        rw [get_capabilities_of_find (entity_query_lookup entityId) hfind] at herror
        cases herror
  · intro h
    cases hfind : service.policy.findEntity entityId with
    | none => exact reports_agree_of_not_found hfind
    | some entity =>
        obtain ⟨hmem, hid⟩ := mem_of_find_entity hfind
        exact reports_agree_of_manual hfind (h entity hmem hid)

end Reports

/-- The handler reports `gpu` for the entity in `Auto` mode, from a block that grants nothing to its
sessions. -/
theorem mixed_service_reports_disagree :
    getCapabilities mixedService (entityQuery "agent") = .ok ⟨"agent", ["gpu"], ∅, ∅⟩ ∧
      mixedService.hasCapability "agent" "gpu" =
        .error (.policy "entity 'agent' is in auto mode; capabilities are per-session") ∧
      ¬ @EnforcementService.ReportsAgree sampleParser mixedService "agent" := by
  have hhandler : getCapabilities mixedService (entityQuery "agent") =
      .ok ⟨"agent", ["gpu"], ∅, ∅⟩ := by
    have hfind : mixedService.policy.findEntity "agent" = some
        { id := "agent", mode := .auto "gpt-4o-2024-11-20", capabilities := { gpu := true } } := rfl
    rw [get_capabilities_of_find (entity_query_lookup "agent") hfind]
    rfl
  have hcapability : mixedService.hasCapability "agent" "gpu" =
      .error (.policy "entity 'agent' is in auto mode; capabilities are per-session") := by decide
  refine ⟨hhandler, hcapability, fun h => ?_⟩
  let _ := sampleParser
  obtain ⟨error, herror⟩ := (h.errors _ (entity_query_lookup "agent") "gpu").mpr ⟨_, hcapability⟩
  rw [hhandler] at herror
  cases herror

end HalEnforcement
