import HalEnforcement.ImportCheck
import HalEnforcement.Service

/-!
# Admission of a workload

The specifications of `resolveCapabilities` and `authorize`, and from them
`create_session_with_wasm_exact`: when a session is created for a workload, what the session grants,
and that a failure leaves every lock's contents as they were.
-/

namespace HalEnforcement

/-- The capability set of the entity: the YAML block in `Manual` mode, in `Auto` mode the analyser's
verdict on this model and these bytes. -/
def EntityConfig.Resolves (entity : EntityConfig) (analyzer : LlmAnalyzer)
    (wasmBytes : Option Bytes) (caps : CapabilitiesConfig) : Prop :=
  match entity.mode with
  | .manual => caps = entity.capabilities
  | .auto model => ∃ bytes, wasmBytes = some bytes ∧ analyzer model bytes = .ok caps

/-- The `PolicySource` of a set resolved in this mode. -/
def EnforcementMode.source : EnforcementMode → PolicySource
  | .manual => .manual
  | .auto model => .auto model

/-- `entityId` is an entity of the policy and its capabilities resolve to `caps`. -/
def EnforcementService.Resolves (self : EnforcementService) (entityId : String)
    (wasmBytes : Option Bytes) (caps : CapabilitiesConfig) : Prop :=
  ∃ entity ∈ self.policy.entities, entity.id = entityId ∧
    entity.Resolves self.analyzer wasmBytes caps

theorem resolve_capabilities_ok_iff {service : EnforcementService} {entityId : String}
    {wasmBytes : Option Bytes} {caps : CapabilitiesConfig} {source : PolicySource} :
    service.resolveCapabilities entityId wasmBytes = .ok (caps, source) ↔
      ∃ entity, service.policy.findEntity entityId = some entity ∧
        source = entity.mode.source ∧ entity.Resolves service.analyzer wasmBytes caps := by
  unfold EnforcementService.resolveCapabilities EntityConfig.Resolves
  cases hfind : service.policy.findEntity entityId with
  | none => simp [bind, Except.bind]
  | some entity =>
      cases hmode : entity.mode with
      | manual => simp [bind, Except.bind, hmode, EnforcementMode.source, eq_comm, and_comm]
      | auto model =>
          cases wasmBytes with
          | none => simp [bind, Except.bind, hmode]
          | some bytes =>
              cases hverdict : service.analyzer model bytes with
              | error error => simp [bind, Except.bind, hmode, hverdict]
              | ok verdict =>
                  simp [bind, Except.bind, hmode, hverdict, EnforcementMode.source, eq_comm,
                    and_comm]

/-- Only one set resolves. -/
theorem resolves_unique {service : EnforcementService} {entityId : String}
    {wasmBytes : Option Bytes} {caps caps' : CapabilitiesConfig}
    (h : service.Resolves entityId wasmBytes caps)
    (h' : service.Resolves entityId wasmBytes caps') : caps = caps' := by
  obtain ⟨entity, hmem, hid, hcaps⟩ := h
  obtain ⟨entity', hmem', hid', hcaps'⟩ := h'
  obtain rfl : entity = entity' :=
    UniqueKeys.eq_of_key_eq service.well_formed.ids_nodup hmem hmem' (hid.trans hid'.symm)
  unfold EntityConfig.Resolves at hcaps hcaps'
  cases hmode : entity.mode with
  | manual =>
      rw [hmode] at hcaps hcaps'
      exact hcaps.trans hcaps'.symm
  | auto model =>
      rw [hmode] at hcaps hcaps'
      obtain ⟨bytes, hbytes, hverdict⟩ := hcaps
      obtain ⟨bytes', hbytes', hverdict'⟩ := hcaps'
      rw [hbytes] at hbytes'
      cases hbytes'
      rw [hverdict] at hverdict'
      cases hverdict'
      rfl

section Authorize

variable [Wasmparser]

/-- Without bytes, a listed entity in `Manual` mode is authorised for its YAML block, and no other
is authorised. -/
theorem authorize_without_bytes (service : EnforcementService) (entityId : String) :
    service.authorize entityId none =
      match service.policy.findEntity entityId with
      | none => .error (.entityNotFound entityId)
      | some entity =>
          match entity.mode with
          | .manual => .ok (entity.capabilities, .manual)
          | .auto _ => .error (.policy
              s!"entity '{entityId}' is in auto mode but no WASM bytes were supplied") := by
  unfold EnforcementService.authorize EnforcementService.resolveCapabilities
  cases service.policy.findEntity entityId with
  | none => rfl
  | some entity =>
      simp only [ok_or_else_some, bind, Except.bind]
      cases entity.mode with
      | manual => rfl
      | auto model => rfl

/-- The repeated lookup in `create_session_with_wasm` decides nothing. -/
theorem authorize_ok_iff {service : EnforcementService} {entityId : String}
    {wasmBytes : Option Bytes} {caps : CapabilitiesConfig} {source : PolicySource} :
    service.authorize entityId wasmBytes = .ok (caps, source) ↔
      service.resolveCapabilities entityId wasmBytes = .ok (caps, source) ∧
        ∀ bytes, wasmBytes = some bytes → ∃ checked, checkWorkload bytes caps = .ok checked := by
  have hfind : ∀ resolved, service.resolveCapabilities entityId wasmBytes = .ok resolved →
      ∃ entity, okOrElse (service.policy.findEntity entityId) (.entityNotFound entityId) =
        .ok entity := by
    intro hsplit h
    obtain ⟨caps, source⟩ := hsplit
    obtain ⟨entity, hentity, _⟩ := resolve_capabilities_ok_iff.mp h
    exact ⟨entity, by rw [hentity]; rfl⟩
  -- a successful resolution has found the entity the first lookup asks for
  simp only [EnforcementService.authorize, bind_eq_ok]
  cases wasmBytes with
  | none =>
      constructor
      · intro hsplit
        obtain ⟨_, _, ⟨caps', source'⟩, hresolve, h⟩ := hsplit
        cases h
        exact ⟨hresolve, nofun⟩
      · intro h
        obtain ⟨hresolve, _⟩ := h
        obtain ⟨entity, hentity⟩ := hfind _ hresolve
        exact ⟨entity, hentity, _, hresolve, rfl⟩
  | some bytes =>
      simp only [bind_eq_ok, Option.some.injEq, forall_eq']
      constructor
      · intro hsplit
        obtain ⟨_, _, ⟨caps', source'⟩, hresolve, checked, hchecked, h⟩ := hsplit
        cases h
        exact ⟨hresolve, checked, hchecked⟩
      · intro h
        obtain ⟨hresolve, checked, hchecked⟩ := h
        obtain ⟨entity, hentity⟩ := hfind _ hresolve
        exact ⟨entity, hentity, _, hresolve, checked, hchecked, rfl⟩

theorem create_session_ok_iff {service : EnforcementService} {state after : ServiceState}
    {entityId : String} {wasmBytes : Option Bytes} {sessionId : Uuid} {now : Int}
    {session : Session} :
    service.createSessionWithWasm state entityId wasmBytes sessionId now = (.ok session, after) ↔
      ∃ caps source, service.authorize entityId wasmBytes = .ok (caps, source) ∧
        session = newSession sessionId now entityId caps source ∧
        after = state.insertSession session := by
  unfold EnforcementService.createSessionWithWasm
  cases hauthorize : service.authorize entityId wasmBytes with
  | error error => simp
  | ok resolved =>
      obtain ⟨caps, source⟩ := resolved
      simp only [Prod.mk.injEq, Except.ok.injEq]
      constructor
      · rintro ⟨rfl, rfl⟩
        exact ⟨caps, source, ⟨rfl, rfl⟩, rfl, rfl⟩
      · rintro ⟨_, _, ⟨rfl, rfl⟩, rfl, rfl⟩
        exact ⟨rfl, rfl⟩

/-- A refused creation changes nothing. -/
theorem create_session_error {service : EnforcementService} {state after : ServiceState}
    {entityId : String} {wasmBytes : Option Bytes} {sessionId : Uuid} {now : Int}
    {error : EnforcementError}
    (h : service.createSessionWithWasm state entityId wasmBytes sessionId now =
      (.error error, after)) : after = state := by
  unfold EnforcementService.createSessionWithWasm at h
  split at h
  · cases h
    rfl
  · cases h

/-- A created session grants what its entity's capabilities resolved to. -/
theorem create_session_resolves {service : EnforcementService} {state after : ServiceState}
    {entityId : String} {wasmBytes : Option Bytes} {sessionId : Uuid} {now : Int}
    {session : Session}
    (h : service.createSessionWithWasm state entityId wasmBytes sessionId now =
      (.ok session, after)) :
    ∃ caps, service.Resolves entityId wasmBytes caps ∧
      session.grantedCapabilities = caps.listGranted := by
  obtain ⟨caps, source, hauthorize, rfl, _⟩ := create_session_ok_iff.mp h
  obtain ⟨entity, hentity, _, hcaps⟩ :=
    resolve_capabilities_ok_iff.mp (authorize_ok_iff.mp hauthorize).1
  obtain ⟨hmem, hid⟩ := mem_of_find_entity hentity
  exact ⟨caps, ⟨entity, hmem, hid, hcaps⟩, rfl⟩

/-- Admission is exact: a workload gets a session when its entity is listed, the capabilities
resolve, the binary parses and every core import that maps to a bucket finds it in the list the
session grants. -/
theorem create_session_with_wasm_exact (service : EnforcementService) (state : ServiceState)
    (entityId : String) (bytes : Bytes) (sessionId : Uuid) (now : Int) :
    ((∃ session after, service.createSessionWithWasm state entityId (some bytes) sessionId now =
        (.ok session, after)) ↔
      ∃ caps, service.Resolves entityId (some bytes) caps ∧ Parses bytes ∧
        ∀ imp ∈ declaredImports bytes, ∀ bucket,
          importToCapability imp.module imp.name = some bucket → bucket ∈ caps.listGranted) ∧
    (∀ session after, service.createSessionWithWasm state entityId (some bytes) sessionId now =
        (.ok session, after) →
      ∀ caps, service.Resolves entityId (some bytes) caps →
        session.grantedCapabilities = caps.listGranted ∧ session.grantedCapabilities.Nodup ∧
          ∀ cap, cap ∈ session.grantedCapabilities ↔ caps.hasCapability cap = true) ∧
    (∀ error after, service.createSessionWithWasm state entityId (some bytes) sessionId now =
        (.error error, after) → after = state) := by
  refine ⟨?_, ?_, fun error after h => create_session_error h⟩
  · simp only [create_session_ok_iff, authorize_ok_iff, resolve_capabilities_ok_iff,
      Option.some.injEq, forall_eq', check_workload_ok_iff, covers_declared_iff,
      mem_list_granted]
    constructor
    · intro h
      obtain ⟨_, _, caps, _, ⟨⟨entity, hentity, _, hcaps⟩, _, hparses, hcovers, _⟩, _⟩ := h
      obtain ⟨hmem, hid⟩ := mem_of_find_entity hentity
      exact ⟨caps, ⟨entity, hmem, hid, hcaps⟩, hparses, hcovers⟩
    · intro h
      obtain ⟨caps, ⟨entity, hmem, hid, hcaps⟩, hparses, hcovers⟩ := h
      have hentity := (find_entity_eq_some_iff service.well_formed).mpr ⟨hmem, hid⟩
      exact ⟨_, _, caps, _, ⟨⟨entity, hentity, rfl, hcaps⟩, _, hparses, hcovers, rfl⟩, rfl, rfl⟩
  · intro session after h caps hcaps
    obtain ⟨caps', hcaps', hgranted⟩ := create_session_resolves h
    obtain rfl := resolves_unique hcaps hcaps'
    rw [hgranted]
    exact ⟨rfl, list_granted_nodup caps, fun _ => mem_list_granted⟩

end Authorize

end HalEnforcement
