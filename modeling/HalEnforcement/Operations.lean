import HalEnforcement.Admission
import HalEnforcement.Library.Mealy

/-!
# Sequences of service operations

The service as a machine that is called one operation at a time. A `Call` carries the clock reading
and the fresh id the operation would draw, so that two services can be run on the same ones.

`perform_eq_of_similar` is the comparison rule: services with the same analyser whose policies
answer every lookup alike, except for the YAML block of an `Auto` entity, perform every operation
alike.
-/

namespace HalEnforcement

/-- The service operations, with their arguments. -/
inductive Operation where
  | resolveCapabilities (entityId : String) (wasmBytes : Option Bytes)
  | createSession (entityId : String)
  | createSessionWithWasm (entityId : String) (wasmBytes : Option Bytes)
  | getSession (sessionId : Uuid)
  | hasCapability (entityId capability : String)
  | checkRateLimit (entityId interface : String)
  | audit (entityId : String) (sessionId : Uuid) (interface operation : String) (success : Bool)
      (error : Option String)
  | getAuditLog (entityId : Option String) (limit : Nat)
  | activeSessionsCount
  deriving DecidableEq

/-- An operation with the readings it takes of `Utc::now()` and `Uuid::new_v4()`. -/
structure Call where
  operation : Operation
  now : Int
  freshId : Uuid
  deriving DecidableEq

/-- What an operation returns. -/
inductive Outcome where
  | capabilities (result : Result (CapabilitiesConfig × PolicySource))
  | session (result : Result Session)
  | capability (result : Result Bool)
  | rateLimit (result : Result Unit)
  | audited
  | auditLog (events : List AuditEvent)
  | activeSessions (count : Nat)
  deriving DecidableEq

/-- The entity an operation names. -/
def Operation.entityId : Operation → Option String
  | .resolveCapabilities entityId _ => some entityId
  | .createSession entityId => some entityId
  | .createSessionWithWasm entityId _ => some entityId
  | .getSession _ => none
  | .hasCapability entityId _ => some entityId
  | .checkRateLimit entityId _ => some entityId
  | .audit entityId _ _ _ _ _ => some entityId
  | .getAuditLog entityId _ => entityId
  | .activeSessionsCount => none

/-- One operation of the service. -/
def EnforcementService.perform [Wasmparser] (self : EnforcementService) (state : ServiceState)
    (call : Call) : Outcome × ServiceState :=
  match call.operation with
  | .resolveCapabilities entityId wasmBytes =>
      (.capabilities (self.resolveCapabilities entityId wasmBytes), state)
  | .createSession entityId =>
      (self.createSession state entityId call.freshId call.now).map .session id
  | .createSessionWithWasm entityId wasmBytes =>
      (self.createSessionWithWasm state entityId wasmBytes call.freshId call.now).map .session id
  | .getSession sessionId => (.session (state.getSession sessionId call.now), state)
  | .hasCapability entityId capability =>
      (.capability (self.hasCapability entityId capability), state)
  | .checkRateLimit entityId interface =>
      (self.checkRateLimit state entityId interface call.now).map .rateLimit id
  | .audit entityId sessionId interface operation success error =>
      (.audited, state.pushAuditEvent
        (newAuditEvent entityId sessionId interface operation success error call.now))
  | .getAuditLog entityId limit => (.auditLog (state.getAuditLog entityId limit), state)
  | .activeSessionsCount => (.activeSessions (state.activeSessionsCount call.now), state)

theorem new_policy {policy : PolicyConfig} {service : EnforcementService}
    (h : EnforcementService.new policy = .ok service) : service.policy = policy := by
  unfold EnforcementService.new at h
  split at h
  · cases h
  · cases h
    rfl

/-- `new` builds a service for the policies `validate` accepts. -/
theorem new_ok_iff {policy : PolicyConfig} :
    (∃ service, EnforcementService.new policy = .ok service) ↔ policy.validate = .ok () := by
  constructor
  · intro hsplit
    obtain ⟨service, h⟩ := hsplit
    rw [← new_policy h]
    exact service.validated
  · intro h
    unfold EnforcementService.new
    split
    · next error herror =>
        rw [herror] at h
        cases h
    · exact ⟨_, rfl⟩

/-- A policy with an entity in each mode. The YAML block of the second is not consulted. -/
def mixedPolicy : PolicyConfig where
  version := "1.0"
  entities :=
    [{ id := "sensor", capabilities := { crypto := true, random := true } },
     { id := "agent", mode := .auto "gpt-4o-2024-11-20", capabilities := { gpu := true } }]

/-- The service of this policy, with the default analyser. -/
def mixedService : EnforcementService where
  policy := mixedPolicy
  analyzer := mockAnalyzer
  validated := by decide

/-! ## Services that perform alike -/

/-- The same entity, up to the `capabilities` block of an entity in `Auto` mode. -/
structure EntityConfig.Similar (left right : EntityConfig) : Prop where
  others : right = { left with capabilities := right.capabilities }
  manual : left.mode = .manual → left.capabilities = right.capabilities

theorem EntityConfig.Similar.refl (entity : EntityConfig) : entity.Similar entity :=
  ⟨rfl, fun _ => rfl⟩

theorem EntityConfig.Similar.id_eq {left right : EntityConfig} (h : left.Similar right) :
    right.id = left.id := by
  rw [h.others]

theorem EntityConfig.Similar.mode_eq {left right : EntityConfig} (h : left.Similar right) :
    right.mode = left.mode := by
  rw [h.others]

theorem EntityConfig.Similar.rate_limits_eq {left right : EntityConfig}
    (h : left.Similar right) : right.rateLimits = left.rateLimits := by
  rw [h.others]

/-- Every lookup finds similar entities, or none, in both policies. -/
structure PolicyConfig.Similar (left right : PolicyConfig) : Prop where
  settings : left.settings.defaultRateLimit = right.settings.defaultRateLimit
  find : ∀ id, Option.Rel EntityConfig.Similar (left.findEntity id) (right.findEntity id)

theorem PolicyConfig.Similar.lookup {left right : PolicyConfig} (h : left.Similar right)
    (id : String) :
    (left.findEntity id = none ∧ right.findEntity id = none) ∨
      ∃ entity other, left.findEntity id = some entity ∧ right.findEntity id = some other ∧
        entity.Similar other := by
  have hrel := h.find id
  generalize left.findEntity id = found at hrel ⊢
  generalize right.findEntity id = found' at hrel ⊢
  cases hrel with
  | none => exact .inl ⟨rfl, rfl⟩
  | some hsimilar => exact .inr ⟨_, _, rfl, rfl, hsimilar⟩

section Similar

variable {left right : EnforcementService} (h : left.policy.Similar right.policy)
include h

theorem has_capability_eq_of_similar (entityId capability : String) :
    left.hasCapability entityId capability = right.hasCapability entityId capability := by
  unfold EnforcementService.hasCapability
  rcases h.lookup entityId with ⟨hleft, hright⟩ | ⟨entity, other, hleft, hright, hsimilar⟩
  · rw [hleft, hright]
  · rw [hleft, hright]
    simp only [ok_or_else_some, bind, Except.bind, hsimilar.mode_eq]
    cases hmode : entity.mode with
    | manual => rw [hsimilar.manual hmode]
    | auto model => rfl

theorem check_rate_limit_eq_of_similar (state : ServiceState) (entityId interface : String)
    (now : Int) : left.checkRateLimit state entityId interface now =
      right.checkRateLimit state entityId interface now := by
  unfold EnforcementService.checkRateLimit PolicyConfig.checkRateLimit
  rcases h.lookup entityId with ⟨hleft, hright⟩ | ⟨entity, other, hleft, hright, hsimilar⟩
  · rw [hleft, hright]
  · have hlimit :
        left.policy.rateLimit entity interface = right.policy.rateLimit other interface := by
      unfold PolicyConfig.rateLimit
      rw [hsimilar.rate_limits_eq, h.settings]
    rw [hleft, hright]
    simp only [hlimit]

variable (hanalyzer : left.analyzer = right.analyzer)
include hanalyzer

theorem resolve_capabilities_eq_of_similar (entityId : String) (wasmBytes : Option Bytes) :
    left.resolveCapabilities entityId wasmBytes =
      right.resolveCapabilities entityId wasmBytes := by
  unfold EnforcementService.resolveCapabilities
  rcases h.lookup entityId with ⟨hleft, hright⟩ | ⟨entity, other, hleft, hright, hsimilar⟩
  · rw [hleft, hright]
    rfl
  · rw [hleft, hright, hanalyzer]
    simp only [ok_or_else_some, bind, Except.bind, hsimilar.mode_eq]
    cases hmode : entity.mode with
    | manual => rw [hsimilar.manual hmode]
    | auto model => rfl

theorem create_session_eq_of_similar [Wasmparser] (state : ServiceState) (entityId : String)
    (wasmBytes : Option Bytes) (sessionId : Uuid) (now : Int) :
    left.createSessionWithWasm state entityId wasmBytes sessionId now =
      right.createSessionWithWasm state entityId wasmBytes sessionId now := by
  have hauthorize : left.authorize entityId wasmBytes = right.authorize entityId wasmBytes := by
    unfold EnforcementService.authorize
    rw [resolve_capabilities_eq_of_similar h hanalyzer]
    rcases h.lookup entityId with ⟨hleft, hright⟩ | ⟨entity, other, hleft, hright, _⟩
    · rw [hleft, hright]
    · rw [hleft, hright]
      rfl
  unfold EnforcementService.createSessionWithWasm
  rw [hauthorize]

/-- Services that no lookup tells apart perform every operation alike. -/
theorem perform_eq_of_similar [Wasmparser] : left.perform = right.perform := by
  funext state call
  unfold EnforcementService.perform
  cases call.operation with
  | resolveCapabilities entityId wasmBytes =>
      simp only [resolve_capabilities_eq_of_similar h hanalyzer]
  | createSession entityId =>
      simp only [EnforcementService.createSession, create_session_eq_of_similar h hanalyzer]
  | createSessionWithWasm entityId wasmBytes =>
      simp only [create_session_eq_of_similar h hanalyzer]
  | hasCapability entityId capability => simp only [has_capability_eq_of_similar h]
  | checkRateLimit entityId interface => simp only [check_rate_limit_eq_of_similar h]
  | getSession | audit | getAuditLog | activeSessionsCount => rfl

end Similar

end HalEnforcement
