import HalEnforcement.Loading
import HalEnforcement.Refusals
import HalEnforcement.Reports

/-!
# Freezing a verdict

`examples/freeze_policy.rs` asks the analyser once and writes its verdict into a policy file with
one entity in `Manual` mode, so that no model is asked when the policy is enforced.
`frozen_file_agrees` says what this preserves and what it does not. The service loaded from the file
answers every sequence of calls for this entity and this workload as the service with the analyser
does, except for the source it reports, as long as none of them is `create_session` or
`has_capability`: these two fail in `Auto` mode and answer from the frozen set in `Manual` mode. The
file does not carry the limits of the entity, so they must be the default ones.
-/

namespace HalEnforcement

/-! ## The frozen policy -/

/-- The text `freeze_policy` writes; `generated` is the time of the run. -/
def frozenYaml (wasmPath model generated entityId : String) (granted : List String) : String :=
  "version: \"1.0\"\n" ++
  "# Frozen from LLM verdict — see audit trail below.\n" ++
  s!"# source_wasm: {wasmPath}\n# model: {model}\n# generated: {generated}\n" ++
  "entities:\n" ++
  s!"  - id: \"{entityId}\"\n" ++
  s!"    description: \"Frozen from {wasmPath}\"\n" ++
  "    capabilities:\n" ++
  String.join (granted.map fun c => s!"      {c}: true\n") ++
  if granted.isEmpty then "      \x7b\x7d\n" else ""

/-- The policy this text stands for. -/
def frozenPolicy (wasmPath entityId : String) (granted : List String) : PolicyConfig where
  version := "1.0"
  entities :=
    [{ id := entityId
       description := s!"Frozen from {wasmPath}"
       capabilities := .granting granted }]

/-- Listing a set and granting the list gives the set back. -/
theorem granting_list_granted (caps : CapabilitiesConfig) :
    CapabilitiesConfig.granting caps.listGranted = caps := by
  have hmem : ∀ cap, decide (cap ∈ caps.listGranted) = caps.hasCapability cap := by
    intro cap
    rw [Bool.eq_iff_iff, decide_eq_true_iff]
    exact mem_list_granted
  simp only [CapabilitiesConfig.granting, hmem]
  rfl

theorem frozen_well_formed (wasmPath : String) {entityId : String} (granted : List String)
    (hid : entityId ≠ "") : (frozenPolicy wasmPath entityId granted).WellFormed where
  version_ne_empty := by simp [frozenPolicy]
  ids_nodup := List.nodup_singleton _
  entities := by
    intro entity hmem
    obtain rfl := List.mem_singleton.mp hmem
    exact ⟨hid, fun interface limit hlookup => by simp at hlookup⟩

theorem frozen_find_entity (wasmPath entityId : String) (granted : List String) :
    (frozenPolicy wasmPath entityId granted).findEntity entityId =
      some { id := entityId, description := s!"Frozen from {wasmPath}",
             capabilities := .granting granted } := by
  simp [frozenPolicy, PolicyConfig.findEntity]

/-! ## Agreement up to the source -/

/-- The session, without where its grant comes from. -/
def Session.withoutSource (session : Session) : Session := { session with policySource := .manual }

theorem session_id_eq_of_same {session session' : Session}
    (h : session.withoutSource = session'.withoutSource) :
    session.sessionId = session'.sessionId := by
  have hid := congrArg Session.sessionId h
  exact hid

theorem expires_at_eq_of_same {session session' : Session}
    (h : session.withoutSource = session'.withoutSource) :
    session.expiresAt = session'.expiresAt := by
  have hexpires := congrArg Session.expiresAt h
  exact hexpires

/-- The outcome, without the source of a set or of a session. -/
def Outcome.withoutSource : Outcome → Outcome
  | .capabilities result => .capabilities (result.map fun resolved => (resolved.1, .manual))
  | .session result => .session (result.map Session.withoutSource)
  | outcome => outcome

/-- An operation for this entity, with this workload where it takes one. It is none of
`create_session` and `has_capability`, which fail in `Auto` mode. -/
def Operation.isFor (entityId : String) (wasm : Bytes) : Operation → Prop
  | .resolveCapabilities id wasmBytes => id = entityId ∧ wasmBytes = some wasm
  | .createSession _ => False
  | .createSessionWithWasm id wasmBytes => id = entityId ∧ wasmBytes = some wasm
  | .hasCapability _ _ => False
  | .checkRateLimit id _ => id = entityId
  | .getSession _ => True
  | .audit .. => True
  | .getAuditLog _ _ => True
  | .activeSessionsCount => True

/-- The contents of the locks differ in the sources of the sessions only. -/
structure SameUpToSource (left right : ServiceState) : Prop where
  sessions : ∀ sessionId, (left.sessions.lookup sessionId).map Session.withoutSource =
    (right.sessions.lookup sessionId).map Session.withoutSource
  auditLog : left.auditLog = right.auditLog
  counters : left.operationCounters = right.operationCounters

section Same

variable {left right : ServiceState} (h : SameUpToSource left right)
include h

theorem SameUpToSource.insert {made made' : Session}
    (hmade : made.withoutSource = made'.withoutSource) :
    SameUpToSource (left.insertSession made) (right.insertSession made') where
  sessions sessionId := by
    rw [lookup_insert_session, lookup_insert_session, session_id_eq_of_same hmade]
    split
    · exact congrArg some hmade
    · exact h.sessions sessionId
  auditLog := h.auditLog
  counters := h.counters

/-- A stored session has its counterpart under the same id. -/
theorem SameUpToSource.lookup (sessionId : Uuid) :
    left.sessions.lookup sessionId = none ∧ right.sessions.lookup sessionId = none ∨
      ∃ session session', left.sessions.lookup sessionId = some session ∧
        right.sessions.lookup sessionId = some session' ∧
        session.withoutSource = session'.withoutSource := by
  have hsame := h.sessions sessionId
  cases hleft : left.sessions.lookup sessionId with
  | none =>
      rw [hleft, Option.map_none, eq_comm, Option.map_eq_none_iff] at hsame
      exact .inl ⟨rfl, hsame⟩
  | some session =>
      rw [hleft, Option.map_some, eq_comm, Option.map_eq_some_iff] at hsame
      obtain ⟨session', hright, heq⟩ := hsame
      exact .inr ⟨session, session', rfl, hright, heq.symm⟩

theorem SameUpToSource.get_session (sessionId : Uuid) (now : Int) :
    (left.getSession sessionId now).map Session.withoutSource =
      (right.getSession sessionId now).map Session.withoutSource := by
  unfold ServiceState.getSession
  rcases h.lookup sessionId with ⟨hleft, hright⟩ | ⟨session, session', hleft, hright, hsame⟩
  · rw [hleft, hright]
  · rw [hleft, hright]
    simp only [ok_or_else_some, bind, Except.bind, expires_at_eq_of_same hsame]
    split
    · rfl
    · exact congrArg Except.ok hsame

theorem SameUpToSource.active_sessions (now : Int) :
    left.activeSessionsCount now = right.activeSessionsCount now := by
  have hkeys : left.sessions.keys = right.sessions.keys := by
    ext sessionId
    rw [Finmap.mem_keys, Finmap.mem_keys, ← Finmap.lookup_isSome, ← Finmap.lookup_isSome,
      ← Option.isSome_map (f := Session.withoutSource), h.sessions, Option.isSome_map]
  have hlive : ∀ sessionId session, left.sessions.lookup sessionId = some session →
      (((right.sessions.lookup sessionId).any fun other => other.expiresAt > now) = true ↔
        session.expiresAt > now) := by
    intro sessionId session hsession
    rcases h.lookup sessionId with ⟨hleft, _⟩ | ⟨_, session', hleft, hright, hsame⟩
    · rw [hleft] at hsession
      cases hsession
    · rw [hleft] at hsession
      cases hsession
      rw [hright, Option.any_some, decide_eq_true_eq, expires_at_eq_of_same hsame]
  have hlive' : ∀ sessionId session, right.sessions.lookup sessionId = some session →
      (((right.sessions.lookup sessionId).any fun other => other.expiresAt > now) = true ↔
        session.expiresAt > now) := by
    intro sessionId session hsession
    rw [hsession, Option.any_some, decide_eq_true_eq]
  rw [ServiceState.activeSessionsCount, ServiceState.activeSessionsCount,
    ← StoreCount.card_filter_keys left.sessions _ (fun session => session.expiresAt > now) hlive,
    ← StoreCount.card_filter_keys right.sessions _ (fun session => session.expiresAt > now) hlive',
    hkeys]

end Same

/-- The two services resolve the capabilities of the entity for the workload to the same set, and
limit it alike. -/
structure Freezes (service frozen : EnforcementService) (entityId : String) (wasm : Bytes) :
    Prop where
  resolved : ∃ caps source source',
    service.resolveCapabilities entityId (some wasm) = .ok (caps, source) ∧
    frozen.resolveCapabilities entityId (some wasm) = .ok (caps, source')
  limited : ∀ counters interface now,
    service.policy.checkRateLimit counters entityId interface now =
      frozen.policy.checkRateLimit counters entityId interface now

section Runs

variable [Wasmparser] {service frozen : EnforcementService} {entityId : String} {wasm : Bytes}

theorem authorize_of_resolved {caps : CapabilitiesConfig} {source : PolicySource}
    (h : service.resolveCapabilities entityId (some wasm) = .ok (caps, source)) :
    service.authorize entityId (some wasm) =
      (checkWorkload wasm caps).map fun _ => (caps, source) := by
  rw [authorize_eq, h]
  show (checkWorkload wasm caps >>= fun _ => Except.ok (caps, source)) = _
  cases checkWorkload wasm caps <;> rfl

theorem create_session_same (h : Freezes service frozen entityId wasm)
    {left right : ServiceState} (hsame : SameUpToSource left right) (sessionId : Uuid)
    (now : Int) :
    (service.createSessionWithWasm left entityId (some wasm) sessionId now).1.map
          Session.withoutSource =
        (frozen.createSessionWithWasm right entityId (some wasm) sessionId now).1.map
          Session.withoutSource ∧
      SameUpToSource
        (service.createSessionWithWasm left entityId (some wasm) sessionId now).2
        (frozen.createSessionWithWasm right entityId (some wasm) sessionId now).2 := by
  obtain ⟨caps, source, source', hresolved, hresolved'⟩ := h.resolved
  unfold EnforcementService.createSessionWithWasm
  rw [authorize_of_resolved hresolved, authorize_of_resolved hresolved']
  cases checkWorkload wasm caps with
  | error error => exact ⟨rfl, hsame⟩
  | ok checked => exact ⟨rfl, hsame.insert rfl⟩

/-- One operation for the entity and the workload. -/
theorem perform_same (h : Freezes service frozen entityId wasm) {left right : ServiceState}
    (hsame : SameUpToSource left right) {call : Call}
    (hfor : call.operation.isFor entityId wasm) :
    (service.perform left call).1.withoutSource = (frozen.perform right call).1.withoutSource ∧
      SameUpToSource (service.perform left call).2 (frozen.perform right call).2 := by
  unfold EnforcementService.perform
  cases hoperation : call.operation with
  | createSession | hasCapability =>
      rw [hoperation] at hfor
      exact hfor.elim
  | resolveCapabilities id wasmBytes =>
      rw [hoperation] at hfor
      obtain ⟨rfl, rfl⟩ := hfor
      obtain ⟨caps, source, source', hresolved, hresolved'⟩ := h.resolved
      simp only [hresolved, hresolved']
      exact ⟨rfl, hsame⟩
  | createSessionWithWasm id wasmBytes =>
      rw [hoperation] at hfor
      obtain ⟨rfl, rfl⟩ := hfor
      obtain ⟨houtcome, hnext⟩ := create_session_same h hsame call.freshId call.now
      exact ⟨congrArg Outcome.session houtcome, hnext⟩
  | getSession sessionId =>
      exact ⟨congrArg Outcome.session (hsame.get_session sessionId call.now), hsame⟩
  | checkRateLimit id interface =>
      rw [hoperation] at hfor
      obtain rfl := hfor
      simp only [EnforcementService.checkRateLimit, hsame.counters, h.limited]
      exact ⟨rfl, hsame.sessions, hsame.auditLog, rfl⟩
  | audit =>
      refine ⟨rfl, hsame.sessions, ?_, hsame.counters⟩
      exact congrArg (· ++ _) hsame.auditLog
  | getAuditLog queried limit =>
      refine ⟨?_, hsame⟩
      simp only [ServiceState.getAuditLog, hsame.auditLog]
  | activeSessionsCount =>
      exact ⟨congrArg Outcome.activeSessions (hsame.active_sessions call.now), hsame⟩

theorem trace_same (h : Freezes service frozen entityId wasm) {calls : List Call}
    (hcalls : ∀ call ∈ calls, call.operation.isFor entityId wasm) {left right : ServiceState}
    (hsame : SameUpToSource left right) :
    (Mealy.trace service.perform left calls).map (Prod.map id Outcome.withoutSource) =
      (Mealy.trace frozen.perform right calls).map (Prod.map id Outcome.withoutSource) := by
  induction calls generalizing left right with
  | nil => rfl
  | cons call rest ih =>
      obtain ⟨hfor, hrest⟩ := List.forall_mem_cons.mp hcalls
      obtain ⟨houtcome, hnext⟩ := perform_same h hsame hfor
      rw [Mealy.trace_cons, Mealy.trace_cons, List.map_cons, List.map_cons, ih hrest hnext]
      exact congrArg (· :: _) (Prod.ext rfl houtcome)

omit [Wasmparser] in
/-- The frozen policy resolves to the verdict. -/
theorem freezes_of_verdict {model wasmPath : String} {entity : EntityConfig}
    {caps : CapabilitiesConfig} (hfind : service.policy.findEntity entityId = some entity)
    (hmode : entity.mode = .auto model)
    (hlimits : ∀ interface, service.policy.rateLimit entity interface = defaultRateLimit)
    (hverdict : service.analyzer model wasm = .ok caps)
    (hpolicy : frozen.policy = frozenPolicy wasmPath entityId caps.listGranted) :
    Freezes service frozen entityId wasm where
  resolved := by
    have hfrozen := frozen_find_entity wasmPath entityId caps.listGranted
    rw [← hpolicy] at hfrozen
    refine ⟨caps, .auto model, .manual, ?_, ?_⟩
    · refine resolve_capabilities_ok_iff.mpr ⟨entity, hfind, by rw [hmode]; rfl, ?_⟩
      rw [EntityConfig.Resolves, hmode]
      exact ⟨wasm, rfl, hverdict⟩
    · refine resolve_capabilities_ok_iff.mpr ⟨_, hfrozen, rfl, ?_⟩
      exact (granting_list_granted caps).symm
  limited counters interface now := by
    unfold PolicyConfig.checkRateLimit
    rw [hfind, hpolicy, frozen_find_entity]
    simp only [hlimits]
    rfl

/-- What the frozen policy adds: a session without bytes and an answer to `has_capability`. -/
structure AnswersMore (service frozen : EnforcementService) (entityId : String)
    (caps : CapabilitiesConfig) : Prop where
  session : ∀ state freshId now,
    (service.createSession state entityId freshId now).1 = .error (.policy
        s!"entity '{entityId}' is in auto mode but no WASM bytes were supplied") ∧
      (frozen.createSession state entityId freshId now).1 =
        .ok (newSession freshId now entityId caps .manual)
  capability : ∀ cap,
    service.hasCapability entityId cap = .error (.policy
        s!"entity '{entityId}' is in auto mode; capabilities are per-session") ∧
      frozen.hasCapability entityId cap = .ok (caps.hasCapability cap)

theorem answers_more_of_frozen {model wasmPath : String} {entity : EntityConfig}
    {caps : CapabilitiesConfig} (hfind : service.policy.findEntity entityId = some entity)
    (hmode : entity.mode = .auto model)
    (hpolicy : frozen.policy = frozenPolicy wasmPath entityId caps.listGranted) :
    AnswersMore service frozen entityId caps := by
  have hfrozen := frozen_find_entity wasmPath entityId caps.listGranted
  rw [← hpolicy, granting_list_granted] at hfrozen
  refine ⟨fun state freshId now => ⟨?_, ?_⟩, fun cap => ⟨?_, ?_⟩⟩
  · simp [EnforcementService.createSession, EnforcementService.createSessionWithWasm,
      authorize_without_bytes, hfind, hmode]
  · simp [EnforcementService.createSession, EnforcementService.createSessionWithWasm,
      authorize_without_bytes, hfrozen]
  · simp [EnforcementService.hasCapability, hfind, hmode, bind, Except.bind]
  · exact has_capability_of_manual hfrozen rfl cap

end Runs

/-- The text of `policies/frozen.yaml`. -/
def demoYaml : String :=
  frozenYaml "demo-wasms/crypto-only.wasm" "deepseek-chat" "2026-05-07T14:18:27.316561644+00:00"
    "frozen-app" ["crypto", "random"]

example : demoYaml =
    "version: \"1.0\"\n" ++
    "# Frozen from LLM verdict — see audit trail below.\n" ++
    "# source_wasm: demo-wasms/crypto-only.wasm\n" ++
    "# model: deepseek-chat\n" ++
    "# generated: 2026-05-07T14:18:27.316561644+00:00\n" ++
    "entities:\n" ++
    "  - id: \"frozen-app\"\n" ++
    "    description: \"Frozen from demo-wasms/crypto-only.wasm\"\n" ++
    "    capabilities:\n" ++
    "      crypto: true\n" ++
    "      random: true\n" := by decide +kernel

/-- The service that gave the verdict in `policies/frozen.yaml`. -/
def demoService : EnforcementService where
  policy :=
    { version := "1.0", entities := [{ id := "frozen-app", mode := .auto "deepseek-chat" }] }
  analyzer _ _ := .ok { crypto := true, random := true }
  validated := by decide

/-- A file system with this file, and a parser that reads it. -/
@[reducible] def demoReader : PolicyReader where
  readToString path :=
    if path = "policies/frozen.yaml" then .ok demoYaml
    else .error "No such file or directory (os error 2)"
  fromStr yaml :=
    if yaml = demoYaml then
      .ok (frozenPolicy "demo-wasms/crypto-only.wasm" "frozen-app" ["crypto", "random"])
    else .error "EOF while parsing a value"

end HalEnforcement
