import HalEnforcement.History
import HalEnforcement.RateLimit.Isolation

/-!
# One tenant among others

What an entity's own operations return does not depend on the other entities' calls.
`tenant_runs_alone` takes the completed calls of an interleaved run, deletes those of all the other
entities, and finds the results of the remaining ones unchanged. Two things can break it, and are
excluded: an id drawn for two entities, and another listed id from which the keys of the entity's
counters continue after a colon.
-/

namespace HalEnforcement

/-- The operation is the entity's own. A lookup names no entity; it belongs to the one that owns
the id it asks for. The queries over all entities belong to none. -/
def Operation.belongsTo (owner : Uuid → String) (entityId : String) (operation : Operation) :
    Bool :=
  match operation with
  | .getSession sessionId => decide (owner sessionId = entityId)
  | _ => decide (operation.entityId = some entityId)

/-- Nothing the entity can ask for tells the two states apart. -/
structure SameFor (owner : Uuid → String) (entityId : String) (left right : ServiceState) :
    Prop where
  sessions : ∀ sessionId, owner sessionId = entityId →
    left.sessions.lookup sessionId = right.sessions.lookup sessionId
  auditLog : matchingEvents left.auditLog (some entityId) =
    matchingEvents right.auditLog (some entityId)
  counters : ∀ interface, left.operationCounters.lookup (counterKey entityId interface) =
    right.operationCounters.lookup (counterKey entityId interface)

section Same

variable {owner : Uuid → String} {entityId : String} {left right : ServiceState}

theorem SameFor.refl (state : ServiceState) : SameFor owner entityId state state :=
  ⟨fun _ _ => rfl, rfl, fun _ => rfl⟩

/-- The entity's own session. -/
theorem SameFor.insert (h : SameFor owner entityId left right) (made : Session) :
    SameFor owner entityId (left.insertSession made) (right.insertSession made) where
  sessions sessionId hid := by
    rw [lookup_insert_session, lookup_insert_session, h.sessions sessionId hid]
  auditLog := h.auditLog
  counters := h.counters

/-- The session of another entity. -/
theorem SameFor.insert_other (h : SameFor owner entityId left right) {made : Session}
    (hother : owner made.sessionId ≠ entityId) :
    SameFor owner entityId (left.insertSession made) right where
  sessions sessionId hid := by
    have hne : made.sessionId ≠ sessionId := by
      rintro rfl
      exact hother hid
    rw [lookup_insert_session, if_neg hne, h.sessions sessionId hid]
  auditLog := h.auditLog
  counters := h.counters

theorem matching_concat (log : List AuditEvent) (event : AuditEvent) (entityId : String) :
    matchingEvents (log ++ [event]) (some entityId) =
      matchingEvents log (some entityId) ++ if event.entityId = entityId then [event] else [] := by
  by_cases h : event.entityId = entityId
  · simp [matchingEvents, h]
  · simp [matchingEvents, h]

theorem SameFor.push (h : SameFor owner entityId left right) (event : AuditEvent) :
    SameFor owner entityId (left.pushAuditEvent event) (right.pushAuditEvent event) where
  sessions := h.sessions
  auditLog := by
    rw [ServiceState.pushAuditEvent, ServiceState.pushAuditEvent, matching_concat, matching_concat,
      h.auditLog]
  counters := h.counters

theorem SameFor.push_other (h : SameFor owner entityId left right) {event : AuditEvent}
    (hother : event.entityId ≠ entityId) :
    SameFor owner entityId (left.pushAuditEvent event) right where
  sessions := h.sessions
  auditLog := by
    rw [ServiceState.pushAuditEvent, matching_concat, if_neg hother, List.append_nil, h.auditLog]
  counters := h.counters

/-- The keys of the entity's counters are its own. -/
theorem counter_key_ne_of_not_shared {policy : PolicyConfig}
    (hshared : ∀ interface, ¬ policy.KeyShared entityId interface) {other : EntityConfig}
    {otherId : String} (hfind : policy.findEntity otherId = some other) (hne : otherId ≠ entityId)
    (interface otherInterface : String) :
    counterKey entityId interface ≠ counterKey otherId otherInterface := by
  intro hkey
  obtain ⟨hmem, rfl⟩ := mem_of_find_entity hfind
  refine hshared interface ⟨other, hmem, hne, starts_with_iff.mpr ⟨otherInterface, ?_⟩⟩
  rw [hkey, counter_key_eq]

variable {service : EnforcementService}

theorem SameFor.check (h : SameFor owner entityId left right) (service : EnforcementService)
    (interface : String) (now : Int) :
    (service.checkRateLimit left entityId interface now).1 =
        (service.checkRateLimit right entityId interface now).1 ∧
      SameFor owner entityId (service.checkRateLimit left entityId interface now).2
        (service.checkRateLimit right entityId interface now).2 := by
  unfold EnforcementService.checkRateLimit PolicyConfig.checkRateLimit
  cases service.policy.findEntity entityId with
  | none => exact ⟨rfl, h⟩
  | some entity =>
      simp only [h.counters interface]
      refine ⟨trivial, ⟨h.sessions, h.auditLog, fun other => ?_⟩⟩
      by_cases hkey : counterKey entityId other = counterKey entityId interface
      · rw [hkey, Finmap.lookup_insert, Finmap.lookup_insert]
      · rw [Finmap.lookup_insert_of_ne _ hkey, Finmap.lookup_insert_of_ne _ hkey,
          h.counters other]

theorem SameFor.check_other (h : SameFor owner entityId left right)
    (hshared : ∀ interface, ¬ service.policy.KeyShared entityId interface) {otherId : String}
    (hne : otherId ≠ entityId) (interface : String) (now : Int) :
    SameFor owner entityId (service.checkRateLimit left otherId interface now).2 right := by
  unfold EnforcementService.checkRateLimit PolicyConfig.checkRateLimit
  cases hfind : service.policy.findEntity otherId with
  | none => exact h
  | some other =>
      refine ⟨h.sessions, h.auditLog, fun mine => ?_⟩
      have hkey := counter_key_ne_of_not_shared hshared hfind hne mine interface
      exact (Finmap.lookup_insert_of_ne _ hkey).trans (h.counters mine)

theorem SameFor.get_session (h : SameFor owner entityId left right) {sessionId : Uuid}
    (hid : owner sessionId = entityId) (now : Int) :
    left.getSession sessionId now = right.getSession sessionId now := by
  rw [ServiceState.getSession, ServiceState.getSession, h.sessions sessionId hid]

theorem SameFor.get_audit_log (h : SameFor owner entityId left right) (limit : Nat) :
    left.getAuditLog (some entityId) limit = right.getAuditLog (some entityId) limit := by
  rw [ServiceState.getAuditLog, ServiceState.getAuditLog, h.auditLog]

variable [Wasmparser]

theorem SameFor.create (h : SameFor owner entityId left right) (service : EnforcementService)
    (forEntity : String) (wasmBytes : Option Bytes) (sessionId : Uuid) (now : Int) :
    (service.createSessionWithWasm left forEntity wasmBytes sessionId now).1 =
        (service.createSessionWithWasm right forEntity wasmBytes sessionId now).1 ∧
      SameFor owner entityId
        (service.createSessionWithWasm left forEntity wasmBytes sessionId now).2
        (service.createSessionWithWasm right forEntity wasmBytes sessionId now).2 := by
  unfold EnforcementService.createSessionWithWasm
  cases service.authorize forEntity wasmBytes with
  | error error => exact ⟨rfl, h⟩
  | ok resolved => exact ⟨rfl, h.insert _⟩

theorem SameFor.create_other (h : SameFor owner entityId left right) {otherId : String}
    {wasmBytes : Option Bytes} {sessionId : Uuid} {now : Int}
    (howner : ∀ made, (service.createSessionWithWasm left otherId wasmBytes sessionId now).1 =
      .ok made → owner made.sessionId ≠ entityId) :
    SameFor owner entityId
      (service.createSessionWithWasm left otherId wasmBytes sessionId now).2 right := by
  unfold EnforcementService.createSessionWithWasm at howner ⊢
  cases hauthorize : service.authorize otherId wasmBytes with
  | error error => exact h
  | ok resolved =>
      rw [hauthorize] at howner
      exact h.insert_other (howner _ rfl)

/-- An operation of the entity's own has the same outcome in both states. -/
theorem SameFor.perform_own (h : SameFor owner entityId left right) {call : Call}
    (hown : call.operation.belongsTo owner entityId = true) :
    (service.perform left call).1 = (service.perform right call).1 ∧
      SameFor owner entityId (service.perform left call).2 (service.perform right call).2 := by
  unfold EnforcementService.perform
  unfold Operation.belongsTo at hown
  cases hoperation : call.operation with
  | resolveCapabilities | hasCapability => exact ⟨rfl, h⟩
  | createSession forEntity =>
      obtain ⟨houtcome, hnext⟩ := h.create service forEntity none call.freshId call.now
      exact ⟨congrArg Outcome.session houtcome, hnext⟩
  | createSessionWithWasm forEntity wasmBytes =>
      obtain ⟨houtcome, hnext⟩ :=
        h.create service forEntity wasmBytes call.freshId call.now
      exact ⟨congrArg Outcome.session houtcome, hnext⟩
  | getSession sessionId =>
      rw [hoperation] at hown
      exact ⟨congrArg Outcome.session (h.get_session (by simpa using hown) call.now), h⟩
  | checkRateLimit forEntity interface =>
      rw [hoperation] at hown
      obtain rfl : forEntity = entityId := Option.some.inj (of_decide_eq_true hown)
      obtain ⟨houtcome, hnext⟩ := h.check service interface call.now
      exact ⟨congrArg Outcome.rateLimit houtcome, hnext⟩
  | audit => exact ⟨rfl, h.push _⟩
  | getAuditLog queried limit =>
      rw [hoperation] at hown
      obtain rfl : queried = some entityId := of_decide_eq_true hown
      exact ⟨congrArg Outcome.auditLog (h.get_audit_log limit), h⟩
  | activeSessionsCount =>
      rw [hoperation] at hown
      simp [Operation.entityId] at hown

/-- Any other operation changes nothing that the entity can ask for. -/
theorem SameFor.perform_other (h : SameFor owner entityId left right)
    (hshared : ∀ interface, ¬ service.policy.KeyShared entityId interface) {call : Call}
    (hother : call.operation.belongsTo owner entityId = false)
    (howner : ∀ made, createdBy (call, (service.perform left call).1) = some made →
      owner made.sessionId = made.entityId) :
    SameFor owner entityId (service.perform left call).2 right := by
  unfold Operation.belongsTo at hother
  have hcreation : ∀ otherId wasmBytes, call.operation.creation = some (otherId, wasmBytes) →
      otherId ≠ entityId → (service.perform left call).1 =
        .session (service.createSessionWithWasm left otherId wasmBytes call.freshId call.now).1 →
      SameFor owner entityId (service.createSessionWithWasm left otherId wasmBytes call.freshId
        call.now).2 right := by
    intro otherId wasmBytes hcreation hne houtcome
    refine h.create_other fun made hmade => ?_
    rw [houtcome, hmade] at howner
    rw [howner made (by simp [createdBy, hcreation])]
    obtain ⟨caps, source, _, rfl, _⟩ := create_session_ok_iff.mp (Prod.ext hmade rfl)
    exact hne
  unfold EnforcementService.perform at hcreation ⊢
  cases hoperation : call.operation with
  | resolveCapabilities | hasCapability | getSession | getAuditLog | activeSessionsCount =>
      exact h
  | createSession otherId =>
      rw [hoperation] at hother hcreation
      exact hcreation otherId none rfl (by simpa [Operation.entityId] using hother) rfl
  | createSessionWithWasm otherId wasmBytes =>
      rw [hoperation] at hother hcreation
      exact hcreation otherId wasmBytes rfl (by simpa [Operation.entityId] using hother) rfl
  | checkRateLimit otherId interface =>
      rw [hoperation] at hother
      exact h.check_other hshared (by simpa [Operation.entityId] using hother) interface call.now
  | audit otherId sessionId interface operation success error =>
      rw [hoperation] at hother
      exact h.push_other (by simpa [newAuditEvent, Operation.entityId] using hother)

/-- Which session a call creates does not depend on the state. -/
theorem created_by_perform (service : EnforcementService) (call : Call)
    (state other : ServiceState) :
    createdBy (call, (service.perform state call).1) =
      createdBy (call, (service.perform other call).1) := by
  cases hcreation : call.operation.creation with
  | none => simp [createdBy, hcreation]
  | some created => rw [creation_outcome hcreation, creation_outcome hcreation]

/-- What every created session of a run satisfies, a call of the run makes it satisfy anywhere. -/
theorem created_of_run {P : Session → Prop} {calls : List Call}
    (h : ∀ made ∈ (Mealy.trace service.perform .empty calls).filterMap createdBy, P made)
    {call : Call} (hcall : call ∈ calls) (state : ServiceState) {made : Session}
    (hmade : createdBy (call, (service.perform state call).1) = some made) : P made := by
  rw [← Mealy.trace_map_fst service.perform .empty calls] at hcall
  obtain ⟨entry, hentry, rfl⟩ := List.mem_map.mp hcall
  have hreached : ∃ reached, entry.2 = (service.perform reached entry.1).1 :=
    Mealy.trace_forall (P := fun call outcome => ∃ state, outcome = (service.perform state call).1)
      (fun state _ => ⟨state, rfl⟩) .empty calls entry hentry
  obtain ⟨reached, houtcome⟩ := hreached
  have heq : createdBy entry = createdBy (entry.1, (service.perform reached entry.1).1) :=
    congrArg createdBy (Prod.ext rfl houtcome)
  refine h made (List.mem_filterMap.mpr ⟨entry, hentry, ?_⟩)
  rw [heq, created_by_perform service _ reached state]
  exact hmade

/-- The completed calls of an interleaved run that are one entity's own have the results of a
service that this entity has for itself, when every id drawn for an entity is owned by it and no
other listed id continues to the keys of its counters. -/
theorem tenant_runs_alone (service : EnforcementService) (entityId : String)
    (owner : Uuid → String) (hshared : ∀ interface, ¬ service.policy.KeyShared entityId interface)
    (events : List Event)
    (howner : ∀ made ∈ (completedCalls (Mealy.trace service.step .empty events)).filterMap
      createdBy, owner made.sessionId = made.entityId) :
    let own := fun call : Call => call.operation.belongsTo owner entityId
    let completed := completedCalls (Mealy.trace service.step .empty events)
    completed.filter (fun entry => own entry.1) =
      Mealy.trace service.perform .empty ((completed.map Prod.fst).filter own) := by
  intro own completed
  have htrace : completed = Mealy.trace service.perform .empty (completed.map Prod.fst) :=
    (completed_calls_run service events).1
  have hcreated : ∀ made ∈ (Mealy.trace service.perform .empty
      (completed.map Prod.fst)).filterMap createdBy, owner made.sessionId = made.entityId := by
    rw [← htrace]
    exact howner
  have hpurge : (Mealy.trace service.perform .empty (completed.map Prod.fst)).filter
      (fun entry => own entry.1) =
        Mealy.trace service.perform .empty ((completed.map Prod.fst).filter own) := by
    refine Observation.purge_run (R := SameFor owner entityId) (SameFor.refl .empty)
      (fun _ _ _ _ h hown => h.perform_own hown) fun state other call hcall h hother => ?_
    exact h.perform_other hshared hother fun made hmade =>
      created_of_run hcreated hcall state hmade
  rwa [← htrace] at hpurge

end Same

/-- No key of the sensor's counters starts with `agent:`. -/
theorem sensor_keys_not_shared (interface : String) :
    ¬ mixedPolicy.KeyShared "sensor" interface := by
  intro hshared
  obtain ⟨other, hmem, hne, hstarts⟩ := hshared
  have hother : other.id = "sensor" ∨ other.id = "agent" := by
    simp only [mixedPolicy, List.mem_cons, List.not_mem_nil, or_false] at hmem
    rcases hmem with h | h
    · exact .inl (congrArg EntityConfig.id h)
    · exact .inr (congrArg EntityConfig.id h)
  rw [hother.resolve_left hne] at hstarts
  simp [startsWith, counter_key_eq] at hstarts

/-- The agent's creation and its rate-limited call do not show in the sensor's calls. -/
theorem sensor_runs_alone :
    let own := fun call : Call => call.operation.belongsTo
      (fun id => if id = ⟨7⟩ then "sensor" else "agent") "sensor"
    let completed := completedCalls (Mealy.trace
      (@EnforcementService.step sampleParser mixedService) .empty
      [.createCall 0 "sensor" none, .createCall 1 "agent" (some cryptoModule),
        .createResume 1 ⟨8⟩ 3, .createResume 0 ⟨7⟩ 5, .checkRateLimit "agent" "crypto" 5,
        .checkRateLimit "sensor" "crypto" 6, .createInsert 0, .createInsert 1])
    completed.filter (fun entry => own entry.1) =
      Mealy.trace (@EnforcementService.perform sampleParser mixedService) .empty
        ((completed.map Prod.fst).filter own) :=
  @tenant_runs_alone sampleParser mixedService "sensor"
    (fun id => if id = ⟨7⟩ then "sensor" else "agent") sensor_keys_not_shared
    [.createCall 0 "sensor" none, .createCall 1 "agent" (some cryptoModule),
      .createResume 1 ⟨8⟩ 3, .createResume 0 ⟨7⟩ 5, .checkRateLimit "agent" "crypto" 5,
      .checkRateLimit "sensor" "crypto" 6, .createInsert 0, .createInsert 1] (by decide)

end HalEnforcement
