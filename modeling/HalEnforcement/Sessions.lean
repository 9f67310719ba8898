import HalEnforcement.Interleaving
import HalEnforcement.Library.InsertOnly
import HalEnforcement.Operations

/-!
# The session store

What interleaved clients see of the sessions. Every session that is pending, stored or returned was
authorised (`authorized_run`), and while no id is drawn twice the store holds exactly the sessions
that creations have returned (`indexes_run`). `session_store_refines_history` reads these invariants
at `get_session`.
-/

namespace HalEnforcement

/-- A creation under this task has drawn its id and waits for the sessions lock. -/
def World.Pending (world : World) (task : Nat) (session : Session) : Prop :=
  world.tasks.lookup task = some (.insert session)

theorem pending_set_task {world : World} {task other : Nat} {pending : Task} {session : Session}
    (h : (world.setTask task pending).Pending other session) :
    (other = task ∧ pending = .insert session) ∨ (other ≠ task ∧ world.Pending other session) := by
  unfold World.Pending World.setTask at h
  by_cases hother : other = task
  · subst hother
    rw [Finmap.lookup_insert] at h
    exact .inl ⟨rfl, Option.some.inj h⟩
  · rw [Finmap.lookup_insert_of_ne _ hother] at h
    exact .inr ⟨hother, h⟩

theorem pending_end_task {world : World} {task other : Nat} {session : Session}
    (h : (world.endTask task).Pending other session) :
    other ≠ task ∧ world.Pending other session := by
  unfold World.Pending World.endTask at h
  by_cases hother : other = task
  · subst hother
    rw [Finmap.lookup_erase] at h
    cases h
  · rw [Finmap.lookup_erase_ne hother] at h
    exact ⟨hother, h⟩

/-! ## Lookups -/

theorem get_session_ok_iff {state : ServiceState} {sessionId : Uuid} {now : Int}
    {session : Session} :
    state.getSession sessionId now = .ok session ↔
      state.sessions.lookup sessionId = some session ∧ now ≤ session.expiresAt := by
  unfold ServiceState.getSession
  cases state.sessions.lookup sessionId with
  | none => simp [bind, Except.bind]
  | some stored =>
      by_cases hexpired : now > stored.expiresAt
      · simp only [ok_or_else_some, bind, Except.bind, hexpired, if_true, reduceCtorEq,
          Option.some.injEq, false_iff, not_and]
        rintro rfl
        omega
      · simp only [ok_or_else_some, bind, Except.bind, hexpired, if_false, Except.ok.injEq,
          Option.some.injEq, iff_self_and]
        rintro rfl
        omega

/-- A lookup is refused as expired when it finds a session and the reading is past its end. -/
theorem get_session_expired_iff {state : ServiceState} {sessionId : Uuid} {now : Int} :
    state.getSession sessionId now = .error (.session "Session expired") ↔
      ∃ session, state.sessions.lookup sessionId = some session ∧ session.expiresAt < now := by
  unfold ServiceState.getSession
  cases state.sessions.lookup sessionId with
  | none => simp [bind, Except.bind]
  | some stored =>
      by_cases hexpired : now > stored.expiresAt
      · simp [bind, Except.bind, hexpired]
      · simp [bind, Except.bind, hexpired]

/-! ## What an event does to the sessions -/

theorem drawn_ids_append (past : List (Event × Reply)) (event : Event) (reply : Reply) :
    drawnIds (past ++ [(event, reply)]) = drawnIds past ++ reply.drawnId.toList := by
  rw [drawnIds, List.filterMap_append]
  cases h : reply.drawnId with
  | none => simp [drawnIds, h]
  | some id => simp [drawnIds, h]

theorem created_sessions_append (past : List (Event × Reply)) (event : Event) (reply : Reply) :
    createdSessions (past ++ [(event, reply)]) =
      createdSessions past ++ reply.createdSession.toList := by
  rw [createdSessions, List.filterMap_append]
  cases h : reply.createdSession with
  | none => simp [createdSessions, h]
  | some made => simp [createdSessions, h]

section Runs

variable [Wasmparser]

/-- The session is one that `authorize` let through, built as `newSession` builds it. -/
def EnforcementService.Authorized (self : EnforcementService) (session : Session) : Prop :=
  ∃ wasmBytes caps source,
    self.authorize session.entityId wasmBytes = .ok (caps, source) ∧
      session = newSession session.sessionId session.createdAt session.entityId caps source

/-- What an event can do to the sessions, stored and pending. -/
inductive EnforcementService.SessionEffect (self : EnforcementService) (world : World)
    (reply : Reply) (next : World) : Prop where
  | keep : reply.drawnId = none → reply.createdSession = none →
      next.state.sessions = world.state.sessions →
      (∀ task session, next.Pending task session → world.Pending task session) →
      self.SessionEffect world reply next
  | draw (task : Nat) (drawn : Session) : reply = .drew drawn.sessionId → self.Authorized drawn →
      next.state.sessions = world.state.sessions →
      (∀ other session, next.Pending other session →
        (other = task ∧ session = drawn) ∨ (other ≠ task ∧ world.Pending other session)) →
      self.SessionEffect world reply next
  | create (task : Nat) (made : Session) : reply = .created made → world.Pending task made →
      next.state.sessions = world.state.sessions.insert made.sessionId made →
      (∀ other session, next.Pending other session →
        other ≠ task ∧ world.Pending other session) →
      self.SessionEffect world reply next

theorem EnforcementService.Effect.sessions {service : EnforcementService} {world next : World}
    {event : Event} {reply : Reply} (h : service.Effect world event reply next) :
    service.SessionEffect world reply next := by
  cases h with
  | quiet hdrawn hcreated hsessions _ =>
      exact .keep hdrawn hcreated hsessions fun _ _ h => h
  | start _ hpending =>
      refine .keep rfl rfl rfl fun other session h => ?_
      rcases pending_set_task h with ⟨_, heq⟩ | ⟨_, h⟩
      · exact absurd heq (hpending session)
      · exact h
  | refuse => exact .keep rfl rfl rfl fun _ _ h => (pending_end_task h).2
  | @draw task freshId now entityId wasmBytes caps source _ hauthorize =>
      refine .draw task (newSession freshId now entityId caps source) rfl
        ⟨wasmBytes, caps, source, hauthorize, rfl⟩ rfl fun other session h => ?_
      exact (pending_set_task h).imp_left fun ⟨hother, heq⟩ =>
        ⟨hother, (Task.insert.inj heq).symm⟩
  | @create task session hpending =>
      exact .create task session rfl hpending rfl fun _ _ h => pending_end_task h
  | push => exact .keep rfl rfl rfl fun _ _ h => (pending_end_task h).2

/-! ## Authorisation -/

/-- Every session there is was authorised. -/
structure EnforcementService.AllAuthorized (service : EnforcementService)
    (past : List (Event × Reply)) (world : World) : Prop where
  pending : ∀ task session, world.Pending task session → service.Authorized session
  created : ∀ session ∈ createdSessions past, service.Authorized session
  stored : ∀ id session, world.state.sessions.lookup id = some session →
    session ∈ createdSessions past

/-- One event keeps the authorisation. -/
theorem authorized_step {service : EnforcementService} {past : List (Event × Reply)}
    {world : World} (h : service.AllAuthorized past world) (event : Event) :
    service.AllAuthorized (past ++ [(event, (service.step world event).1)])
      (service.step world event).2 := by
  cases (step_effect service world event).sessions with
  | keep _ hcreated hsessions hpending =>
      refine ⟨fun task session hp => h.pending task session (hpending task session hp), ?_, ?_⟩
      · simpa [created_sessions_append, hcreated] using h.created
      · simpa [created_sessions_append, hcreated, hsessions] using h.stored
  | draw task drawn hreply hauthorized hsessions hpending =>
      refine ⟨fun other session hp => ?_, ?_, ?_⟩
      · rcases hpending other session hp with ⟨_, rfl⟩ | ⟨_, hp⟩
        · exact hauthorized
        · exact h.pending other session hp
      · simpa [created_sessions_append, hreply, Reply.createdSession] using h.created
      · simpa [created_sessions_append, hreply, Reply.createdSession, hsessions] using h.stored
  | create task made hreply hmade hsessions hpending =>
      have hcreated : createdSessions (past ++ [(event, (service.step world event).1)]) =
          createdSessions past ++ [made] := by
        rw [created_sessions_append, hreply]
        rfl
      refine ⟨fun other session hp => h.pending other session (hpending other session hp).2,
        ?_, ?_⟩
      · rw [hcreated]
        intro session hsession
        rcases List.mem_append.mp hsession with hold | hnew
        · exact h.created session hold
        · rw [List.mem_singleton.mp hnew]
          exact h.pending task made hmade
      · rw [hcreated, hsessions]
        intro id session hlookup
        by_cases hid : id = made.sessionId
        · subst hid
          rw [Finmap.lookup_insert] at hlookup
          cases hlookup
          exact List.mem_append_right _ (List.mem_singleton_self _)
        · rw [Finmap.lookup_insert_of_ne _ hid] at hlookup
          exact List.mem_append_left _ (h.stored id session hlookup)

theorem authorized_run (service : EnforcementService) (events : List Event) :
    service.AllAuthorized (Mealy.trace service.step .empty events)
      (Mealy.final service.step .empty events) := by
  refine Mealy.trace_induction (P := service.AllAuthorized) ⟨?_, ?_, ?_⟩ events
    fun past world event _ h => authorized_step h event
  · intro task session h
    simp [World.Pending, World.empty] at h
  · intro session h
    cases h
  · intro id session h
    simp [World.empty, ServiceState.empty] at h

/-! ## Fresh ids -/

/-- The store holds what was created, and the pending creations have ids of their own. -/
structure FreshIds (past : List (Event × Reply)) (world : World) : Prop where
  indexes : InsertOnly.Indexes Session.sessionId world.state.sessions (createdSessions past)
  pending_drawn : ∀ task session, world.Pending task session → session.sessionId ∈ drawnIds past
  created_drawn : ∀ session ∈ createdSessions past, session.sessionId ∈ drawnIds past
  pending_new : ∀ task session, world.Pending task session →
    ∀ made ∈ createdSessions past, made.sessionId ≠ session.sessionId
  pending_distinct : ∀ task session task' session', world.Pending task session →
    world.Pending task' session' → session.sessionId = session'.sessionId → task = task'

omit [Wasmparser] in
theorem FreshIds.empty : FreshIds [] .empty where
  indexes := .empty
  pending_drawn task session h := by simp [World.Pending, World.empty] at h
  created_drawn := nofun
  pending_new task session h := by simp [World.Pending, World.empty] at h
  pending_distinct task session _ _ h := by simp [World.Pending, World.empty] at h

section Steps

variable {past after : List (Event × Reply)} {world next : World}

omit [Wasmparser] in
/-- A step that neither draws nor creates. -/
theorem FreshIds.keep (h : FreshIds past world) (hids : drawnIds after = drawnIds past)
    (hcreated : createdSessions after = createdSessions past)
    (hsessions : next.state.sessions = world.state.sessions)
    (hpending : ∀ task session, next.Pending task session → world.Pending task session) :
    FreshIds after next where
  indexes := by
    rw [hsessions, hcreated]
    exact h.indexes
  pending_drawn task session hp := by
    rw [hids]
    exact h.pending_drawn task session (hpending _ _ hp)
  created_drawn := by
    rw [hids, hcreated]
    exact h.created_drawn
  pending_new task session hp := by
    rw [hcreated]
    exact h.pending_new task session (hpending _ _ hp)
  pending_distinct task session task' session' hp hp' :=
    h.pending_distinct _ _ _ _ (hpending _ _ hp) (hpending _ _ hp')

omit [Wasmparser] in
/-- A step that draws an id no earlier step has drawn. -/
theorem FreshIds.draw (h : FreshIds past world) {task : Nat} {drawn : Session}
    (hids : drawnIds after = drawnIds past ++ [drawn.sessionId])
    (hnew : drawn.sessionId ∉ drawnIds past)
    (hcreated : createdSessions after = createdSessions past)
    (hsessions : next.state.sessions = world.state.sessions)
    (hpending : ∀ other session, next.Pending other session →
      (other = task ∧ session = drawn) ∨ (other ≠ task ∧ world.Pending other session)) :
    FreshIds after next where
  indexes := by
    rw [hsessions, hcreated]
    exact h.indexes
  pending_drawn other session hp := by
    rw [hids]
    rcases hpending other session hp with ⟨_, rfl⟩ | ⟨_, hp⟩
    · exact List.mem_append_right _ (List.mem_singleton_self _)
    · exact List.mem_append_left _ (h.pending_drawn other session hp)
  created_drawn session hsession := by
    rw [hcreated] at hsession
    rw [hids]
    exact List.mem_append_left _ (h.created_drawn session hsession)
  pending_new other session hp made hmade := by
    rw [hcreated] at hmade
    rcases hpending other session hp with ⟨_, rfl⟩ | ⟨_, hp⟩
    · exact fun heq => hnew (heq ▸ h.created_drawn made hmade)
    · exact h.pending_new other session hp made hmade
  pending_distinct other session other' session' hp hp' heq := by
    rcases hpending other session hp with ⟨rfl, rfl⟩ | ⟨_, hp⟩
    · rcases hpending other' session' hp' with ⟨rfl, _⟩ | ⟨_, hp'⟩
      · rfl
      · exact absurd (heq ▸ h.pending_drawn other' session' hp') hnew
    · rcases hpending other' session' hp' with ⟨rfl, rfl⟩ | ⟨_, hp'⟩
      · exact absurd (heq ▸ h.pending_drawn other session hp) hnew
      · exact h.pending_distinct _ _ _ _ hp hp' heq

omit [Wasmparser] in
/-- A step that stores the session of a pending creation. -/
theorem FreshIds.create (h : FreshIds past world) {task : Nat} {made : Session}
    (hmade : world.Pending task made) (hids : drawnIds after = drawnIds past)
    (hcreated : createdSessions after = createdSessions past ++ [made])
    (hsessions : next.state.sessions = world.state.sessions.insert made.sessionId made)
    (hpending : ∀ other session, next.Pending other session →
      other ≠ task ∧ world.Pending other session) :
    FreshIds after next where
  indexes := by
    rw [hsessions, hcreated]
    exact h.indexes.insert (h.pending_new task made hmade)
  pending_drawn other session hp := by
    rw [hids]
    exact h.pending_drawn other session (hpending _ _ hp).2
  created_drawn session hsession := by
    rw [hids]
    rw [hcreated] at hsession
    rcases List.mem_append.mp hsession with hold | hlast
    · exact h.created_drawn session hold
    · rw [List.mem_singleton.mp hlast]
      exact h.pending_drawn task made hmade
  pending_new other session hp old hold := by
    -- a creation that is still pending is another task, so it has another id
    obtain ⟨hother, hp⟩ := hpending other session hp
    rw [hcreated] at hold
    rcases List.mem_append.mp hold with hold | hlast
    · exact h.pending_new other session hp old hold
    · rw [List.mem_singleton.mp hlast]
      exact fun heq => hother (h.pending_distinct _ _ _ _ hp hmade heq.symm)
  pending_distinct other session other' session' hp hp' :=
    h.pending_distinct _ _ _ _ (hpending _ _ hp).2 (hpending _ _ hp').2

/-- One event keeps the ids apart, if it does not draw one again. -/
theorem fresh_ids_step {service : EnforcementService} (h : FreshIds past world) (event : Event)
    (hfresh : (drawnIds (past ++ [(event, (service.step world event).1)])).Nodup) :
    FreshIds (past ++ [(event, (service.step world event).1)]) (service.step world event).2 := by
  have hids := drawn_ids_append past event (service.step world event).1
  have hcreated := created_sessions_append past event (service.step world event).1
  cases (step_effect service world event).sessions with
  | keep hnone hnothing hsessions hpending =>
      rw [hnone, Option.toList_none, List.append_nil] at hids
      rw [hnothing, Option.toList_none, List.append_nil] at hcreated
      exact h.keep hids hcreated hsessions hpending
  | draw task drawn hreply _ hsessions hpending =>
      rw [hreply] at hids hcreated
      have hnew : drawn.sessionId ∉ drawnIds past := by
        rw [hreply, hids, List.nodup_append] at hfresh
        exact fun hmem => hfresh.2.2 _ hmem _ (List.mem_singleton_self _) rfl
      rw [hreply]
      exact h.draw hids hnew (hcreated.trans (List.append_nil _)) hsessions hpending
  | create task made hreply hmade hsessions hpending =>
      rw [hreply] at hids hcreated ⊢
      exact h.create hmade (hids.trans (List.append_nil _)) hcreated hsessions hpending

end Steps

/-- While no id is drawn twice, the store indexes the creations that have returned. -/
theorem indexes_run (service : EnforcementService) {events : List Event}
    (hfresh : (drawnIds (Mealy.trace service.step .empty events)).Nodup) :
    InsertOnly.Indexes Session.sessionId (Mealy.final service.step .empty events).state.sessions
      (createdSessions (Mealy.trace service.step .empty events)) := by
  have hrun : (drawnIds (Mealy.trace service.step .empty events)).Nodup →
      FreshIds (Mealy.trace service.step .empty events)
        (Mealy.final service.step .empty events) := by
    refine Mealy.trace_induction
      (P := fun past world => (drawnIds past).Nodup → FreshIds past world)
      (fun _ => .empty) events fun past world event _ h hnodup => ?_
    have hpast : (drawnIds past).Nodup := by
      rw [drawn_ids_append] at hnodup
      exact hnodup.of_append_left
    exact fresh_ids_step (h hpast) event hnodup
  exact (hrun hfresh).indexes

/-- A session ends 24 hours after its creation, counted in nanoseconds. -/
theorem expires_at_of_authorized {service : EnforcementService} {session : Session}
    (h : service.Authorized session) : session.expiresAt = session.createdAt + 86400000000000 := by
  obtain ⟨wasmBytes, caps, source, _, hsession⟩ := h
  rw [hsession]
  rfl

theorem entity_of_authorized {service : EnforcementService} {session : Session}
    (h : service.Authorized session) :
    ∃ entity ∈ service.policy.entities, entity.id = session.entityId := by
  obtain ⟨wasmBytes, caps, source, hauthorize, _⟩ := h
  obtain ⟨entity, hentity, _⟩ := resolve_capabilities_ok_iff.mp (authorize_ok_iff.mp hauthorize).1
  exact ⟨entity, mem_of_find_entity hentity⟩

/-- The store after a run answers from the history of the creations that have returned. -/
theorem get_session_of_history (service : EnforcementService) {events : List Event}
    (hfresh : (drawnIds (Mealy.trace service.step .empty events)).Nodup) (sessionId : Uuid)
    (now : Int) (session : Session) :
    (Mealy.final service.step .empty events).state.getSession sessionId now = .ok session ↔
      session ∈ createdSessions (Mealy.trace service.step .empty events) ∧
        session.sessionId = sessionId ∧ now ≤ session.createdAt + 86400000000000 := by
  have hauthorized := (authorized_run service events).created session
  rw [get_session_ok_iff, indexes_run service hfresh, and_assoc]
  constructor
  · intro h
    obtain ⟨hmem, hid, hnow⟩ := h
    exact ⟨hmem, hid, expires_at_of_authorized (hauthorized hmem) ▸ hnow⟩
  · intro h
    obtain ⟨hmem, hid, hnow⟩ := h
    exact ⟨hmem, hid, (expires_at_of_authorized (hauthorized hmem)).symm ▸ hnow⟩

/-- At every point of a run in which no id is drawn twice: `get_session` answers with a session just
when a creation has returned it and 24 hours (in nanoseconds) have not passed; the session's entity
is listed; and the answer, be it the session or the refusal of an expired one, stays to the end of
the run. -/
theorem session_store_refines_history (service : EnforcementService) (events later : List Event)
    (hfresh : (drawnIds (Mealy.trace service.step .empty (events ++ later))).Nodup) :
    (∀ sessionId now session,
      (Mealy.final service.step .empty events).state.getSession sessionId now = .ok session ↔
        session ∈ createdSessions (Mealy.trace service.step .empty events) ∧
          session.sessionId = sessionId ∧ now ≤ session.createdAt + 86400000000000) ∧
    (∀ session ∈ createdSessions (Mealy.trace service.step .empty events),
      ∃ entity ∈ service.policy.entities, entity.id = session.entityId) ∧
    (∀ sessionId now session,
      (Mealy.final service.step .empty events).state.getSession sessionId now = .ok session →
        (Mealy.final service.step .empty (events ++ later)).state.getSession sessionId now =
          .ok session) ∧
    (∀ sessionId now now', now ≤ now' →
      (Mealy.final service.step .empty events).state.getSession sessionId now =
          .error (.session "Session expired") →
        (Mealy.final service.step .empty (events ++ later)).state.getSession sessionId now' =
          .error (.session "Session expired")) := by
  have hmade : createdSessions (Mealy.trace service.step .empty events) ⊆
      createdSessions (Mealy.trace service.step .empty (events ++ later)) := by
    rw [Mealy.trace_append, createdSessions, createdSessions, List.filterMap_append]
    exact List.subset_append_left _ _
  have hearlier : (drawnIds (Mealy.trace service.step .empty events)).Nodup := by
    rw [Mealy.trace_append, drawnIds, List.filterMap_append] at hfresh
    exact hfresh.of_append_left
  refine ⟨get_session_of_history service hearlier, ?_, ?_, ?_⟩
  · exact fun session hmem =>
      entity_of_authorized ((authorized_run service events).created session hmem)
  · intro sessionId now session hok
    rw [get_session_of_history service hearlier] at hok
    rw [get_session_of_history service hfresh]
    exact ⟨hmade hok.1, hok.2⟩
  · intro sessionId now now' hnow hexpired
    rw [get_session_expired_iff] at hexpired ⊢
    obtain ⟨session, hlookup, hpast⟩ := hexpired
    obtain ⟨hmem, hid⟩ := (indexes_run service hearlier _ _).mp hlookup
    exact ⟨session, (indexes_run service hfresh _ _).mpr ⟨hmade hmem, hid⟩, by omega⟩

end Runs

/-- A creation in flight for another entity does not disturb the session. -/
theorem get_session_at_the_end_of_its_day :
    (Mealy.final (@EnforcementService.step sampleParser mixedService) .empty
      [.createCall 0 "sensor" none, .createCall 1 "agent" (some cryptoModule),
        .createResume 1 ⟨8⟩ 3, .createResume 0 ⟨7⟩ 5, .createInsert 0]).state.getSession ⟨7⟩
          (5 + 86400000000000) =
      .ok (newSession ⟨7⟩ 5 "sensor" { crypto := true, random := true } .manual) :=
  ((@session_store_refines_history sampleParser mixedService
    [.createCall 0 "sensor" none, .createCall 1 "agent" (some cryptoModule),
      .createResume 1 ⟨8⟩ 3, .createResume 0 ⟨7⟩ 5, .createInsert 0] [.createInsert 1]
    (by decide)).1 _ _ _).mpr ⟨by decide, rfl, by decide⟩

end HalEnforcement
