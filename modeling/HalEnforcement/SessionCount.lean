import HalEnforcement.Library.StoreCount
import HalEnforcement.Sessions

/-!
# The number of active sessions

`get_session` and `active_sessions_count` test the expiry of a session on their own, the one for
`now > expires_at` and the other for `expires_at > now`. At the very instant a session expires it is
still found and no longer counted. `active_count_eq_lookups_iff` says that the two agree, in every
state a run can reach, exactly at the instants at which no stored session is just 24 hours old.
-/

namespace HalEnforcement

/-- The ids in the store for which `get_session` answers with a session. -/
def ServiceState.liveIds (state : ServiceState) (now : Int) : Finset Uuid :=
  state.sessions.keys.filter fun sessionId => (state.getSession sessionId now).isOk = true

theorem is_ok_get_session_iff {state : ServiceState} {sessionId : Uuid} {now : Int}
    {session : Session} (h : state.sessions.lookup sessionId = some session) :
    (state.getSession sessionId now).isOk = true ↔ now ≤ session.expiresAt := by
  rw [ServiceState.getSession, h]
  by_cases hexpired : now > session.expiresAt
  · simp [bind, Except.bind, hexpired, Except.isOk, Except.toBool]
  · simp [bind, Except.bind, hexpired, Except.isOk, Except.toBool, not_lt.mp hexpired]

/-- The lookups succeed for the sessions that have not passed their expiry. -/
theorem card_live_ids (state : ServiceState) (now : Int) :
    (state.liveIds now).card =
      (state.sessions.entries.filter fun entry => now ≤ entry.2.expiresAt).card :=
  StoreCount.card_filter_keys state.sessions _ (fun session => now ≤ session.expiresAt)
    fun _ _ h => is_ok_get_session_iff h

/-- In any state, the count and the lookups agree when no stored session expires just now. -/
theorem active_sessions_count_eq_iff (state : ServiceState) (now : Int) :
    state.activeSessionsCount now = (state.liveIds now).card ↔
      ∀ sessionId session, state.sessions.lookup sessionId = some session →
        session.expiresAt ≠ now := by
  rw [ServiceState.activeSessionsCount, card_live_ids,
    StoreCount.card_filter_eq_iff _ fun _ (h : _ > now) => le_of_lt h]
  constructor
  · intro h sessionId session hlookup heq
    have hlater := h ⟨sessionId, session⟩ (Finmap.mem_lookup_iff.mp hlookup) (le_of_eq heq.symm)
    exact absurd heq (ne_of_gt hlater)
  · intro h entry hentry hle
    have hne := h entry.1 entry.2 (Finmap.mem_lookup_iff.mpr hentry)
    exact lt_of_le_of_ne hle hne.symm

/-- In every state a run reaches and at every instant, the number of active sessions is the number
of ids that `get_session` finds exactly when no stored session was created 24 hours (in nanoseconds)
before. -/
theorem active_count_eq_lookups_iff [Wasmparser] (service : EnforcementService)
    (events : List Event) (now : Int) :
    (Mealy.final service.step .empty events).state.activeSessionsCount now =
        ((Mealy.final service.step .empty events).state.liveIds now).card ↔
      ∀ sessionId session,
        (Mealy.final service.step .empty events).state.sessions.lookup sessionId = some session →
          session.createdAt + 86400000000000 ≠ now := by
  rw [active_sessions_count_eq_iff]
  have hrun := authorized_run service events
  refine forall₃_congr fun sessionId session hlookup => ?_
  rw [expires_at_of_authorized (hrun.created session (hrun.stored sessionId session hlookup))]

/-- At the instant it expires, a session is found and not counted. -/
theorem expiring_session_found_and_not_counted :
    let world := Mealy.final (@EnforcementService.step sampleParser mixedService) .empty
      [.createCall 0 "sensor" none, .createResume 0 ⟨7⟩ 5, .createInsert 0]
    world.state.activeSessionsCount (5 + 86400000000000) = 0 ∧
      (world.state.liveIds (5 + 86400000000000)).card = 1 := by
  decide

end HalEnforcement
