import HalEnforcement.History
import HalEnforcement.RateLimit.Isolation
import HalEnforcement.Stores

/-!
# Relaxing a policy

A policy is relaxed by listing more entities, by granting more to entities in `Manual` mode, and by
raising limits. `relaxation_keeps_successes` runs two services on the same calls and finds that
every call that succeeds under the stricter policy succeeds under the relaxed one, and returns at
least as much. Read the other way, tightening a policy never lets a call through that was refused.

Two things are excluded. With an id drawn twice a session that only the relaxed service admits can
replace one that both admit. Where two entities share a counter, the calls that a raised limit lets
through for one use up the window of the other.
-/

namespace HalEnforcement

/-! ## Improvement of an outcome -/

/-- Everything granted on the left is granted on the right. -/
def CapabilitiesConfig.Within (left right : CapabilitiesConfig) : Prop :=
  ∀ cap, left.hasCapability cap = true → right.hasCapability cap = true

/-- The same session, with a grant that may be larger. -/
structure Session.Within (left right : Session) : Prop where
  others : right = { left with grantedCapabilities := right.grantedCapabilities }
  granted : left.grantedCapabilities ⊆ right.grantedCapabilities

/-- A success stays one, with a related value. -/
def KeepsOk {α : Type} (better : α → α → Prop) (left right : Result α) : Prop :=
  ∀ value, left = .ok value → ∃ value', right = .ok value' ∧ better value value'

/-- A call that succeeds on the left succeeds on the right, and returns at least as much. -/
inductive Outcome.Improves : Outcome → Outcome → Prop where
  | capabilities {left right : Result (CapabilitiesConfig × PolicySource)} :
      KeepsOk (fun value value' => value.1.Within value'.1 ∧ value.2 = value'.2)
        left right → Improves (.capabilities left) (.capabilities right)
  | session {left right : Result Session} : KeepsOk Session.Within left right →
      Improves (.session left) (.session right)
  | capability {left right : Result Bool} :
      KeepsOk (fun value value' => value = true → value' = true) left right →
      Improves (.capability left) (.capability right)
  | rateLimit {left right : Result Unit} : KeepsOk (fun _ _ => True) left right →
      Improves (.rateLimit left) (.rateLimit right)
  | audited : Improves .audited .audited
  | auditLog (events : List AuditEvent) : Improves (.auditLog events) (.auditLog events)
  | activeSessions {left right : Nat} : left ≤ right →
      Improves (.activeSessions left) (.activeSessions right)

/-- The completed calls are the same, and the outcomes on the right improve those on the left. -/
def ImprovedBy (left right : List (Call × Outcome)) : Prop :=
  List.Forall₂ (fun before after => before.1 = after.1 ∧ before.2.Improves after.2) left right

theorem Session.Within.expires_at_eq {left right : Session} (h : left.Within right) :
    right.expiresAt = left.expiresAt := by
  rw [h.others]

theorem Session.Within.session_id_eq {left right : Session} (h : left.Within right) :
    right.sessionId = left.sessionId := by
  rw [h.others]

theorem within_iff {left right : CapabilitiesConfig} :
    left.Within right ↔ left.listGranted ⊆ right.listGranted :=
  forall_congr' fun _ => by rw [mem_list_granted, mem_list_granted]

/-! ## Relaxed policies -/

/-- The entity may get more and do more, in the same mode. The `capabilities` block of an entity in
`Auto` mode, which nobody reads, is arbitrary. -/
structure EntityRelaxed (left right : PolicyConfig) (entity other : EntityConfig) : Prop where
  mode : other.mode = entity.mode
  manual : entity.mode = .manual → entity.capabilities.Within other.capabilities
  limits : ∀ interface, left.rateLimit entity interface ≤ right.rateLimit other interface

/-- Every entity of the left policy is in the right one, relaxed. -/
def PolicyConfig.Relaxed (left right : PolicyConfig) : Prop :=
  ∀ id entity, left.findEntity id = some entity →
    ∃ other, right.findEntity id = some other ∧ EntityRelaxed left right entity other

section Relaxed

variable {left right : EnforcementService} (h : left.policy.Relaxed right.policy)
include h

theorem has_capability_improves (entityId capability : String) :
    KeepsOk (fun value value' => value = true → value' = true)
      (left.hasCapability entityId capability) (right.hasCapability entityId capability) := by
  intro value hvalue
  unfold EnforcementService.hasCapability at hvalue ⊢
  cases hfind : left.policy.findEntity entityId with
  | none =>
      rw [hfind] at hvalue
      cases hvalue
  | some entity =>
      obtain ⟨other, hother, hrelaxed⟩ := h entityId entity hfind
      rw [hfind] at hvalue
      rw [hother]
      simp only [ok_or_else_some, bind, Except.bind, hrelaxed.mode] at hvalue ⊢
      cases hmode : entity.mode with
      | manual =>
          simp only [hmode, Except.ok.injEq] at hvalue ⊢
          exact ⟨_, rfl, hvalue ▸ hrelaxed.manual hmode capability⟩
      | auto model => simp [hmode] at hvalue

variable (hanalyzer : left.analyzer = right.analyzer)
include hanalyzer

theorem resolve_improves (entityId : String) (wasmBytes : Option Bytes) :
    KeepsOk (fun value value' => value.1.Within value'.1 ∧ value.2 = value'.2)
      (left.resolveCapabilities entityId wasmBytes)
      (right.resolveCapabilities entityId wasmBytes) := by
  intro value hvalue
  obtain ⟨caps, source⟩ := value
  obtain ⟨entity, hfind, rfl, hcaps⟩ := resolve_capabilities_ok_iff.mp hvalue
  obtain ⟨other, hother, hrelaxed⟩ := h entityId entity hfind
  suffices hresolves : ∃ caps', other.Resolves right.analyzer wasmBytes caps' ∧
      caps.Within caps' by
    obtain ⟨caps', hcaps', hwithin⟩ := hresolves
    refine ⟨(caps', other.mode.source), ?_, hwithin, by rw [hrelaxed.mode]⟩
    exact resolve_capabilities_ok_iff.mpr ⟨other, hother, rfl, hcaps'⟩
  unfold EntityConfig.Resolves at hcaps ⊢
  rw [hrelaxed.mode, ← hanalyzer]
  cases hmode : entity.mode with
  | manual =>
      rw [hmode] at hcaps
      exact ⟨_, rfl, hcaps ▸ hrelaxed.manual hmode⟩
  | auto model =>
      rw [hmode] at hcaps
      exact ⟨caps, hcaps, fun _ => id⟩

variable [Wasmparser]

/-- A larger grant covers what a smaller one does. -/
theorem authorize_improves (entityId : String) (wasmBytes : Option Bytes) :
    KeepsOk (fun value value' => value.1.Within value'.1 ∧ value.2 = value'.2)
      (left.authorize entityId wasmBytes) (right.authorize entityId wasmBytes) := by
  intro value hvalue
  obtain ⟨caps, source⟩ := value
  obtain ⟨hresolve, hchecked⟩ := authorize_ok_iff.mp hvalue
  obtain ⟨⟨caps', source'⟩, hresolve', hwithin, hsource⟩ :=
    resolve_improves h hanalyzer entityId wasmBytes _ hresolve
  refine ⟨(caps', source'), authorize_ok_iff.mpr ⟨hresolve', fun bytes hbytes => ?_⟩, hwithin,
    hsource⟩
  obtain ⟨checked, hok⟩ := hchecked bytes hbytes
  obtain ⟨hparses, hcovers, rfl⟩ := check_workload_ok_iff.mp hok
  refine ⟨_, check_workload_ok_iff.mpr ⟨hparses, ?_, rfl⟩⟩
  exact covers_iff_required.mpr fun bucket hbucket =>
    hwithin bucket (covers_iff_required.mp hcovers bucket hbucket)

theorem creation_improves (entityId : String) (wasmBytes : Option Bytes) (call : Call) :
    (left.creationAnswer entityId wasmBytes call).Improves
      (right.creationAnswer entityId wasmBytes call) := by
  refine .session fun session hsession => ?_
  cases hauthorize : left.authorize entityId wasmBytes with
  | error error =>
      rw [hauthorize] at hsession
      cases hsession
  | ok resolved =>
      rw [hauthorize] at hsession
      cases hsession
      obtain ⟨resolved', hauthorize', hwithin, hsource⟩ :=
        authorize_improves h hanalyzer entityId wasmBytes resolved hauthorize
      rw [hauthorize']
      refine ⟨_, rfl, ?_, within_iff.mp hwithin⟩
      simp [newSession, hsource]

end Relaxed

/-! ## The rate limiter under raised limits -/

/-- No two entities share the key of a counter. -/
def PolicyConfig.KeysApart (policy : PolicyConfig) : Prop :=
  ∀ entity ∈ policy.entities, ∀ interface, ¬ policy.KeyShared entity.id interface

section Limits

variable {left right : PolicyConfig}

theorem PolicyConfig.KeysApart.addresses_eq (hapart : right.KeysApart) {entityId : String}
    {entity : EntityConfig} (hfind : right.findEntity entityId = some entity)
    (interface : String) :
    right.limiter.addresses (counterKey entityId interface) =
      RateCall.isPair entityId interface := by
  obtain ⟨hmem, rfl⟩ := mem_of_find_entity hfind
  exact funext (addresses_iff_is_pair hfind (hapart entity hmem interface))

/-- The stricter policy lists fewer entities. -/
theorem keys_apart_of_relaxed (hformed : left.WellFormed) (h : left.Relaxed right)
    (hapart : right.KeysApart) : left.KeysApart := by
  have hlisted : ∀ entity ∈ left.entities, ∃ other ∈ right.entities, other.id = entity.id := by
    intro entity hmem
    have hfind := (find_entity_eq_some_iff hformed).mpr ⟨hmem, rfl⟩
    obtain ⟨other, hother, _⟩ := h entity.id entity hfind
    exact ⟨other, mem_of_find_entity hother⟩
  intro entity hmem interface hshared
  obtain ⟨holder, hholder, hne, hstarts⟩ := hshared
  obtain ⟨other, hother, hid⟩ := hlisted entity hmem
  obtain ⟨rival, hrival, hid'⟩ := hlisted holder hholder
  refine hapart other hother interface ⟨rival, hrival, ?_, ?_⟩
  · rwa [hid, hid']
  · rwa [hid, hid']

/-- A call that its window has room for under the lower limit is granted under the higher one. -/
theorem rate_answer_improves (hformed : left.WellFormed) (h : left.Relaxed right)
    (hapart : right.KeysApart) (earlier : List RateCall) (call : RateCall) :
    KeepsOk (fun _ _ => True) (left.rateAnswer earlier call) (right.rateAnswer earlier call) := by
  intro value hvalue
  unfold PolicyConfig.rateAnswer at hvalue ⊢
  cases hfind : left.findEntity call.entityId with
  | none =>
      rw [hfind] at hvalue
      cases hvalue
  | some entity =>
      obtain ⟨other, hother, hrelaxed⟩ := h call.entityId entity hfind
      have hlimits : ∀ request, request.isPair call.entityId call.interface = true →
          (left.callLimit request).toNat = (left.rateLimit entity call.interface).toNat ∧
            (left.rateLimit entity call.interface).toNat ≤ (right.callLimit request).toNat := by
        intro request hpair
        rw [call_limit_of_is_pair hfind hpair, call_limit_of_is_pair hother hpair]
        exact ⟨rfl, UInt64.le_iff_toNat_le.mp (hrelaxed.limits call.interface)⟩
      have hwindows : FixedWindow.Ahead (left.rateLimit entity call.interface).toNat
          (left.windowBefore earlier call) (right.windowBefore earlier call) := by
        unfold PolicyConfig.windowBefore
        rw [hapart.addresses_eq hother,
          (keys_apart_of_relaxed hformed h hapart).addresses_eq hfind]
        exact FixedWindow.ahead_final
          (fun request hrequest => hlimits request (List.mem_filter.mp hrequest).2) .none
      obtain ⟨heq, hle⟩ := hlimits call (is_pair_iff.mpr ⟨rfl, rfl⟩)
      have hraised : (left.windowStep (left.windowBefore earlier call) call).1 = true →
          (right.windowStep (right.windowBefore earlier call) call).1 = true := by
        refine (FixedWindow.ahead_step hwindows ?_ ?_).1
        · exact heq
        · exact hle
      rw [hfind] at hvalue
      rw [hother]
      simp only at hvalue ⊢
      split at hvalue
      · next hgranted => exact ⟨(), if_pos (hraised hgranted), trivial⟩
      · cases hvalue

end Limits

/-! ## Runs -/

theorem ImprovedBy.exists_mem {left right : List (Call × Outcome)} (h : ImprovedBy left right)
    {before : Call × Outcome} (hmem : before ∈ left) :
    ∃ after ∈ right, before.1 = after.1 ∧ before.2.Improves after.2 := by
  induction h with
  | nil => cases hmem
  | @cons first first' rest rest' hfirst _ ih =>
      rcases List.mem_cons.mp hmem with rfl | hrest
      · exact ⟨first', List.mem_cons_self, hfirst⟩
      · obtain ⟨after, hafter, himproves⟩ := ih hrest
        exact ⟨after, List.mem_cons_of_mem _ hafter, himproves⟩

theorem ImprovedBy.map_fst_eq {left right : List (Call × Outcome)} (h : ImprovedBy left right) :
    left.map Prod.fst = right.map Prod.fst := by
  induction h with
  | nil => rfl
  | cons hfirst _ ih => rw [List.map_cons, List.map_cons, hfirst.1, ih]

theorem ImprovedBy.rate_calls_eq {left right : List (Call × Outcome)} (h : ImprovedBy left right) :
    rateCalls left = rateCalls right := by
  have heq := congrArg (List.filterMap Call.rateCall) h.map_fst_eq
  rwa [List.filterMap_map, List.filterMap_map] at heq

theorem ImprovedBy.audit_events_eq {left right : List (Call × Outcome)}
    (h : ImprovedBy left right) : auditEvents left = auditEvents right := by
  have heq := congrArg (List.filterMap Call.auditEvent) h.map_fst_eq
  rwa [List.filterMap_map, List.filterMap_map] at heq

/-- A created session is created on the right as well. -/
theorem created_by_improves {call : Call} {outcome outcome' : Outcome} {made : Session}
    (h : outcome.Improves outcome') (hmade : createdBy (call, outcome) = some made) :
    ∃ made', createdBy (call, outcome') = some made' ∧ made.Within made' := by
  unfold createdBy at hmade
  split at hmade
  · next hcreation heq =>
      simp only at heq
      subst heq
      cases hmade
      cases h with
      | session hkeeps =>
          obtain ⟨made', rfl, hwithin⟩ := hkeeps made rfl
          exact ⟨made', by simp [createdBy, hcreation], hwithin⟩
  · cases hmade

/-- The ids of the sessions that were created are pairwise distinct. -/
def DistinctIds (past : List (Call × Outcome)) : Prop :=
  ((past.filterMap createdBy).map Session.sessionId).Nodup

instance (past : List (Call × Outcome)) : Decidable (DistinctIds past) :=
  inferInstanceAs (Decidable (List.Nodup _))

theorem last_session_improves {left right : List (Call × Outcome)} (h : ImprovedBy left right)
    (hids : DistinctIds right) {sessionId : Uuid} {session : Session}
    (hlast : lastSession left sessionId = some session) :
    ∃ session', lastSession right sessionId = some session' ∧ session.Within session' := by
  obtain ⟨hid, ⟨call, outcome⟩, hmem, hcreated⟩ := last_session_mem hlast
  obtain ⟨⟨call', outcome'⟩, hmem', hcall, himproves⟩ := h.exists_mem hmem
  obtain rfl : call = call' := hcall
  obtain ⟨session', hcreated', hwithin⟩ := created_by_improves himproves hcreated
  refine ⟨session', ?_, hwithin⟩
  have hreverse : ((right.filterMap createdBy).reverse.map Session.sessionId).Nodup := by
    rw [List.map_reverse]
    exact List.nodup_reverse.mpr hids
  rw [lastSession, UniqueKeys.find_eq_some_iff hreverse, List.mem_reverse]
  exact ⟨List.mem_filterMap.mpr ⟨_, hmem', hcreated'⟩, hwithin.session_id_eq.trans hid⟩

section Runs

variable [Wasmparser] {left right : EnforcementService}
  (h : left.policy.Relaxed right.policy) (hanalyzer : left.analyzer = right.analyzer)
  (hapart : right.policy.KeysApart)
include h hanalyzer hapart

/-- The answers to one call after improved histories. -/
theorem answer_improves {past past' : List (Call × Outcome)} (himproved : ImprovedBy past past')
    (hids : DistinctIds past') (call : Call) :
    (left.answer past call).Improves (right.answer past' call) := by
  unfold EnforcementService.answer
  cases call.operation with
  | resolveCapabilities entityId wasmBytes =>
      exact .capabilities (resolve_improves h hanalyzer entityId wasmBytes)
  | createSession entityId => exact creation_improves h hanalyzer entityId none call
  | createSessionWithWasm entityId wasmBytes =>
      exact creation_improves h hanalyzer entityId wasmBytes call
  | getSession sessionId =>
      refine .session fun session hsession => ?_
      cases hlast : lastSession past sessionId with
      | none => simp [hlast] at hsession
      | some found =>
          obtain ⟨found', hlast', hwithin⟩ := last_session_improves himproved hids hlast
          simp only [hlast] at hsession
          split at hsession
          · cases hsession
          · next hlive =>
              cases hsession
              rw [hlast']
              exact ⟨found', if_neg (by rwa [hwithin.expires_at_eq]), hwithin⟩
  | hasCapability entityId capability =>
      exact .capability (has_capability_improves h entityId capability)
  | checkRateLimit entityId interface =>
      rw [himproved.rate_calls_eq]
      exact .rateLimit (rate_answer_improves left.well_formed h hapart _ _)
  | audit => exact .audited
  | getAuditLog entityId limit =>
      rw [himproved.audit_events_eq]
      exact .auditLog _
  | activeSessionsCount =>
      refine .activeSessions (Finset.card_le_card fun sessionId hactive => ?_)
      obtain ⟨hmem, hlive⟩ := Finset.mem_filter.mp hactive
      obtain ⟨session, hlast⟩ := mem_session_ids_iff.mp hmem
      obtain ⟨session', hlast', hwithin⟩ := last_session_improves himproved hids hlast
      rw [Finset.mem_filter]
      refine ⟨mem_session_ids_iff.mpr ⟨session', hlast'⟩, ?_⟩
      rw [hlast, Option.any_some] at hlive
      rwa [hlast', Option.any_some, hwithin.expires_at_eq]

/-- Under a relaxed policy every call of a run returns at least what it returns under the stricter
one, when no id is drawn twice and no two entities share a counter. -/
theorem relaxation_keeps_successes (calls : List Call)
    (hids : DistinctIds (Mealy.trace right.perform .empty calls)) :
    ImprovedBy (Mealy.trace left.perform .empty calls)
      (Mealy.trace right.perform .empty calls) := by
  induction calls using List.reverseRecOn with
  | nil => exact .nil
  | append_singleton calls last ih =>
      rw [Mealy.trace_concat] at hids
      have hbefore : DistinctIds (Mealy.trace right.perform .empty calls) := by
        unfold DistinctIds at hids ⊢
        rw [List.filterMap_append, List.map_append] at hids
        exact hids.of_append_left
      have himproved := ih hbefore
      rw [Mealy.trace_concat, Mealy.trace_concat,
        (represents_step (represents_run left calls) last).1,
        (represents_step (represents_run right calls) last).1]
      exact List.rel_append himproved
        (.cons ⟨rfl, answer_improves h hanalyzer hapart himproved hbefore last⟩ .nil)

end Runs

/-- One entity, with a grant and a limit. -/
def sensorPolicy (capabilities : CapabilitiesConfig) (limit : UInt64) : PolicyConfig where
  version := "1.0"
  settings := { defaultRateLimit := limit }
  entities := [{ id := "sensor", capabilities }]

/-- The service of such a policy. -/
def sensorService (capabilities : CapabilitiesConfig) (limit : UInt64) : EnforcementService where
  policy := sensorPolicy capabilities limit
  analyzer := mockAnalyzer
  validated := rfl

theorem sensor_relaxed {capabilities capabilities' : CapabilitiesConfig}
    (hwithin : capabilities.Within capabilities') {limit limit' : UInt64} (hle : limit ≤ limit') :
    (sensorPolicy capabilities limit).Relaxed (sensorPolicy capabilities' limit') := by
  intro id entity hfind
  obtain ⟨hmem, rfl⟩ := mem_of_find_entity hfind
  obtain rfl := List.mem_singleton.mp hmem
  exact ⟨_, rfl, ⟨rfl, fun _ => hwithin, fun _ => hle⟩⟩

theorem sensor_keys_apart (capabilities : CapabilitiesConfig) (limit : UInt64) :
    (sensorPolicy capabilities limit).KeysApart := by
  intro entity hmem interface hshared
  obtain ⟨other, hother, hne, _⟩ := hshared
  rw [List.mem_singleton.mp hmem, List.mem_singleton.mp hother] at hne
  exact hne rfl

/-- With a second capability and a second operation a second, the session of the first call is found
with both capabilities, and the last call is granted. -/
theorem sensor_relaxation :
    ImprovedBy
      (Mealy.trace (@EnforcementService.perform sampleParser
          (sensorService { crypto := true } 1)) .empty
        [⟨.createSessionWithWasm "sensor" (some cryptoModule), 0, ⟨7⟩⟩,
          ⟨.getSession ⟨7⟩, 1, ⟨0⟩⟩, ⟨.checkRateLimit "sensor" "crypto", 2, ⟨0⟩⟩,
          ⟨.checkRateLimit "sensor" "crypto", 3, ⟨0⟩⟩])
      (Mealy.trace (@EnforcementService.perform sampleParser
          (sensorService { crypto := true, random := true } 2)) .empty
        [⟨.createSessionWithWasm "sensor" (some cryptoModule), 0, ⟨7⟩⟩,
          ⟨.getSession ⟨7⟩, 1, ⟨0⟩⟩, ⟨.checkRateLimit "sensor" "crypto", 2, ⟨0⟩⟩,
          ⟨.checkRateLimit "sensor" "crypto", 3, ⟨0⟩⟩]) :=
  @relaxation_keeps_successes sampleParser (sensorService { crypto := true } 1)
    (sensorService { crypto := true, random := true } 2)
    (sensor_relaxed (within_iff.mpr (by decide)) (by decide)) rfl (sensor_keys_apart _ _) _
    (by decide)

end HalEnforcement
