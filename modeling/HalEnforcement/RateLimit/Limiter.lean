import HalEnforcement.Library.FixedWindow
import HalEnforcement.Library.KeyedStore
import HalEnforcement.Service

/-!
# Runs of the rate limiter

A run is a list of `check_rate_limit` calls with the readings they take under the counters lock,
from the empty map of a new service. Two facts reduce a run to the counters it touches:
`rate_step_eq_limiter_step`, which makes the limiter a machine over a keyed store, and
`count_operation_refines`, which makes the counter of one key a fixed-window counter with a period
of one second. `granted_where_eq_grants` combines them for the calls of one pair of an entity and an
interface.
-/

namespace HalEnforcement

/-- A `check_rate_limit` call and the reading it takes. -/
structure RateCall where
  entityId : String
  interface : String
  now : Int
  deriving DecidableEq, Repr

/-- The call names this pair. -/
def RateCall.isPair (entityId interface : String) (call : RateCall) : Bool :=
  decide (call.entityId = entityId ∧ call.interface = interface)

theorem is_pair_iff {call : RateCall} {entityId interface : String} :
    call.isPair entityId interface = true ↔
      call.entityId = entityId ∧ call.interface = interface := by
  simp [RateCall.isPair]

/-- The limiter as a machine reading calls. -/
def PolicyConfig.rateStep (policy : PolicyConfig) (counters : Counters) (call : RateCall) :
    Result Unit × Counters :=
  policy.checkRateLimit counters call.entityId call.interface call.now

/-- The outcomes of a run of calls on a new service. -/
def PolicyConfig.rateTrace (policy : PolicyConfig) (calls : List RateCall) :
    List (RateCall × Result Unit) :=
  Mealy.trace policy.rateStep ∅ calls

/-- How many calls of a pair are granted at readings a test selects. -/
def PolicyConfig.grantedWhere (policy : PolicyConfig) (entityId interface : String)
    (within : Int → Bool) (calls : List RateCall) : Nat :=
  (policy.rateTrace calls).countP fun entry =>
    entry.1.isPair entityId interface && within entry.1.now && entry.2.isOk

/-- The clock never steps back during the run. -/
def ReadingsSorted (calls : List RateCall) : Prop :=
  calls.Pairwise fun earlier later => earlier.now ≤ later.now

/-- The limit a call is checked against; an unknown entity is checked against none. -/
def PolicyConfig.callLimit (policy : PolicyConfig) (call : RateCall) : UInt64 :=
  match policy.findEntity call.entityId with
  | some entity => policy.rateLimit entity call.interface
  | none => 0

/-- The limiter as a machine over a keyed store: a call of a known entity addresses the counter of
its key, and a call of an unknown one none. -/
def PolicyConfig.limiter (policy : PolicyConfig) :
    Keyed String OperationCounter RateCall (Result Unit) where
  key call := (policy.findEntity call.entityId).map fun _ =>
    counterKey call.entityId call.interface
  act cell call := countOperation cell call.entityId call.interface (policy.callLimit call) call.now
  miss call := .error (.entityNotFound call.entityId)

/-- The limiter's step is that of the keyed machine. -/
theorem rate_step_eq_limiter_step (policy : PolicyConfig) :
    policy.rateStep = policy.limiter.step := by
  funext counters call
  cases h : policy.findEntity call.entityId with
  | none =>
      have hkey : policy.limiter.key call = none := by simp [PolicyConfig.limiter, h]
      rw [Keyed.step_miss hkey]
      simp [PolicyConfig.rateStep, PolicyConfig.checkRateLimit, h, PolicyConfig.limiter]
  | some entity =>
      have hkey : policy.limiter.key call = some (counterKey call.entityId call.interface) := by
        simp [PolicyConfig.limiter, h]
      rw [Keyed.step_hit hkey]
      simp [PolicyConfig.rateStep, PolicyConfig.checkRateLimit, h, PolicyConfig.limiter,
        PolicyConfig.callLimit]

theorem limiter_addresses_iff {policy : PolicyConfig} {key : String} {call : RateCall} :
    policy.limiter.addresses key call = true ↔
      (∃ entity, policy.findEntity call.entityId = some entity) ∧
        counterKey call.entityId call.interface = key := by
  rw [Keyed.addresses, decide_eq_true_eq]
  simp only [PolicyConfig.limiter, Option.map_eq_some_iff, exists_and_right]

/-- A call of a pair addresses the counter of its key. -/
theorem addresses_of_is_pair {policy : PolicyConfig} {entityId interface : String}
    {entity : EntityConfig} (hentity : policy.findEntity entityId = some entity) {call : RateCall}
    (h : call.isPair entityId interface = true) :
    policy.limiter.addresses (counterKey entityId interface) call = true := by
  obtain ⟨hid, hinterface⟩ := is_pair_iff.mp h
  rw [limiter_addresses_iff, hid, hinterface]
  exact ⟨⟨entity, hentity⟩, rfl⟩

/-- A call of a pair is checked against the limit of the pair. -/
theorem call_limit_of_is_pair {policy : PolicyConfig} {entityId interface : String}
    {entity : EntityConfig} (hentity : policy.findEntity entityId = some entity) {call : RateCall}
    (h : call.isPair entityId interface = true) :
    policy.callLimit call = policy.rateLimit entity interface := by
  obtain ⟨hid, hinterface⟩ := is_pair_iff.mp h
  simp [PolicyConfig.callLimit, hid, hentity, hinterface]

/-- Two tenants: the id of the second is that of the first, a colon and an interface. The pairs
(`tenant`, `crypto:hash`) and (`tenant:crypto`, `hash`) share a counter under different limits. -/
def tenantPolicy : PolicyConfig where
  version := "1.0"
  entities :=
    [{ id := "tenant"
       rateLimits := (AList.singleton "crypto" ⟨2, 2⟩).insert "crypto:hash" ⟨1, 2⟩ },
     { id := "tenant:crypto", rateLimits := AList.singleton "hash" ⟨3, 6⟩ }]

/-! ## One counter is a fixed window of one second -/

/-- The fixed window a counter stands for. -/
def OperationCounter.window (counter : OperationCounter) : FixedWindow.Window :=
  ⟨counter.count.toNat, counter.lastReset⟩

/-- The limiter's limit and clock, as the fixed-window machine takes them. -/
def PolicyConfig.windowStep (policy : PolicyConfig) :
    Option FixedWindow.Window → RateCall → Bool × Option FixedWindow.Window :=
  FixedWindow.step second (fun call => (policy.callLimit call).toNat) RateCall.now

theorem open_counter_window (cell : Option OperationCounter) (rateLimit : UInt64) (now : Int) :
    (openCounter cell rateLimit now).window =
      FixedWindow.look second (cell.map OperationCounter.window) now := by
  cases cell with
  | none =>
      simp [openCounter, OperationCounter.window]
  | some counter =>
      simp only [openCounter, Option.getD_some, ge_iff_le, one_le_num_seconds, Option.map_some]
      by_cases h : second ≤ now - counter.lastReset
      · rw [if_pos h, FixedWindow.look_expired h]
        rfl
      · rw [if_neg h, FixedWindow.look_open h]

/-- A counter below a limit has room for one more in 64 bits. -/
theorem count_add_one {count limit : UInt64} (h : count < limit) :
    (count + 1).toNat = count.toNat + 1 := by
  have hlt := UInt64.lt_iff_toNat_lt.mp h
  have hmax := limit.toNat_lt
  rw [UInt64.toNat_add, UInt64.toNat_one, Nat.mod_eq_of_lt (by omega)]

/-- The critical section of `check_rate_limit` is one step of a fixed window of one second. -/
theorem count_operation_refines (policy : PolicyConfig) (cell : Option OperationCounter)
    (call : RateCall) :
    (policy.limiter.cellStep cell call).1.isOk =
        (policy.windowStep (cell.map OperationCounter.window) call).1 ∧
      (policy.limiter.cellStep cell call).2.map OperationCounter.window =
        (policy.windowStep (cell.map OperationCounter.window) call).2 := by
  have hlook := open_counter_window cell (policy.callLimit call) call.now
  by_cases hroom : (openCounter cell (policy.callLimit call) call.now).count <
      policy.callLimit call
  · have hwindow := UInt64.lt_iff_toNat_lt.mp hroom
    rw [PolicyConfig.windowStep, FixedWindow.step_granted (by rwa [← hlook])]
    simp only [Keyed.cellStep, PolicyConfig.limiter, countOperation, ge_iff_le,
      UInt64.not_le.mpr hroom, if_false]
    exact ⟨rfl, by simp [← hlook, OperationCounter.window, count_add_one hroom]⟩
  · have hfull : policy.callLimit call ≤
        (openCounter cell (policy.callLimit call) call.now).count := UInt64.not_lt.mp hroom
    have hwindow := UInt64.le_iff_toNat_le.mp hfull
    rw [PolicyConfig.windowStep, FixedWindow.step_refused (by
      rw [← hlook]; exact Nat.not_lt.mpr hwindow)]
    simp only [Keyed.cellStep, PolicyConfig.limiter, countOperation, ge_iff_le, hfull, if_true]
    exact ⟨rfl, by simp [← hlook]⟩

/-- The run of one counter, with its outcomes reduced to granted or not, is the run of its
window. -/
theorem cell_trace_refines (policy : PolicyConfig) (calls : List RateCall) :
    (Mealy.trace policy.limiter.cellStep none calls).map (Prod.map id Except.isOk) =
      Mealy.trace policy.windowStep none calls := by
  refine Mealy.trace_map_of_simulation
    (R := fun cell window => cell.map OperationCounter.window = window) rfl ?_ calls
  rintro cell _ call rfl
  exact count_operation_refines policy cell call

/-- A run of calls that all address one key has the outcomes of the window of this key. -/
theorem rate_trace_of_one_key {policy : PolicyConfig} {key : String} {calls : List RateCall}
    (h : ∀ call ∈ calls, policy.limiter.addresses key call = true) :
    (policy.rateTrace calls).map (Prod.map id Except.isOk) =
      Mealy.trace policy.windowStep none calls := by
  have hall : calls.filter (policy.limiter.addresses key) = calls := List.filter_eq_self.mpr h
  have hkey := Keyed.trace_filter_key policy.limiter ∅ key (calls.filter
    (policy.limiter.addresses key))
  rw [Mealy.trace_of_filter, List.filter_filter, Finmap.lookup_empty] at hkey
  simp only [Bool.and_self, hall] at hkey
  rw [PolicyConfig.rateTrace, rate_step_eq_limiter_step, hkey, cell_trace_refines]

theorem cell_final_refines (policy : PolicyConfig) (calls : List RateCall) :
    (Mealy.final policy.limiter.cellStep none calls).map OperationCounter.window =
      Mealy.final policy.windowStep none calls := by
  refine Mealy.final_of_simulation (R := fun (cell : Option OperationCounter) window =>
    cell.map OperationCounter.window = window) rfl ?_ calls
  rintro cell _ call rfl
  exact (count_operation_refines policy cell call).2

/-- After any run, the next call of a known entity is granted when the window that the earlier calls
under its key have left admits it. -/
theorem rate_step_final_refines {policy : PolicyConfig} {call : RateCall} {entity : EntityConfig}
    (hentity : policy.findEntity call.entityId = some entity) (calls : List RateCall) :
    (policy.rateStep (Mealy.final policy.rateStep ∅ calls) call).1.isOk =
      (policy.windowStep (Mealy.final policy.windowStep none
        (calls.filter (policy.limiter.addresses (counterKey call.entityId call.interface))))
          call).1 := by
  have hkey : policy.limiter.key call = some (counterKey call.entityId call.interface) := by
    simp [PolicyConfig.limiter, hentity]
  have hcell := Keyed.lookup_final policy.limiter ∅ (counterKey call.entityId call.interface) calls
  rw [Finmap.lookup_empty] at hcell
  rw [rate_step_eq_limiter_step, (Keyed.step_eq_cell_step _ hkey).1, hcell,
    (count_operation_refines policy _ call).1, cell_final_refines]

/-- The granted calls of a pair are those its counter's window admits, among all calls that share
the key. -/
theorem granted_where_eq_grants {policy : PolicyConfig} {entityId : String}
    {entity : EntityConfig} (hentity : policy.findEntity entityId = some entity)
    (interface : String) (within : Int → Bool) (calls : List RateCall) :
    policy.grantedWhere entityId interface within calls =
      FixedWindow.grants (fun call => call.isPair entityId interface && within call.now)
        (Mealy.trace policy.windowStep none
          (calls.filter (policy.limiter.addresses (counterKey entityId interface)))) := by
  rw [← cell_trace_refines]
  have hkey := Keyed.trace_filter_key policy.limiter ∅
    (counterKey entityId interface) calls
  rw [Finmap.lookup_empty] at hkey
  rw [← hkey, ← rate_step_eq_limiter_step, FixedWindow.grants, List.countP_map,
    List.countP_filter, PolicyConfig.grantedWhere, PolicyConfig.rateTrace]
  refine List.countP_congr fun entry _ => ?_
  simp only [Bool.and_eq_true, Function.comp_apply, Prod.map_fst, Prod.map_snd, id_eq]
  constructor
  · intro h
    obtain ⟨⟨hpair, hwithin⟩, hok⟩ := h
    exact ⟨⟨hok, hpair, hwithin⟩, addresses_of_is_pair hentity hpair⟩
  · intro h
    obtain ⟨⟨hok, hpair, hwithin⟩, _⟩ := h
    exact ⟨⟨hpair, hwithin⟩, hok⟩

end HalEnforcement
