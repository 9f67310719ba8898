import HalEnforcement.RateLimit.Limiter

/-!
# Refused calls

`check_rate_limit` may insert a counter and may restart its window before it comes to refuse a call.
Against a limit that is not zero it never does both: a counter it has just inserted or restarted
admits the call (`count_operation_refused`). Since `validate` rejects a configured limit of zero, a
refused call of a configured interface leaves the counters as they were, and so does a call of an
unknown entity. `refused_calls_cost_nothing` carries this over to runs without such calls.
-/

namespace HalEnforcement

/-- The call names an entity that is not listed, or an interface with a limit of its own. -/
def PolicyConfig.unknownOrConfigured (policy : PolicyConfig) (call : RateCall) : Bool :=
  match policy.findEntity call.entityId with
  | none => true
  | some entity => (entity.rateLimits.lookup call.interface).isSome

/-- A refused call that names an unknown entity or an interface with a configured limit. -/
def PolicyConfig.FreeRefusal (policy : PolicyConfig) (entry : RateCall × Result Unit) : Prop :=
  entry.2.isOk = false ∧ policy.unknownOrConfigured entry.1 = true

/-- A limit configured in a valid policy is not zero. -/
theorem rate_limit_ne_zero_of_lookup {policy : PolicyConfig} (hvalid : policy.validate = .ok ())
    {entityId interface : String} {entity : EntityConfig}
    (hentity : policy.findEntity entityId = some entity)
    (hconfigured : (entity.rateLimits.lookup interface).isSome = true) :
    policy.rateLimit entity interface ≠ 0 := by
  obtain ⟨limit, hlimit⟩ := Option.isSome_iff_exists.mp hconfigured
  have hwell := ((validate_ok_iff policy).mp hvalid).entities entity (mem_of_find_entity hentity).1
  rw [PolicyConfig.rateLimit, hlimit]
  exact hwell.limit_ne_zero interface limit hlimit

/-- A counter that refuses a call against a positive limit was there before, in an open window. -/
theorem count_operation_refused {cell : Option OperationCounter} {entityId interface : String}
    {rateLimit : UInt64} {now : Int} (hlimit : rateLimit ≠ 0)
    (h : (countOperation cell entityId interface rateLimit now).1.isOk = false) :
    cell = some (countOperation cell entityId interface rateLimit now).2 := by
  have hpos : ¬ (0 : UInt64) ≥ rateLimit := by
    intro hle
    exact hlimit (UInt64.le_zero_iff.mp hle)
  by_cases hfull : (openCounter cell rateLimit now).count ≥ rateLimit
  · have hkept : (countOperation cell entityId interface rateLimit now).2 =
        openCounter cell rateLimit now := by simp [countOperation, hfull]
    rw [hkept]
    cases cell with
    | none =>
        -- a new counter is empty, whether or not its window counts as a second old
        have hcount : (openCounter none rateLimit now).count = 0 := by
          simp only [openCounter, Option.getD_none]
          split <;> rfl
        rw [hcount] at hfull
        exact absurd hfull hpos
    | some counter =>
        by_cases hold : numSeconds (now - counter.lastReset) ≥ 1
        · simp only [openCounter, Option.getD_some, hold, if_true] at hfull
          exact absurd hfull hpos
        · simp [openCounter, hold]
  · simp [countOperation, hfull, Except.isOk, Except.toBool] at h

theorem insert_of_lookup {counters : Counters} {key : String} {counter : OperationCounter}
    (h : counters.lookup key = some counter) : counters.insert key counter = counters := by
  refine Finmap.ext_lookup fun other => ?_
  by_cases hother : other = key
  · subst hother
    rw [Finmap.lookup_insert, h]
  · rw [Finmap.lookup_insert_of_ne _ hother]

/-- Under a valid policy such a refusal leaves the counters as they were. -/
theorem rate_step_of_free_refusal {policy : PolicyConfig} (hvalid : policy.validate = .ok ())
    {counters : Counters} {call : RateCall}
    (h : policy.FreeRefusal (call, (policy.rateStep counters call).1)) :
    (policy.rateStep counters call).2 = counters := by
  obtain ⟨hrefused, hfree⟩ := h
  simp only [PolicyConfig.rateStep, PolicyConfig.checkRateLimit] at hrefused ⊢
  cases hentity : policy.findEntity call.entityId with
  | none => rfl
  | some entity =>
      simp only [PolicyConfig.unknownOrConfigured, hentity] at hfree
      simp only [hentity] at hrefused
      have hlimit := rate_limit_ne_zero_of_lookup hvalid hentity hfree
      exact insert_of_lookup (count_operation_refused hlimit hrefused)

/-- In every run of a valid policy, a refused call of an unknown entity or of an interface with a
configured limit leaves all counters as they were; and the run without any choice of these calls
gives the others the same outcomes. -/
theorem refused_calls_cost_nothing (policy : PolicyConfig) (hvalid : policy.validate = .ok ())
    (calls : List RateCall) :
    (∀ before call after, calls = before ++ call :: after →
      policy.FreeRefusal (call,
        (policy.rateStep (Mealy.final policy.rateStep ∅ before) call).1) →
      Mealy.final policy.rateStep ∅ (before ++ [call]) = Mealy.final policy.rateStep ∅ before) ∧
    ∀ kept, Mealy.Erased policy.FreeRefusal (policy.rateTrace calls) kept →
      kept = policy.rateTrace (kept.map Prod.fst) := by
  constructor
  · intro before call after _ hrefusal
    rw [Mealy.final_concat]
    exact rate_step_of_free_refusal hvalid hrefusal
  · intro kept hkept
    exact Mealy.eq_trace_of_erased
      (fun counters call _ hrefusal => rate_step_of_free_refusal hvalid hrefusal) hkept

/-- The third call of the second is refused and can be left out. -/
theorem refused_calls_cost_nothing_tenant :
    [((⟨"tenant", "crypto", 0⟩ : RateCall), (.ok () : Result Unit)),
      (⟨"tenant", "crypto", 1⟩, .ok ()), (⟨"tenant", "crypto", second⟩, .ok ())] =
    tenantPolicy.rateTrace
      [⟨"tenant", "crypto", 0⟩, ⟨"tenant", "crypto", 1⟩, ⟨"tenant", "crypto", second⟩] := by
  refine (refused_calls_cost_nothing tenantPolicy (by decide)
    [⟨"tenant", "crypto", 0⟩, ⟨"tenant", "crypto", 1⟩, ⟨"tenant", "crypto", 2⟩,
      ⟨"tenant", "crypto", second⟩]).2 _ ?_
  have hrefusal : tenantPolicy.FreeRefusal (⟨"tenant", "crypto", 2⟩,
      .error (.rateLimitExceeded "tenant" "2 operations/sec limit exceeded for crypto")) :=
    ⟨rfl, by decide⟩
  have htrace : tenantPolicy.rateTrace
      [⟨"tenant", "crypto", 0⟩, ⟨"tenant", "crypto", 1⟩, ⟨"tenant", "crypto", 2⟩,
        ⟨"tenant", "crypto", second⟩] =
      [(⟨"tenant", "crypto", 0⟩, .ok ()), (⟨"tenant", "crypto", 1⟩, .ok ()),
        (⟨"tenant", "crypto", 2⟩,
          .error (.rateLimitExceeded "tenant" "2 operations/sec limit exceeded for crypto")),
        (⟨"tenant", "crypto", second⟩, .ok ())] := by decide
  rw [htrace]
  exact .keep _ (.keep _ (.erase hrefusal (.keep _ .nil)))

end HalEnforcement
