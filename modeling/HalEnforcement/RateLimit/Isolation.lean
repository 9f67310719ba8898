import HalEnforcement.RateLimit.Limiter

/-!
# Isolation of the rate limits of different pairs

Counters are kept under the text `entity:interface`, and neither `validate` nor the limiter keeps a
colon out of an entity id. `isolated_iff` says which pairs are isolated: those with limit 0, whose
calls are all refused, and those whose key does not start with the id of another entity and a colon.
For every other pair some run lets a call of the other entity move its window.
-/

namespace HalEnforcement

/-- The calls of a pair get the outcomes they would get without all the other calls. -/
def PolicyConfig.Isolated (policy : PolicyConfig) (entityId interface : String)
    (calls : List RateCall) : Prop :=
  (policy.rateTrace calls).filter (fun entry => entry.1.isPair entityId interface) =
    policy.rateTrace (calls.filter (RateCall.isPair entityId interface))

/-- Another listed entity has an id that continues, after a colon, to the key of the pair. -/
def PolicyConfig.KeyShared (policy : PolicyConfig) (entityId interface : String) : Prop :=
  ∃ other ∈ policy.entities, other.id ≠ entityId ∧
    startsWith (counterKey entityId interface) (other.id ++ ":") = true

theorem counter_key_eq (entityId interface : String) :
    counterKey entityId interface = entityId ++ ":" ++ interface := rfl

theorem counter_key_interface_inj {entityId interface interface' : String}
    (h : counterKey entityId interface = counterKey entityId interface') :
    interface = interface' := by
  have hlist := congrArg String.toList h
  simp only [counter_key_eq, String.toList_append, List.append_assoc,
    List.append_cancel_left_eq] at hlist
  exact String.toList_inj.mp hlist

/-- Without a shared key, the calls that address the counter of a pair are those of the pair. -/
theorem addresses_iff_is_pair {policy : PolicyConfig} {entityId interface : String}
    {entity : EntityConfig} (hentity : policy.findEntity entityId = some entity)
    (hshared : ¬ policy.KeyShared entityId interface) (call : RateCall) :
    policy.limiter.addresses (counterKey entityId interface) call =
      call.isPair entityId interface := by
  rw [Bool.eq_iff_iff]
  refine ⟨fun h => ?_, addresses_of_is_pair hentity⟩
  obtain ⟨⟨other, hother⟩, hkey⟩ := limiter_addresses_iff.mp h
  obtain ⟨hmem, hid⟩ := mem_of_find_entity hother
  have hsame : call.entityId = entityId := by
    by_contra hne
    refine hshared ⟨other, hmem, by rwa [hid], starts_with_iff.mpr ⟨call.interface, ?_⟩⟩
    rw [← hkey, counter_key_eq, hid]
  rw [is_pair_iff]
  rw [hsame] at hkey
  exact ⟨hsame, counter_key_interface_inj hkey⟩

/-- A pair whose key no other entity shares is isolated. -/
theorem isolated_of_not_key_shared {policy : PolicyConfig} {entityId interface : String}
    {entity : EntityConfig} (hentity : policy.findEntity entityId = some entity)
    (hshared : ¬ policy.KeyShared entityId interface) (calls : List RateCall) :
    policy.Isolated entityId interface calls := by
  have haddresses : policy.limiter.addresses (counterKey entityId interface) =
      RateCall.isPair entityId interface :=
    funext (addresses_iff_is_pair hentity hshared)
  -- both runs, seen by the calls of the pair, are the run of its counter
  have hfull := Keyed.trace_filter_key policy.limiter ∅ (counterKey entityId interface) calls
  have halone := Keyed.trace_filter_key policy.limiter ∅ (counterKey entityId interface)
    (calls.filter (RateCall.isPair entityId interface))
  rw [haddresses] at hfull halone
  rw [Mealy.trace_of_filter, List.filter_filter] at halone
  simp only [Bool.and_self] at halone
  rw [PolicyConfig.Isolated, PolicyConfig.rateTrace, PolicyConfig.rateTrace,
    rate_step_eq_limiter_step, hfull, halone]

/-- A pair with limit 0 is isolated: whatever the counter holds, its calls are refused. -/
theorem isolated_of_zero_limit {policy : PolicyConfig} {entityId interface : String}
    {entity : EntityConfig} (hentity : policy.findEntity entityId = some entity)
    (hzero : policy.rateLimit entity interface = 0) (calls : List RateCall) :
    policy.Isolated entityId interface calls := by
  have hanswer : ∀ (counters : Counters) (call : RateCall),
      call.isPair entityId interface = true → (policy.rateStep counters call).1 =
        .error (.rateLimitExceeded call.entityId
          s!"{(0 : UInt64)} operations/sec limit exceeded for {call.interface}") := by
    intro counters call hpair
    obtain ⟨hid, hinterface⟩ := is_pair_iff.mp hpair
    simp [PolicyConfig.rateStep, PolicyConfig.checkRateLimit, hid, hentity, hinterface, hzero,
      countOperation]
  have hfull := Mealy.trace_filter_of_output hanswer ∅ calls
  have halone := Mealy.trace_filter_of_output hanswer ∅
    (calls.filter (RateCall.isPair entityId interface))
  rw [Mealy.trace_of_filter, List.filter_filter] at halone
  simp only [Bool.and_self] at halone
  rw [PolicyConfig.Isolated, PolicyConfig.rateTrace, PolicyConfig.rateTrace, hfull, halone]

/-! ## Interference -/

/-- The calls of the pair in the run that shows two pairs interfere: `limit` calls just after the
other entity's call at 0, and one more when that call's window, but not one of the pair's own, is a
second old. -/
def interferedCalls (entityId interface : String) (limit : Nat) : List RateCall :=
  List.replicate limit ⟨entityId, interface, 1⟩ ++ [⟨entityId, interface, second⟩]

theorem is_pair_of_mem_interfered {entityId interface : String} {limit : Nat} {call : RateCall}
    (h : call ∈ interferedCalls entityId interface limit) :
    call.isPair entityId interface = true := by
  rcases List.mem_append.mp h with h | h
  · rw [List.eq_of_mem_replicate h]
    exact is_pair_iff.mpr ⟨rfl, rfl⟩
  · rw [List.mem_singleton.mp h]
    exact is_pair_iff.mpr ⟨rfl, rfl⟩

/-- Alone, the last of these calls is refused. -/
theorem last_refused_alone {policy : PolicyConfig} {entityId interface : String}
    {entity : EntityConfig} (hentity : policy.findEntity entityId = some entity)
    (hlimit : 0 < (policy.rateLimit entity interface).toNat) :
    (Mealy.trace policy.windowStep none
        (interferedCalls entityId interface (policy.rateLimit entity interface).toNat)).getLast? =
      some (⟨entityId, interface, second⟩, false) := by
  have hcall : ∀ now, policy.callLimit ⟨entityId, interface, now⟩ =
      policy.rateLimit entity interface :=
    fun now => call_limit_of_is_pair hentity (is_pair_iff.mpr ⟨rfl, rfl⟩)
  have hfinal : Mealy.final policy.windowStep none
      (List.replicate (policy.rateLimit entity interface).toNat ⟨entityId, interface, 1⟩) =
        some ⟨(policy.rateLimit entity interface).toNat, 1⟩ :=
    (FixedWindow.trace_opening second_pos (by simp) hlimit (by rw [hcall])).2
  have hopen : ¬ second ≤ second - (1 : Int) := by decide
  have hlast : (policy.windowStep (some ⟨(policy.rateLimit entity interface).toNat, 1⟩)
      ⟨entityId, interface, second⟩).1 = false := by
    rw [PolicyConfig.windowStep, FixedWindow.step_refused]
    rw [FixedWindow.look_open hopen, hcall]
    exact Nat.lt_irrefl _
  rw [interferedCalls, Mealy.trace_concat, hfinal, hlast, List.getLast?_concat]

/-- After a call of another entity at 0 the window stays open since then, whatever its outcome and
those of the pair's calls. -/
theorem window_after_other (policy : PolicyConfig) (otherId otherInterface entityId
    interface : String) (n : Nat) :
    ∃ count, Mealy.final policy.windowStep none
      (⟨otherId, otherInterface, 0⟩ :: List.replicate n ⟨entityId, interface, 1⟩) =
        some ⟨count, 0⟩ := by
  have hopen : ¬ second ≤ (1 : Int) - 0 := by decide
  rw [Mealy.final_cons, PolicyConfig.windowStep]
  by_cases hroom : 0 < (policy.callLimit ⟨otherId, otherInterface, 0⟩).toNat
  · rw [FixedWindow.step_granted (by simpa using hroom)]
    exact FixedWindow.opened_final_replicate ⟨1, 0⟩ n hopen
  · rw [FixedWindow.step_refused (by simpa using hroom)]
    exact FixedWindow.opened_final_replicate ⟨0, 0⟩ n hopen

/-- After it, the last call of the pair opens a new window and is granted. -/
theorem last_granted_after_other {policy : PolicyConfig} {entityId interface : String}
    {entity : EntityConfig} (hentity : policy.findEntity entityId = some entity)
    (hlimit : 0 < (policy.rateLimit entity interface).toNat) (otherId otherInterface : String) :
    ∃ front, Mealy.trace policy.windowStep none (⟨otherId, otherInterface, 0⟩ ::
        interferedCalls entityId interface (policy.rateLimit entity interface).toNat) =
      front ++ [(⟨entityId, interface, second⟩, true)] := by
  have hcall : policy.callLimit ⟨entityId, interface, second⟩ =
      policy.rateLimit entity interface :=
    call_limit_of_is_pair hentity (is_pair_iff.mpr ⟨rfl, rfl⟩)
  obtain ⟨count, hfinal⟩ := window_after_other policy otherId otherInterface entityId interface
    (policy.rateLimit entity interface).toNat
  have hlast : policy.windowStep (some ⟨count, 0⟩) ⟨entityId, interface, second⟩ =
      (true, some ⟨1, second⟩) :=
    FixedWindow.step_opening (by rwa [hcall]) (by simp)
  rw [interferedCalls, ← List.cons_append, Mealy.trace_concat, hfinal, hlast]
  exact ⟨_, rfl⟩

/-- A pair with a positive limit whose key another entity shares is not isolated. -/
theorem not_isolated_of_key_shared {policy : PolicyConfig} {entityId interface : String}
    {entity : EntityConfig} (hentity : policy.findEntity entityId = some entity)
    (hlimit : policy.rateLimit entity interface ≠ 0)
    (hshared : policy.KeyShared entityId interface) :
    ∃ calls, ¬ policy.Isolated entityId interface calls := by
  obtain ⟨other, hmem, hne, hstarts⟩ := hshared
  obtain ⟨otherInterface, hkey⟩ := starts_with_iff.mp hstarts
  have hpos : 0 < (policy.rateLimit entity interface).toNat :=
    Nat.pos_iff_ne_zero.mpr fun h => hlimit (UInt64.toNat_inj.mp h)
  obtain ⟨found, hfound⟩ : ∃ found, policy.findEntity other.id = some found := by
    rw [← Option.isSome_iff_exists, PolicyConfig.findEntity, List.find?_isSome]
    exact ⟨other, hmem, by simp⟩
  generalize hmine : interferedCalls entityId interface
    (policy.rateLimit entity interface).toNat = mine
  have hpair : ∀ call ∈ mine, call.isPair entityId interface = true := by
    intro call hcall
    rw [← hmine] at hcall
    exact is_pair_of_mem_interfered hcall
  have haddresses : ∀ call ∈ mine,
      policy.limiter.addresses (counterKey entityId interface) call = true :=
    fun call hcall => addresses_of_is_pair hentity (hpair call hcall)
  have hother : policy.limiter.addresses (counterKey entityId interface)
      ⟨other.id, otherInterface, 0⟩ = true :=
    limiter_addresses_iff.mpr ⟨⟨found, hfound⟩, hkey.symm⟩
  refine ⟨⟨other.id, otherInterface, 0⟩ :: mine, fun hisolated => ?_⟩
  have halone : List.filter (RateCall.isPair entityId interface)
      (⟨other.id, otherInterface, 0⟩ :: mine) = mine := by
    rw [List.filter_cons_of_neg (by simp [RateCall.isPair, hne]), List.filter_eq_self]
    exact hpair
  rw [PolicyConfig.Isolated, halone] at hisolated
  -- the last call tells the two runs apart: granted in the full run, refused alone
  have houtcomes := congrArg (fun trace =>
    (trace.map (Prod.map id Except.isOk)).getLast?) hisolated
  have hmap : (fun entry : RateCall × Result Unit => entry.1.isPair entityId interface) =
      (fun entry : RateCall × Bool => entry.1.isPair entityId interface) ∘
        Prod.map id Except.isOk := rfl
  obtain ⟨front, hfront⟩ := last_granted_after_other hentity hpos other.id otherInterface
  simp only [hmap, ← List.filter_map, rate_trace_of_one_key haddresses,
    rate_trace_of_one_key (List.forall_mem_cons.mpr ⟨hother, haddresses⟩)] at houtcomes
  rw [hmine] at hfront
  rw [hfront, List.filter_append, ← hmine, last_refused_alone hentity hpos] at houtcomes
  simp [RateCall.isPair] at houtcomes

/-- Exactly the pairs with limit 0 and those whose key no other entity shares are isolated from all
other calls in every run. -/
theorem isolated_iff (policy : PolicyConfig) (entityId interface : String) (entity : EntityConfig)
    (hentity : policy.findEntity entityId = some entity) :
    (∀ calls, policy.Isolated entityId interface calls) ↔
      policy.rateLimit entity interface = 0 ∨
        ∀ other ∈ policy.entities, other.id ≠ entityId →
          startsWith (counterKey entityId interface) (other.id ++ ":") = false := by
  have hshared : (∀ other ∈ policy.entities, other.id ≠ entityId →
      startsWith (counterKey entityId interface) (other.id ++ ":") = false) ↔
        ¬ policy.KeyShared entityId interface := by
    simp [PolicyConfig.KeyShared]
  rw [hshared]
  constructor
  · intro h
    by_contra hneg
    obtain ⟨hlimit, hkey⟩ := not_or.mp hneg
    obtain ⟨calls, hcalls⟩ := not_isolated_of_key_shared hentity hlimit (not_not.mp hkey)
    exact hcalls (h calls)
  · rintro (hzero | hkey) calls
    · exact isolated_of_zero_limit hentity hzero calls
    · exact isolated_of_not_key_shared hentity hkey calls

theorem isolated_tenant_crypto :
    tenantPolicy.Isolated "tenant" "crypto"
      [⟨"tenant:crypto", "hash", 0⟩, ⟨"tenant", "crypto", 1⟩, ⟨"tenant", "crypto:hash", second⟩,
        ⟨"tenant", "crypto", second⟩, ⟨"tenant", "crypto", second⟩] :=
  (isolated_iff tenantPolicy "tenant" "crypto" _ rfl).mpr (by decide) _

/-- A call of the second tenant uses up the budget of the first. -/
theorem not_isolated_tenant_crypto_hash :
    tenantPolicy.validate = .ok () ∧ (tenantPolicy.findEntity "tenant").isSome = true ∧
      ¬ tenantPolicy.Isolated "tenant" "crypto:hash"
        [⟨"tenant:crypto", "hash", 0⟩, ⟨"tenant", "crypto:hash", 1⟩] := by
  refine ⟨by decide, by decide, ?_⟩
  unfold PolicyConfig.Isolated
  decide

end HalEnforcement
