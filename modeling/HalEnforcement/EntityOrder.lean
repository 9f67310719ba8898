import HalEnforcement.Operations

/-!
# The order of the entities in a policy

Lookup takes the first match and validation stops at the first error, so both depend on the order of
the entities as they are written. `entity_order_irrelevant` says that no permutation shows: neither
in the verdict of validation nor in any sequence of operations on an accepted policy.
-/

namespace HalEnforcement

/-- Lookup by id and the list of ids describe the same entities, each listed once. -/
structure EnforcementService.ExactLookup (self : EnforcementService) : Prop where
  find : ∀ entity ∈ self.policy.entities, self.policy.findEntity entity.id = some entity
  list_nodup : self.listEntities.Nodup
  config_isSome : ∀ id, (self.getEntityConfig id).isSome = true ↔ id ∈ self.listEntities

theorem exact_lookup (service : EnforcementService) : service.ExactLookup where
  find entity hmem := (find_entity_eq_some_iff service.well_formed).mpr ⟨hmem, rfl⟩
  list_nodup := service.well_formed.ids_nodup
  config_isSome id := by
    rw [EnforcementService.getEntityConfig, Option.isSome_iff_exists,
      EnforcementService.listEntities, List.mem_map]
    exact exists_congr fun _ => find_entity_eq_some_iff service.well_formed

theorem well_formed_of_perm {left right : PolicyConfig} (hversion : left.version = right.version)
    (hperm : left.entities.Perm right.entities) (h : left.WellFormed) : right.WellFormed where
  version_ne_empty := by
    rw [← hversion]
    exact h.version_ne_empty
  ids_nodup := (hperm.map EntityConfig.id).nodup_iff.mp h.ids_nodup
  entities entity hmem := h.entities entity (hperm.mem_iff.mpr hmem)

/-- Validation accepts a policy in every order or in none. -/
theorem validate_perm {policy : PolicyConfig} {entities : List EntityConfig}
    (hperm : policy.entities.Perm entities) :
    policy.validate = .ok () ↔ { policy with entities }.validate = .ok () := by
  rw [validate_ok_iff, validate_ok_iff]
  exact ⟨well_formed_of_perm rfl hperm, well_formed_of_perm rfl hperm.symm⟩

theorem find_entity_perm {policy : PolicyConfig} {entities : List EntityConfig}
    (hperm : policy.entities.Perm entities) (h : policy.WellFormed) (id : String) :
    policy.findEntity id = { policy with entities }.findEntity id :=
  UniqueKeys.find_perm h.ids_nodup hperm id

/-- Policies that differ in the order of their entities are similar. -/
theorem similar_of_perm {policy : PolicyConfig} {entities : List EntityConfig}
    (hperm : policy.entities.Perm entities) (h : policy.WellFormed) :
    policy.Similar { policy with entities } where
  settings := rfl
  find id := by
    rw [← find_entity_perm hperm h id]
    cases policy.findEntity id with
    | none => exact .none
    | some entity => exact .some (.refl entity)

/-- Permuting the entities of a policy changes neither what validation says nor, once it is
accepted, any lookup or the outcome of any sequence of operations. -/
theorem entity_order_irrelevant [Wasmparser] (policy : PolicyConfig) (entities : List EntityConfig)
    (hperm : policy.entities.Perm entities) :
    (policy.validate = .ok () ↔ { policy with entities }.validate = .ok ()) ∧
    (policy.validate = .ok () → ∃ service service' : EnforcementService,
      EnforcementService.new policy = .ok service ∧
      EnforcementService.new { policy with entities } = .ok service' ∧
      service.ExactLookup ∧ service'.ExactLookup ∧
      ∀ analyzer state calls,
        Mealy.trace (service.withAnalyzer analyzer).perform state calls =
          Mealy.trace (service'.withAnalyzer analyzer).perform state calls) := by
  refine ⟨validate_perm hperm, fun hvalid => ?_⟩
  obtain ⟨service, hnew⟩ := new_ok_iff.mpr hvalid
  obtain ⟨service', hnew'⟩ := new_ok_iff.mpr ((validate_perm hperm).mp hvalid)
  refine ⟨service, service', hnew, hnew', exact_lookup service, exact_lookup service',
    fun analyzer state calls => ?_⟩
  have hsimilar : (service.withAnalyzer analyzer).policy.Similar
      (service'.withAnalyzer analyzer).policy := by
    rw [EnforcementService.withAnalyzer, EnforcementService.withAnalyzer]
    simp only [new_policy hnew, new_policy hnew']
    exact similar_of_perm hperm ((validate_ok_iff policy).mp hvalid)
  rw [perform_eq_of_similar hsimilar rfl]

theorem validate_mixed_policy_reverse :
    { mixedPolicy with entities := mixedPolicy.entities.reverse }.validate = .ok () :=
  (@entity_order_irrelevant sampleParser mixedPolicy _ (List.reverse_perm _).symm).1.mp
    (by decide)

end HalEnforcement
