import HalEnforcement.Library.FirstFailure
import HalEnforcement.Service

/-!
# Loading and validating a policy

`PolicyConfig::from_file` and `EnforcementService::from_file`, over the file system and the YAML
parser they call. Validation runs twice on the way to a service: in `PolicyConfig::from_file` and
again in `EnforcementService::new`.

`PolicyConfig.FirstProblem` says which problem of a policy `validate` reports: that of the version
before a repeated id, and that before an entity with a problem of its own. `loading_explained` is
the main result: which files give a service, and with which error every other file is refused.
-/

namespace HalEnforcement

open FirstFailure

/-- `std::fs::read_to_string` and `serde_yaml::from_str`. An error is kept as its rendered text. -/
class PolicyReader where
  readToString : String → Except String String
  fromStr : String → Except String PolicyConfig

section Loaders

variable [PolicyReader]

/-- `PolicyConfig::from_yaml`. -/
def PolicyConfig.fromYaml (yaml : String) : Result PolicyConfig := do
  let config ← mapErr (PolicyReader.fromStr yaml) .yaml
  config.validate
  .ok config

/-- `PolicyConfig::from_file`. -/
def PolicyConfig.fromFile (path : String) : Result PolicyConfig := do
  let content ← mapErr (PolicyReader.readToString path) .io
  let config ← mapErr (PolicyReader.fromStr content) .yaml
  config.validate
  .ok config

/-- `EnforcementService::from_file`. -/
def EnforcementService.fromFile (path : String) : Result EnforcementService := do
  let policy ← PolicyConfig.fromFile path
  EnforcementService.new policy

end Loaders

/-! ## The first problem of a policy -/

/-- A rate limit of zero. -/
def ZeroLimit (entry : (_ : String) × RateLimitConfig) (error : EnforcementError) : Prop :=
  entry.2.operationsPerSecond = 0 ∧
    error = .config s!"Rate limit for {entry.1} cannot be zero"

/-- What `EntityConfig::validate` reports. -/
inductive EntityConfig.FirstProblem (entity : EntityConfig) : EnforcementError → Prop where
  | emptyId : entity.id = "" → entity.FirstProblem (.config "Entity ID cannot be empty")
  | zeroLimit {error : EnforcementError} : entity.id ≠ "" →
      First (fun entry => entry.2.operationsPerSecond ≠ 0) ZeroLimit entity.rateLimits.entries
        error → entity.FirstProblem error

/-- The first entity of the list with an id that is taken, by an id seen before the list or by an
earlier entity. -/
def FirstRepeat (ids : Finset String) (entities : List EntityConfig) (entity : EntityConfig) :
    Prop :=
  ∃ before after, entities = before ++ entity :: after ∧
    (before.map EntityConfig.id).Nodup ∧ (∀ other ∈ before, other.id ∉ ids) ∧
    (entity.id ∈ ids ∨ entity.id ∈ before.map EntityConfig.id)

/-- What `PolicyConfig::validate` reports. -/
inductive PolicyConfig.FirstProblem (policy : PolicyConfig) : EnforcementError → Prop where
  | version : policy.version = "" → policy.FirstProblem (.config "Version is required")
  | duplicate {entity : EntityConfig} : policy.version ≠ "" →
      FirstRepeat ∅ policy.entities entity →
      policy.FirstProblem (.config s!"Duplicate entity ID: {entity.id}")
  | entity {error : EnforcementError} : policy.version ≠ "" →
      (policy.entities.map EntityConfig.id).Nodup →
      First EntityConfig.WellFormed EntityConfig.FirstProblem policy.entities error →
      policy.FirstProblem error

theorem entity_validate_error_iff (entity : EntityConfig) (error : EnforcementError) :
    entity.validate = .error error ↔ entity.FirstProblem error := by
  simp only [EntityConfig.validate, then_eq_error, fail_if_eq_ok, fail_if_eq_error,
    for_m_eq_error]
  constructor
  · intro h
    rcases h with ⟨hid, rfl⟩ | ⟨hid, hlimit⟩
    · exact .emptyId (by simpa using hid)
    · exact .zeroLimit (by simpa using hid) hlimit
  · intro h
    cases h with
    | emptyId hid => exact .inl ⟨by simp [hid], rfl⟩
    | zeroLimit hid hlimit => exact .inr ⟨by simpa using hid, hlimit⟩

theorem not_first_repeat_nil {ids : Finset String} {entity : EntityConfig} :
    ¬ FirstRepeat ids [] entity := by
  intro h
  obtain ⟨before, after, hsplit, _⟩ := h
  simp at hsplit

/-- The next entity has a taken id, or its id is taken from now on. -/
theorem first_repeat_cons {ids : Finset String} {next entity : EntityConfig}
    {rest : List EntityConfig} :
    FirstRepeat ids (next :: rest) entity ↔
      next.id ∈ ids ∧ next = entity ∨
        next.id ∉ ids ∧ FirstRepeat (insert next.id ids) rest entity := by
  constructor
  · intro h
    obtain ⟨before, after, hsplit, hnodup, hfresh, htaken⟩ := h
    cases before with
    | nil =>
        obtain ⟨rfl, _⟩ := List.cons.inj hsplit
        exact .inl ⟨by simpa using htaken, rfl⟩
    | cons first before =>
        obtain ⟨rfl, hrest⟩ := List.cons.inj hsplit
        obtain ⟨hnext, hnodup⟩ := List.nodup_cons.mp hnodup
        obtain ⟨hseen, hfresh⟩ := List.forall_mem_cons.mp hfresh
        refine .inr ⟨hseen, before, after, hrest, hnodup, fun other hother => ?_, ?_⟩
        · have hne : other.id ≠ next.id := fun heq =>
            hnext (heq ▸ List.mem_map_of_mem hother)
          simp [hne, hfresh other hother]
        · rw [List.map_cons, List.mem_cons] at htaken
          rw [Finset.mem_insert]
          tauto
  · intro h
    rcases h with ⟨hseen, rfl⟩ | ⟨hseen, before, after, rfl, hnodup, hfresh, htaken⟩
    · exact ⟨[], rest, rfl, by simp, by simp, .inl hseen⟩
    · refine ⟨next :: before, after, rfl, List.nodup_cons.mpr ⟨?_, hnodup⟩,
        List.forall_mem_cons.mpr ⟨hseen, fun other hother => ?_⟩, ?_⟩
      · intro hmem
        obtain ⟨other, hother, hid⟩ := List.mem_map.mp hmem
        exact hfresh other hother (hid ▸ Finset.mem_insert_self next.id ids)
      · exact fun hids => hfresh other hother (Finset.mem_insert_of_mem hids)
      · rw [Finset.mem_insert] at htaken
        rw [List.map_cons, List.mem_cons]
        tauto

theorem check_duplicate_ids_error_iff (ids : Finset String) (entities : List EntityConfig)
    (error : EnforcementError) :
    checkDuplicateIds ids entities = .error error ↔
      ∃ entity, FirstRepeat ids entities entity ∧
        error = .config s!"Duplicate entity ID: {entity.id}" := by
  induction entities generalizing ids with
  | nil => simp [checkDuplicateIds, not_first_repeat_nil]
  | cons next rest ih =>
      simp only [first_repeat_cons]
      by_cases hseen : next.id ∈ ids
      · simp [checkDuplicateIds, hseen, eq_comm]
      · simp [checkDuplicateIds, hseen, ih]

/-- The loops of `validate` stop at the first problem of the policy. -/
theorem validate_error_iff (policy : PolicyConfig) (error : EnforcementError) :
    policy.validate = .error error ↔ policy.FirstProblem error := by
  simp only [PolicyConfig.validate, then_eq_error, fail_if_eq_ok, fail_if_eq_error,
    check_duplicate_ids_ok_iff, check_duplicate_ids_error_iff, for_m_eq_error,
    entity_validate_ok_iff, entity_validate_error_iff]
  constructor
  · intro h
    rcases h with ⟨hversion, rfl⟩ | ⟨hversion, ⟨entity, hrepeat, rfl⟩ | ⟨⟨hnodup, _⟩, hentity⟩⟩
    · exact .version (by simpa using hversion)
    · exact .duplicate (by simpa using hversion) hrepeat
    · exact .entity (by simpa using hversion) hnodup hentity
  · intro h
    cases h with
    | version hversion => exact .inl ⟨by simp [hversion], rfl⟩
    | duplicate hversion hrepeat => exact .inr ⟨by simpa using hversion, .inl ⟨_, hrepeat, rfl⟩⟩
    | entity hversion hnodup hentity =>
        exact .inr ⟨by simpa using hversion, .inr ⟨⟨hnodup, by simp⟩, hentity⟩⟩

/-! ## From a file to a service -/

/-- `EnforcementService::new` keeps the policy and installs the mock analyser. -/
theorem new_eq_ok_iff {policy : PolicyConfig} {service : EnforcementService} :
    EnforcementService.new policy = .ok service ↔
      service.policy = policy ∧ service.analyzer = mockAnalyzer := by
  obtain ⟨held, analyzer, validated⟩ := service
  unfold EnforcementService.new
  split
  · rename_i error herror
    constructor
    · intro h
      cases h
    · intro h
      rw [← h.1, validated] at herror
      cases herror
  · rw [Except.ok.injEq, EnforcementService.mk.injEq]
    exact and_congr eq_comm eq_comm

theorem new_eq_error_iff {policy : PolicyConfig} {error : EnforcementError} :
    EnforcementService.new policy = .error error ↔ policy.validate = .error error := by
  unfold EnforcementService.new
  split
  · rename_i other hother
    simp [hother]
  · rename_i hvalid
    simp [hvalid]

section Loading

variable [PolicyReader]

/-- The file reads and parses as this policy, which may be invalid. -/
def Holds (path : String) (policy : PolicyConfig) : Prop :=
  ∃ content, PolicyReader.readToString path = .ok content ∧
    PolicyReader.fromStr content = .ok policy

/-- The stage at which loading fails, and its error. -/
inductive LoadFailure (path : String) : EnforcementError → Prop where
  | io {message : String} : PolicyReader.readToString path = .error message →
      LoadFailure path (.io message)
  | yaml {content message : String} : PolicyReader.readToString path = .ok content →
      PolicyReader.fromStr content = .error message → LoadFailure path (.yaml message)
  | invalid {policy : PolicyConfig} {error : EnforcementError} : Holds path policy →
      policy.FirstProblem error → LoadFailure path error

theorem from_yaml_ok_iff {yaml : String} {policy : PolicyConfig} :
    PolicyConfig.fromYaml yaml = .ok policy ↔
      PolicyReader.fromStr yaml = .ok policy ∧ policy.validate = .ok () := by
  simp only [PolicyConfig.fromYaml, bind_eq_ok, map_err_eq_ok, Except.ok.injEq]
  constructor
  · intro h
    obtain ⟨config, hconfig, _, hvalid, rfl⟩ := h
    exact ⟨hconfig, hvalid⟩
  · intro h
    exact ⟨policy, h.1, (), h.2, rfl⟩

theorem from_yaml_error_iff {yaml : String} {error : EnforcementError} :
    PolicyConfig.fromYaml yaml = .error error ↔
      (∃ message, PolicyReader.fromStr yaml = .error message ∧ error = .yaml message) ∨
        ∃ policy, PolicyReader.fromStr yaml = .ok policy ∧ policy.FirstProblem error := by
  simp only [PolicyConfig.fromYaml, bind_eq_error, map_err_eq_error, map_err_eq_ok,
    validate_error_iff, reduceCtorEq, and_false, exists_false, or_false]

/-- The loader of a file does what the loader of a string does with its contents. -/
theorem from_file_eq (path : String) :
    PolicyConfig.fromFile path =
      (mapErr (PolicyReader.readToString path) .io >>= PolicyConfig.fromYaml) := rfl

theorem from_file_ok_iff {path : String} {policy : PolicyConfig} :
    PolicyConfig.fromFile path = .ok policy ↔ Holds path policy ∧ policy.validate = .ok () := by
  simp only [from_file_eq, bind_eq_ok, map_err_eq_ok, from_yaml_ok_iff, Holds]
  simp only [← and_assoc, exists_and_right]

theorem from_file_error_iff {path : String} {error : EnforcementError} :
    PolicyConfig.fromFile path = .error error ↔ LoadFailure path error := by
  simp only [from_file_eq, bind_eq_error, map_err_eq_error, map_err_eq_ok, from_yaml_error_iff]
  constructor
  · intro h
    rcases h with ⟨message, hread, rfl⟩ | ⟨content, hread, hparse⟩
    · exact .io hread
    · rcases hparse with ⟨message, hparse, rfl⟩ | ⟨policy, hparse, hproblem⟩
      · exact .yaml hread hparse
      · exact .invalid ⟨content, hread, hparse⟩ hproblem
  · intro h
    cases h with
    | io hread => exact .inl ⟨_, hread, rfl⟩
    | yaml hread hparse => exact .inr ⟨_, hread, .inl ⟨_, hparse, rfl⟩⟩
    | invalid hholds hproblem =>
        obtain ⟨content, hread, hparse⟩ := hholds
        exact .inr ⟨content, hread, .inr ⟨_, hparse, hproblem⟩⟩

/-- The validation in `EnforcementService::new` never fails on a policy that `from_file` gives. -/
theorem new_of_from_file {path : String} {policy : PolicyConfig}
    (h : PolicyConfig.fromFile path = .ok policy) :
    ∃ service, EnforcementService.new policy = .ok service ∧ service.policy = policy := by
  cases hnew : EnforcementService.new policy with
  | error error =>
      rw [new_eq_error_iff, (from_file_ok_iff.mp h).2] at hnew
      cases hnew
  | ok service => exact ⟨service, rfl, (new_eq_ok_iff.mp hnew).1⟩

theorem from_file_service_error_iff {path : String} {error : EnforcementError} :
    EnforcementService.fromFile path = .error error ↔ LoadFailure path error := by
  rw [EnforcementService.fromFile, bind_eq_error, from_file_error_iff]
  constructor
  · intro h
    rcases h with hfailure | ⟨policy, hpolicy, hnew⟩
    · exact hfailure
    · obtain ⟨service, hservice, _⟩ := new_of_from_file hpolicy
      rw [hservice] at hnew
      cases hnew
  · exact .inl

theorem from_file_service_ok_iff {path : String} {service : EnforcementService} :
    EnforcementService.fromFile path = .ok service ↔
      Holds path service.policy ∧ service.policy.WellFormed ∧ service.analyzer = mockAnalyzer := by
  simp only [EnforcementService.fromFile, bind_eq_ok, from_file_ok_iff, new_eq_ok_iff]
  constructor
  · intro h
    obtain ⟨policy, ⟨hholds, hvalid⟩, rfl, hanalyzer⟩ := h
    exact ⟨hholds, (validate_ok_iff _).mp hvalid, hanalyzer⟩
  · intro h
    obtain ⟨hholds, hformed, hanalyzer⟩ := h
    exact ⟨_, ⟨hholds, (validate_ok_iff _).mpr hformed⟩, rfl, hanalyzer⟩

/-- Loading fails exactly at the first stage that fails, with its error, and gives a service
exactly for a file that holds a well-formed policy. All failures are those of `from_file` of the
policy: the second validation, in `new`, passes whatever the first one has let through. -/
theorem loading_explained (path : String) :
    (∀ error, EnforcementService.fromFile path = .error error ↔ LoadFailure path error) ∧
    (∀ service, EnforcementService.fromFile path = .ok service ↔
      Holds path service.policy ∧ service.policy.WellFormed ∧
        service.analyzer = mockAnalyzer) ∧
    (∀ error, PolicyConfig.fromFile path = .error error ↔ LoadFailure path error) ∧
    ∀ policy, PolicyConfig.fromFile path = .ok policy →
      ∃ service, EnforcementService.new policy = .ok service ∧ service.policy = policy :=
  ⟨fun _ => from_file_service_error_iff, fun _ => from_file_service_ok_iff,
    fun _ => from_file_error_iff, fun _ => new_of_from_file⟩

end Loading

/-- The repeated id is reported, and not the empty id before it or the zero limit after it. -/
example : PolicyConfig.validate
    { version := "1.0", entities := [{ id := "" }, { id := "a" }, { id := "a" }] } =
      .error (.config "Duplicate entity ID: a") := by decide

end HalEnforcement
