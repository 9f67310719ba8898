import HalEnforcement.Error
import HalEnforcement.Library.UniqueKeys
import Mathlib.Data.Finset.Insert
import Mathlib.Data.List.AList

/-!
# Policy configuration

The data model of `src/config.rs` with its serde defaults, the capability vocabulary
(`hasCapability`, `listGranted`) and policy validation. A `HashMap` of a policy is an `AList`:
unique keys, with the order of `entries` standing for the unspecified iteration order.

Read `validate_ok_iff` first: it says what a policy accepted by `PolicyConfig.validate` satisfies.
-/

namespace HalEnforcement

/-- A `HashMap` the code iterates over, in the order of its `entries`. -/
abbrev HashMap (κ ν : Type) := AList fun _ : κ => ν

/-- `default_rate_limit()`. -/
def defaultRateLimit : UInt64 := 100

/-- `default_audit_log()`. -/
def defaultAuditLog : String := "./logs/audit.log"

/-- `GlobalSettings`. -/
structure GlobalSettings where
  defaultRateLimit : UInt64 := HalEnforcement.defaultRateLimit
  auditLogPath : String := defaultAuditLog
  strictMode : Bool := false
  deriving DecidableEq, Repr

/-- `default_model()`. -/
def defaultModel : String := "default"

/-- `EnforcementMode`. -/
inductive EnforcementMode where
  | manual
  | auto (model : String := defaultModel)
  deriving DecidableEq, Repr

/-- `CapabilitiesConfig`: one flag for each HAL interface. -/
structure CapabilitiesConfig where
  platform : Bool := false
  capabilities : Bool := false
  crypto : Bool := false
  random : Bool := false
  clock : Bool := false
  storage : Bool := false
  sockets : Bool := false
  gpu : Bool := false
  resources : Bool := false
  events : Bool := false
  communication : Bool := false
  deriving DecidableEq, Repr

/-- `RateLimitConfig`. -/
structure RateLimitConfig where
  operationsPerSecond : UInt64
  burstSize : UInt64 := 0
  deriving DecidableEq, Repr

/-- `RateLimitConfig::new`, with the wrapping product of a release build. -/
def RateLimitConfig.new (opsPerSec : UInt64) : RateLimitConfig where
  operationsPerSecond := opsPerSec
  burstSize := opsPerSec * 2

/-- `QuotaConfig`. -/
structure QuotaConfig where
  maxBytes : Option UInt64 := none
  maxOperations : Option UInt64 := none
  deriving DecidableEq, Repr

/-- `EntityConfig`. -/
structure EntityConfig where
  id : String
  description : String := ""
  mode : EnforcementMode := .manual
  capabilities : CapabilitiesConfig := {}
  rateLimits : HashMap String RateLimitConfig := ∅
  quotas : HashMap String QuotaConfig := ∅
  canGrant : Bool := false
  deriving DecidableEq

/-- `PolicyConfig`. -/
structure PolicyConfig where
  version : String
  settings : GlobalSettings := {}
  entities : List EntityConfig
  deriving DecidableEq

/-! ## Capability sets -/

/-- `CapabilitiesConfig::all`. -/
def CapabilitiesConfig.all : CapabilitiesConfig where
  platform := true
  capabilities := true
  crypto := true
  random := true
  clock := true
  storage := true
  sockets := true
  gpu := true
  resources := true
  events := true
  communication := true

/-- `CapabilitiesConfig::none`. -/
def CapabilitiesConfig.none : CapabilitiesConfig := {}

/-- `CapabilitiesConfig::has_capability`. -/
def CapabilitiesConfig.hasCapability (self : CapabilitiesConfig) (cap : String) : Bool :=
  match cap with
  | "platform" => self.platform
  | "capabilities" => self.capabilities
  | "crypto" => self.crypto
  | "random" => self.random
  | "clock" => self.clock
  | "storage" => self.storage
  | "sockets" => self.sockets
  | "gpu" => self.gpu
  | "resources" => self.resources
  | "events" => self.events
  | "communication" => self.communication
  | _ => false

/-- `if flag { granted.push(name) }`. -/
def pushIf (flag : Bool) (name : String) (granted : List String) : List String :=
  if flag then granted ++ [name] else granted

/-- `CapabilitiesConfig::list_granted`. -/
def CapabilitiesConfig.listGranted (self : CapabilitiesConfig) : List String :=
  let granted := []
  let granted := pushIf self.platform "platform" granted
  let granted := pushIf self.capabilities "capabilities" granted
  let granted := pushIf self.crypto "crypto" granted
  let granted := pushIf self.random "random" granted
  let granted := pushIf self.clock "clock" granted
  let granted := pushIf self.storage "storage" granted
  let granted := pushIf self.sockets "sockets" granted
  let granted := pushIf self.gpu "gpu" granted
  let granted := pushIf self.resources "resources" granted
  let granted := pushIf self.events "events" granted
  let granted := pushIf self.communication "communication" granted
  granted

/-- The HAL interface names, in the order `listGranted` reports them. -/
def halInterfaces : List String :=
  ["platform", "capabilities", "crypto", "random", "clock", "storage", "sockets", "gpu",
    "resources", "events", "communication"]

theorem push_if_eq (flag : Bool) (name : String) (granted : List String) :
    pushIf flag name granted = granted ++ [name].filter fun _ => flag := by
  cases flag <;> simp [pushIf]

theorem filter_cons_eq (keep : String → Bool) (name : String) (names : List String) :
    (name :: names).filter keep = [name].filter (fun _ => keep name) ++ names.filter keep := by
  cases h : keep name <;> simp [h]

/-- The two hand-written lists of names agree: `listGranted` keeps the interfaces
`hasCapability` accepts. -/
theorem list_granted_eq_filter (caps : CapabilitiesConfig) :
    caps.listGranted = halInterfaces.filter caps.hasCapability := by
  simp only [CapabilitiesConfig.listGranted, push_if_eq, halInterfaces, List.nil_append,
    List.append_assoc, filter_cons_eq caps.hasCapability, List.filter_nil, List.append_nil]
  rfl

/-- No name outside `halInterfaces` is ever granted. -/
theorem mem_hal_interfaces_of_has_capability {caps : CapabilitiesConfig} {cap : String}
    (h : caps.hasCapability cap = true) : cap ∈ halInterfaces := by
  unfold CapabilitiesConfig.hasCapability at h
  split at h <;> first | decide | cases h

theorem mem_list_granted {caps : CapabilitiesConfig} {cap : String} :
    cap ∈ caps.listGranted ↔ caps.hasCapability cap = true := by
  rw [list_granted_eq_filter, List.mem_filter]
  exact ⟨And.right, fun h => ⟨mem_hal_interfaces_of_has_capability h, h⟩⟩

theorem list_granted_nodup (caps : CapabilitiesConfig) : caps.listGranted.Nodup := by
  rw [list_granted_eq_filter]
  exact List.Nodup.filter _ (by decide)

/-- The set that grants the interfaces of a list. -/
def CapabilitiesConfig.granting (names : List String) : CapabilitiesConfig where
  platform := decide ("platform" ∈ names)
  capabilities := decide ("capabilities" ∈ names)
  crypto := decide ("crypto" ∈ names)
  random := decide ("random" ∈ names)
  clock := decide ("clock" ∈ names)
  storage := decide ("storage" ∈ names)
  sockets := decide ("sockets" ∈ names)
  gpu := decide ("gpu" ∈ names)
  resources := decide ("resources" ∈ names)
  events := decide ("events" ∈ names)
  communication := decide ("communication" ∈ names)

theorem has_capability_granting {names : List String} {cap : String} :
    (CapabilitiesConfig.granting names).hasCapability cap = true ↔
      cap ∈ halInterfaces ∧ cap ∈ names := by
  constructor
  · intro h
    refine ⟨mem_hal_interfaces_of_has_capability h, ?_⟩
    unfold CapabilitiesConfig.hasCapability at h
    split at h <;> first | exact of_decide_eq_true h | cases h
  · intro h
    obtain ⟨hmem, hnames⟩ := h
    simp only [halInterfaces, List.mem_cons, List.not_mem_nil, or_false] at hmem
    rcases hmem with rfl | rfl | rfl | rfl | rfl | rfl | rfl | rfl | rfl | rfl | rfl <;>
      exact decide_eq_true hnames

/-! ## Validation and lookup -/

/-- `EntityConfig::validate`. -/
def EntityConfig.validate (self : EntityConfig) : Result Unit := do
  failIf (self.id.isEmpty) (.config "Entity ID cannot be empty")
  self.rateLimits.entries.forM fun entry =>
    failIf (entry.2.operationsPerSecond = 0)
      (.config s!"Rate limit for {entry.1} cannot be zero")

/-- The duplicate check of `PolicyConfig::validate`, with the ids inserted so far. -/
def checkDuplicateIds (ids : Finset String) : List EntityConfig → Result Unit
  | [] => .ok ()
  | entity :: rest =>
      if entity.id ∈ ids then .error (.config s!"Duplicate entity ID: {entity.id}")
      else checkDuplicateIds (insert entity.id ids) rest

/-- `PolicyConfig::validate`. -/
def PolicyConfig.validate (self : PolicyConfig) : Result Unit := do
  failIf (self.version.isEmpty) (.config "Version is required")
  checkDuplicateIds ∅ self.entities
  self.entities.forM EntityConfig.validate

/-- `PolicyConfig::find_entity`: the first entity with this id. -/
def PolicyConfig.findEntity (self : PolicyConfig) (id : String) : Option EntityConfig :=
  self.entities.find? fun entity => decide (entity.id = id)

/-- What `EntityConfig.validate` checks. -/
structure EntityConfig.WellFormed (entity : EntityConfig) : Prop where
  id_ne_empty : entity.id ≠ ""
  limit_ne_zero : ∀ interface limit, entity.rateLimits.lookup interface = some limit →
    limit.operationsPerSecond ≠ 0

/-- What `PolicyConfig.validate` checks. -/
structure PolicyConfig.WellFormed (policy : PolicyConfig) : Prop where
  version_ne_empty : policy.version ≠ ""
  ids_nodup : (policy.entities.map EntityConfig.id).Nodup
  entities : ∀ entity ∈ policy.entities, entity.WellFormed

theorem entity_validate_ok_iff (entity : EntityConfig) :
    entity.validate = .ok () ↔ entity.WellFormed := by
  simp only [EntityConfig.validate, then_eq_ok, fail_if_eq_ok, for_m_eq_ok]
  constructor
  · intro h
    obtain ⟨hid, hlimits⟩ := h
    refine ⟨by simpa using hid, fun interface limit hlookup => ?_⟩
    exact hlimits ⟨interface, limit⟩ (AList.mem_lookup_iff.mp hlookup)
  · intro h
    obtain ⟨hid, hlimits⟩ := h
    refine ⟨by simpa using hid, fun entry hentry => ?_⟩
    exact hlimits entry.1 entry.2 (AList.mem_lookup_iff.mpr hentry)

theorem check_duplicate_ids_ok_iff (ids : Finset String) (entities : List EntityConfig) :
    checkDuplicateIds ids entities = .ok () ↔
      (entities.map EntityConfig.id).Nodup ∧ ∀ entity ∈ entities, entity.id ∉ ids := by
  induction entities generalizing ids with
  | nil => simp [checkDuplicateIds]
  | cons entity rest ih =>
      by_cases hseen : entity.id ∈ ids
      · simp [checkDuplicateIds, hseen]
      · simp only [checkDuplicateIds, hseen, if_false, ih, Finset.mem_insert, not_or,
          List.map_cons, List.nodup_cons, List.mem_map, List.mem_cons, forall_eq_or_imp,
          not_exists, not_and, not_false_eq_true, true_and]
        constructor
        · intro h
          obtain ⟨hnodup, hrest⟩ := h
          exact ⟨⟨fun other hother heq => (hrest other hother).1 heq, hnodup⟩,
            fun other hother => (hrest other hother).2⟩
        · intro h
          obtain ⟨⟨hfresh, hnodup⟩, hrest⟩ := h
          exact ⟨hnodup, fun other hother => ⟨hfresh other hother, hrest other hother⟩⟩

/-- The early-returning loops of `validate` accept exactly the well-formed policies. -/
theorem validate_ok_iff (policy : PolicyConfig) :
    policy.validate = .ok () ↔ policy.WellFormed := by
  simp only [PolicyConfig.validate, then_eq_ok, fail_if_eq_ok, check_duplicate_ids_ok_iff,
    for_m_eq_ok, entity_validate_ok_iff]
  constructor
  · intro h
    obtain ⟨hversion, ⟨hnodup, _⟩, hentities⟩ := h
    exact ⟨by simpa using hversion, hnodup, hentities⟩
  · intro h
    obtain ⟨hversion, hnodup, hentities⟩ := h
    exact ⟨by simpa using hversion, ⟨hnodup, by simp⟩, hentities⟩

/-- `findEntity` in a well-formed policy finds exactly the listed entities. -/
theorem find_entity_eq_some_iff {policy : PolicyConfig} (h : policy.WellFormed) {id : String}
    {entity : EntityConfig} :
    policy.findEntity id = some entity ↔ entity ∈ policy.entities ∧ entity.id = id :=
  UniqueKeys.find_eq_some_iff h.ids_nodup

/-- Whatever the policy, an entity that is found is listed under its id. -/
theorem mem_of_find_entity {policy : PolicyConfig} {id : String} {entity : EntityConfig}
    (h : policy.findEntity id = some entity) : entity ∈ policy.entities ∧ entity.id = id :=
  ⟨List.mem_of_find?_eq_some h, by simpa using List.find?_some h⟩

end HalEnforcement
