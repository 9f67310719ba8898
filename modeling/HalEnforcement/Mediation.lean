import HalEnforcement.ImportCheck

/-!
# Component imports and the admission check

A binary may be a component, which names the interfaces it imports in component import sections,
outside and around the core modules it contains. `extractImports` looks at core import sections
only. `mediated_iff` says when a successful check nevertheless covers every import: the component
imports may require no bucket that the core imports do not require as well.
-/

namespace HalEnforcement

section Components

variable [Wasmparser]

/-- The component imports of a payload that decode. -/
def Payload.componentImports : Payload → List ComponentImport
  | .componentImportSection entries => okValues entries
  | _ => []

/-- The component imports of the binary, those of nested components included. -/
def declaredComponentImports (wasm : Bytes) : List ComponentImport :=
  (okValues (Wasmparser.parseAll wasm)).flatMap Payload.componentImports

/-- Some function of an interface the binary imports at component level maps to the bucket. The name
of the function matters for an interface called like one of the two preview1 modules only: it
requires every bucket that a function of the module maps to. Any other interface has one bucket for
all its functions, or none. -/
def ComponentRequires (wasm : Bytes) (bucket : String) : Prop :=
  ∃ imp ∈ declaredComponentImports wasm, ∃ name, importToCapability imp.name name = some bucket

/-- If the check succeeds, then all imports of the binary, core and component, are granted. -/
def Mediated (wasm : Bytes) (granted : CapabilitiesConfig) : Prop :=
  ∀ checked, checkWorkload wasm granted = .ok checked →
    (∀ bucket ∈ requiredBuckets wasm, granted.hasCapability bucket = true) ∧
      ∀ bucket, ComponentRequires wasm bucket → granted.hasCapability bucket = true

/-- Under one capability set: the check refuses a core import, or grants reach all component
imports anyway. -/
theorem mediated_under_iff {wasm : Bytes} (hparses : Parses wasm) (granted : CapabilitiesConfig) :
    Mediated wasm granted ↔
      (∃ bucket ∈ requiredBuckets wasm, granted.hasCapability bucket = false) ∨
        ∀ bucket, ComponentRequires wasm bucket → granted.hasCapability bucket = true := by
  constructor
  · intro h
    by_cases hcovered : ∀ bucket ∈ requiredBuckets wasm, granted.hasCapability bucket = true
    · obtain ⟨checked, hchecked⟩ := (check_workload_succeeds_iff hparses).mpr hcovered
      exact .inr (h checked hchecked).2
    · left
      simpa using hcovered
  · intro h checked hchecked
    have hcovered := (check_workload_succeeds_iff hparses).mp ⟨checked, hchecked⟩
    refine ⟨hcovered, ?_⟩
    rcases h with ⟨bucket, hbucket, hdenied⟩ | h
    · rw [hcovered bucket hbucket] at hdenied
      cases hdenied
    · exact h

/-- Under every capability set. A component import that requires a bucket of its own is missed by
the set that grants what the core imports require. -/
theorem mediated_under_all_iff {wasm : Bytes} (hparses : Parses wasm) :
    (∀ granted, Mediated wasm granted) ↔
      ∀ bucket, ComponentRequires wasm bucket → bucket ∈ requiredBuckets wasm := by
  constructor
  · intro h bucket hbucket
    -- the check accepts the set that grants no more than it looks for
    obtain ⟨checked, hchecked⟩ := check_workload_granting_required hparses
    exact (has_capability_granting.mp ((h _ checked hchecked).2 bucket hbucket)).2
  · intro h granted checked hchecked
    have hcovered := (check_workload_succeeds_iff hparses).mp ⟨checked, hchecked⟩
    exact ⟨hcovered, fun bucket hbucket => hcovered bucket (h bucket hbucket)⟩

/-- The check mediates all imports of a binary, whatever is granted, exactly when the component
imports require no bucket that the core imports do not require. Under a single set it also does when
it refuses a core import, or when the set covers the component imports by itself. -/
theorem mediated_iff (wasm : Bytes) (hparses : Parses wasm) :
    ((∀ granted, Mediated wasm granted) ↔
      ∀ bucket, ComponentRequires wasm bucket → bucket ∈ requiredBuckets wasm) ∧
    ∀ granted, Mediated wasm granted ↔
      (∃ bucket ∈ requiredBuckets wasm, granted.hasCapability bucket = false) ∨
        ∀ bucket, ComponentRequires wasm bucket → granted.hasCapability bucket = true :=
  ⟨mediated_under_all_iff hparses, mediated_under_iff hparses⟩

end Components

theorem mediated_crypto_module :
    @Mediated sampleParser cryptoModule (.granting ["crypto"]) := by
  let _ := sampleParser
  refine (mediated_iff cryptoModule (by decide)).1.mpr ?_ _
  intro bucket h
  obtain ⟨imp, himp, _⟩ := h
  have hnone : declaredComponentImports cryptoModule = [] := by decide
  rw [hnone] at himp
  cases himp

/-- The check accepts the component under the set that grants nothing. -/
theorem not_mediated_sockets_component :
    @checkWorkload sampleParser socketsComponent .none = .ok [] ∧
      @ComponentRequires sampleParser socketsComponent "sockets" ∧
      ¬ @Mediated sampleParser socketsComponent .none := by
  let _ := sampleParser
  have hchecked : checkWorkload socketsComponent .none = .ok [] := by decide
  have hrequires : ComponentRequires socketsComponent "sockets" :=
    ⟨⟨"wasi:sockets/tcp@0.2.0"⟩, by decide, "", by decide⟩
  refine ⟨hchecked, hrequires, fun h => ?_⟩
  cases (h _ hchecked).2 _ hrequires

end HalEnforcement
