import HalEnforcement.Enforcer

/-!
# What the admission check decides

`extract_imports_ok_iff` and `check_workload_ok_iff` describe the loops of `Enforcer` by the
binary alone: `Parses` says that neither a payload nor a core import fails to decode, and
`declaredImports` lists the core imports of all sections in order. The check succeeds exactly when
every bucket these imports map to is granted.
-/

namespace HalEnforcement

/-- The entries of a sequence that decoded. -/
def okValues {α : Type} (entries : List (Except String α)) : List α :=
  entries.filterMap Except.toOption

/-- Every entry decodes. -/
def AllOk {α : Type} (entries : List (Except String α)) : Prop :=
  ∀ entry ∈ entries, ∃ value, entry = .ok value

theorem all_ok_cons {α : Type} {entry : Except String α} {rest : List (Except String α)} :
    AllOk (entry :: rest) ↔ (∃ value, entry = .ok value) ∧ AllOk rest := by
  simp [AllOk]

instance {α : Type} (entries : List (Except String α)) : Decidable (AllOk entries) :=
  decidable_of_iff (∀ entry ∈ entries, entry.isOk = true) (by
    refine forall₂_congr fun entry _ => ?_
    cases entry with
    | error message => exact ⟨fun h => (nomatch h), fun ⟨_, h⟩ => (nomatch h)⟩
    | ok value => exact ⟨fun _ => ⟨value, rfl⟩, fun _ => rfl⟩)

/-- The core imports of a payload that decode. -/
def Payload.imports : Payload → List Import
  | .importSection entries => okValues entries
  | _ => []

/-- The payload, if a core import section, decodes entirely. -/
def Payload.Readable : Payload → Prop
  | .importSection entries => AllOk entries
  | _ => True

instance : DecidablePred Payload.Readable
  | .importSection entries => inferInstanceAs (Decidable (AllOk entries))
  | .componentImportSection _ => .isTrue trivial
  | .other _ => .isTrue trivial

/-- The pair `extract_imports` keeps of an import. -/
def Import.pair (imp : Import) : String × String := (imp.module, imp.name)

theorem extract_section_ok_iff (imports : List (String × String))
    (entries : List (Except String Import)) (result : List (String × String)) :
    extractSection imports entries = .ok result ↔
      AllOk entries ∧ result = imports ++ (okValues entries).map Import.pair := by
  induction entries generalizing imports with
  | nil => simp [extractSection, AllOk, okValues, eq_comm]
  | cons entry rest ih =>
      cases entry with
      | error message => simp [extractSection, mapErr, bind, Except.bind, all_ok_cons]
      | ok imp =>
          show extractSection (imports ++ [imp.pair]) rest = .ok result ↔
            AllOk (.ok imp :: rest) ∧ result = imports ++ (imp :: okValues rest).map Import.pair
          rw [ih, all_ok_cons]
          simp

theorem extract_payloads_ok_iff (imports : List (String × String))
    (payloads : List (Except String Payload)) (result : List (String × String)) :
    extractPayloads imports payloads = .ok result ↔
      (AllOk payloads ∧ ∀ payload ∈ okValues payloads, payload.Readable) ∧
        result = imports ++ ((okValues payloads).flatMap Payload.imports).map Import.pair := by
  induction payloads generalizing imports with
  | nil => simp [extractPayloads, AllOk, okValues, eq_comm]
  | cons entry rest ih =>
      cases entry with
      | error message => simp [extractPayloads, mapErr, bind, Except.bind, all_ok_cons]
      | ok payload =>
          have hvalues : okValues (.ok payload :: rest) = payload :: okValues rest := rfl
          rw [all_ok_cons, hvalues]
          cases payload with
          | importSection entries =>
              show (extractSection imports entries >>= fun imports =>
                extractPayloads imports rest) = .ok result ↔ _
              simp only [bind_eq_ok, extract_section_ok_iff, ih]
              simp only [List.mem_cons, forall_eq_or_imp, Payload.Readable, List.flatMap_cons,
                Payload.imports, List.map_append, ← List.append_assoc]
              constructor
              · rintro ⟨_, ⟨hentries, rfl⟩, ⟨hrest, hreadable⟩, rfl⟩
                exact ⟨⟨⟨⟨_, rfl⟩, hrest⟩, hentries, hreadable⟩, rfl⟩
              · rintro ⟨⟨⟨_, hrest⟩, hentries, hreadable⟩, rfl⟩
                exact ⟨_, ⟨hentries, rfl⟩, ⟨hrest, hreadable⟩, rfl⟩
          | componentImportSection entries =>
              show extractPayloads imports rest = .ok result ↔ _
              simp [ih, Payload.Readable, Payload.imports]
          | other kind =>
              show extractPayloads imports rest = .ok result ↔ _
              simp [ih, Payload.Readable, Payload.imports]

/-- The buckets of the table are HAL interfaces, in the spelling of `hasCapability`. -/
theorem import_to_capability_mem {module name bucket : String}
    (h : importToCapability module name = some bucket) : bucket ∈ halInterfaces := by
  unfold importToCapability at h
  split at h
  · unfold preview1Capability at h
    repeat' split at h
    all_goals first | (cases h; decide) | cases h
  · split at h
    · cases h
      decide
    · split at h
      · cases h
        decide
      · unfold halCapability at h
        split at h <;> first | (cases h; decide) | cases h

/-- Entries `check_workload` reports: the imports that map to a bucket, with that bucket. -/
def bucketed (imp : String × String) : Option (String × String × String) :=
  (importToCapability imp.1 imp.2).map fun bucket => (imp.1, imp.2, bucket)

/-- Every bucket the imports map to is granted. -/
def Covers (granted : CapabilitiesConfig) (imports : List (String × String)) : Prop :=
  ∀ imp ∈ imports, ∀ bucket, importToCapability imp.1 imp.2 = some bucket →
    granted.hasCapability bucket = true

theorem covers_cons {granted : CapabilitiesConfig} {imp : String × String}
    {rest : List (String × String)} :
    Covers granted (imp :: rest) ↔
      (∀ bucket, importToCapability imp.1 imp.2 = some bucket →
        granted.hasCapability bucket = true) ∧ Covers granted rest := by
  simp [Covers]

/-- The buckets a list of imports maps to. -/
def required (imports : List (String × String)) : List String :=
  imports.filterMap fun imp => importToCapability imp.1 imp.2

theorem mem_required {imports : List (String × String)} {bucket : String} :
    bucket ∈ required imports ↔
      ∃ imp ∈ imports, importToCapability imp.1 imp.2 = some bucket :=
  List.mem_filterMap

theorem required_mem_hal_interfaces {imports : List (String × String)} {bucket : String}
    (h : bucket ∈ required imports) : bucket ∈ halInterfaces := by
  obtain ⟨imp, _, hbucket⟩ := mem_required.mp h
  exact import_to_capability_mem hbucket

theorem covers_iff {granted : CapabilitiesConfig} {imports : List (String × String)} :
    Covers granted imports ↔ ∀ bucket ∈ required imports, granted.hasCapability bucket = true := by
  simp only [Covers, mem_required, forall_exists_index, and_imp]
  exact ⟨fun h bucket imp himp hbucket => h imp himp bucket hbucket,
    fun h imp himp bucket hbucket => h bucket imp himp hbucket⟩

theorem check_imports_ok_iff (granted : CapabilitiesConfig)
    (checked : List (String × String × String)) (imports : List (String × String))
    (result : List (String × String × String)) :
    checkImports granted checked imports = .ok result ↔
      Covers granted imports ∧ result = checked ++ imports.filterMap bucketed := by
  induction imports generalizing checked with
  | nil =>
      simp only [checkImports, Covers, List.not_mem_nil, false_implies, implies_true,
        List.filterMap_nil, List.append_nil, Except.ok.injEq, true_and]
      exact eq_comm
  | cons imp rest ih =>
      obtain ⟨module, name⟩ := imp
      rw [covers_cons]
      cases hbucket : importToCapability module name with
      | none => simp [checkImports, hbucket, ih, bucketed]
      | some bucket =>
          cases hgranted : granted.hasCapability bucket with
          | false => simp [checkImports, hbucket, hgranted]
          | true => simp [checkImports, hbucket, hgranted, ih, bucketed]

section Workload

variable [Wasmparser]

/-- The binary parses: no payload fails, and no entry of a core import section does. -/
def Parses (wasm : Bytes) : Prop :=
  AllOk (Wasmparser.parseAll wasm) ∧
    ∀ payload ∈ okValues (Wasmparser.parseAll wasm), payload.Readable

instance (wasm : Bytes) : Decidable (Parses wasm) :=
  inferInstanceAs (Decidable (_ ∧ _))

/-- The core imports of the binary, over all its import sections in order. -/
def declaredImports (wasm : Bytes) : List Import :=
  (okValues (Wasmparser.parseAll wasm)).flatMap Payload.imports

theorem extract_imports_ok_iff {wasm : Bytes} {imports : List (String × String)} :
    extractImports wasm = .ok imports ↔
      Parses wasm ∧ imports = (declaredImports wasm).map Import.pair :=
  extract_payloads_ok_iff [] _ imports

/-- The check succeeds on a binary that parses and whose required buckets are all granted, and
reports the imports it checked. -/
theorem check_workload_ok_iff {wasm : Bytes} {granted : CapabilitiesConfig}
    {checked : List (String × String × String)} :
    checkWorkload wasm granted = .ok checked ↔
      Parses wasm ∧ Covers granted ((declaredImports wasm).map Import.pair) ∧
        checked = ((declaredImports wasm).map Import.pair).filterMap bucketed := by
  simp only [checkWorkload, bind_eq_ok, extract_imports_ok_iff, check_imports_ok_iff,
    List.nil_append]
  constructor
  · rintro ⟨_, ⟨hparses, rfl⟩, hcovers, rfl⟩
    exact ⟨hparses, hcovers, rfl⟩
  · rintro ⟨hparses, hcovers, rfl⟩
    exact ⟨_, ⟨hparses, rfl⟩, hcovers, rfl⟩

/-- `Covers` read on the declared imports themselves. -/
theorem covers_declared_iff {wasm : Bytes} {granted : CapabilitiesConfig} :
    Covers granted ((declaredImports wasm).map Import.pair) ↔
      ∀ imp ∈ declaredImports wasm, ∀ bucket,
        importToCapability imp.module imp.name = some bucket →
          granted.hasCapability bucket = true := by
  simp [Covers, Import.pair]

/-- The buckets the core imports of the binary map to. -/
def requiredBuckets (wasm : Bytes) : List String :=
  (declaredImports wasm).filterMap fun imp => importToCapability imp.module imp.name

/-- The buckets of a binary are those of the pairs extracted from it. -/
theorem required_buckets_eq (wasm : Bytes) :
    requiredBuckets wasm = required ((declaredImports wasm).map Import.pair) := by
  rw [required, List.filterMap_map]
  rfl

/-- A binary is covered when every bucket it requires is granted. -/
theorem covers_iff_required {wasm : Bytes} {granted : CapabilitiesConfig} :
    Covers granted ((declaredImports wasm).map Import.pair) ↔
      ∀ bucket ∈ requiredBuckets wasm, granted.hasCapability bucket = true := by
  rw [required_buckets_eq]
  exact covers_iff

theorem required_bucket_mem {wasm : Bytes} {bucket : String} (h : bucket ∈ requiredBuckets wasm) :
    bucket ∈ halInterfaces := by
  rw [required_buckets_eq] at h
  exact required_mem_hal_interfaces h

/-- The verdict of the check on a binary that parses. -/
theorem check_workload_succeeds_iff {wasm : Bytes} (hparses : Parses wasm)
    {granted : CapabilitiesConfig} :
    (∃ checked, checkWorkload wasm granted = .ok checked) ↔
      ∀ bucket ∈ requiredBuckets wasm, granted.hasCapability bucket = true := by
  simp only [check_workload_ok_iff, hparses, true_and, covers_iff_required, exists_and_left,
    exists_eq, and_true]

/-- The set that grants just the required buckets is accepted. -/
theorem check_workload_granting_required {wasm : Bytes} (hparses : Parses wasm) :
    ∃ checked, checkWorkload wasm (.granting (requiredBuckets wasm)) = .ok checked :=
  (check_workload_succeeds_iff hparses).mpr fun _ hbucket =>
    has_capability_granting.mpr ⟨required_bucket_mem hbucket, hbucket⟩

end Workload

/-! ## Two binaries -/

/-- A core module that imports `elastic:hal/crypto` `hash`. -/
def cryptoModule : Bytes :=
  [0x00, 0x61, 0x73, 0x6d, 0x01, 0x00, 0x00, 0x00] ++
    [0x01, 0x04, 0x01, 0x60, 0x00, 0x00] ++
    [0x02, 0x1b, 0x01, 0x12] ++ "elastic:hal/crypto".toUTF8.data.toList ++
    [0x04] ++ "hash".toUTF8.data.toList ++ [0x00, 0x00]

/-- A component that imports the interface `wasi:sockets/tcp@0.2.0`. -/
def socketsComponent : Bytes :=
  [0x00, 0x61, 0x73, 0x6d, 0x0d, 0x00, 0x01, 0x00] ++
    [0x07, 0x03, 0x01, 0x42, 0x00] ++
    [0x0a, 0x1b, 0x01, 0x00, 0x16] ++ "wasi:sockets/tcp@0.2.0".toUTF8.data.toList ++ [0x05, 0x00]

/-- The payloads the parser yields for these two binaries. -/
@[reducible] def sampleParser : Wasmparser where
  parseAll wasm :=
    if wasm = cryptoModule then
      [.ok (.other "Version"), .ok (.other "TypeSection"),
        .ok (.importSection [.ok ⟨"elastic:hal/crypto", "hash"⟩]), .ok (.other "End")]
    else if wasm = socketsComponent then
      [.ok (.other "Version"), .ok (.other "ComponentTypeSection"),
        .ok (.componentImportSection [.ok ⟨"wasi:sockets/tcp@0.2.0"⟩]), .ok (.other "End")]
    else [.error "unexpected end-of-file (at offset 0x0)"]

end HalEnforcement
