import HalEnforcement.History
import HalEnforcement.Library.FirstFailure
import HalEnforcement.WorkloadCheck

/-!
# Why a creation is refused

`create_session_with_wasm` fails at the first of several stages: the lookup of the entity, the
resolution of its capabilities, the parsing of the workload, the check of its imports.
`CreationFailure` lists them with the errors they give, each error about the first offending entry
of the binary. `refusals_explained` says that a creation in an interleaved run is refused with an
error exactly when this is the error of the stage that fails.
-/

namespace HalEnforcement

open FirstFailure

/-! ## The first error of a binary -/

/-- The entry decodes. -/
def Decodes {α : Type} (entry : Except String α) : Prop := ∃ value, entry = .ok value

/-- An entry of an import section that does not decode. -/
def BadImport (entry : Except String Import) (error : EnforcementError) : Prop :=
  ∃ message, entry = .error message ∧ error = .policy s!"bad import: {message}"

/-- The payload decodes, and so does each of its entries if it is a core import section. -/
def Passes (entry : Except String Payload) : Prop :=
  ∃ payload, entry = .ok payload ∧ payload.Readable

/-- A payload that does not decode, or a core import section with an entry that does not. -/
def BadPayload (entry : Except String Payload) (error : EnforcementError) : Prop :=
  (∃ message, entry = .error message ∧ error = .policy s!"invalid WASM: {message}") ∨
    ∃ entries, entry = .ok (.importSection entries) ∧ First Decodes BadImport entries error

theorem extract_section_error_iff (imports : List (String × String))
    (entries : List (Except String Import)) (error : EnforcementError) :
    extractSection imports entries = .error error ↔ First Decodes BadImport entries error := by
  induction entries generalizing imports with
  | nil => simp [extractSection, not_first_nil]
  | cons entry rest ih =>
      rw [first_cons]
      cases entry with
      | error message =>
          show Except.error (EnforcementError.policy s!"bad import: {message}") = .error error ↔ _
          simp [BadImport, Decodes, eq_comm]
      | ok imp =>
          show extractSection (imports ++ [imp.pair]) rest = .error error ↔ _
          simp [BadImport, Decodes, ih]

theorem extract_payloads_error_iff (imports : List (String × String))
    (payloads : List (Except String Payload)) (error : EnforcementError) :
    extractPayloads imports payloads = .error error ↔ First Passes BadPayload payloads error := by
  induction payloads generalizing imports with
  | nil => simp [extractPayloads, not_first_nil]
  | cons entry rest ih =>
      rw [first_cons]
      cases entry with
      | error message =>
          show Except.error (EnforcementError.policy s!"invalid WASM: {message}") = .error error ↔ _
          simp [BadPayload, Passes, eq_comm]
      | ok payload =>
          cases payload with
          | importSection entries =>
              show (extractSection imports entries >>= fun imports =>
                extractPayloads imports rest) = .error error ↔ _
              simp only [bind_eq_error, extract_section_error_iff, extract_section_ok_iff, ih]
              simp [BadPayload, Passes, Payload.Readable]
          | componentImportSection entries =>
              show extractPayloads imports rest = .error error ↔ _
              simp [BadPayload, Passes, Payload.Readable, ih]
          | other kind =>
              show extractPayloads imports rest = .error error ↔ _
              simp [BadPayload, Passes, Payload.Readable, ih]

section Creation

variable [Wasmparser]

/-- The error at which `extract_imports` stops. -/
def ReadError (wasm : Bytes) (error : EnforcementError) : Prop :=
  First Passes BadPayload (Wasmparser.parseAll wasm) error

/-- The capabilities of the entity do not resolve. -/
inductive EnforcementService.ResolveFailure (service : EnforcementService) (entityId : String)
    (wasmBytes : Option Bytes) : EnforcementError → Prop where
  | unknown : service.policy.findEntity entityId = none →
      service.ResolveFailure entityId wasmBytes (.entityNotFound entityId)
  | noBytes {entity : EntityConfig} {model : String} :
      service.policy.findEntity entityId = some entity → entity.mode = .auto model →
      wasmBytes = none → service.ResolveFailure entityId wasmBytes
        (.policy s!"entity '{entityId}' is in auto mode but no WASM bytes were supplied")
  | analyzer {entity : EntityConfig} {model : String} {bytes : Bytes} {error : EnforcementError} :
      service.policy.findEntity entityId = some entity → entity.mode = .auto model →
      wasmBytes = some bytes → service.analyzer model bytes = .error error →
      service.ResolveFailure entityId wasmBytes error

/-- The stage at which a creation fails, and its error. -/
inductive EnforcementService.CreationFailure (service : EnforcementService) (entityId : String)
    (wasmBytes : Option Bytes) : EnforcementError → Prop where
  | resolve {error : EnforcementError} : service.ResolveFailure entityId wasmBytes error →
      service.CreationFailure entityId wasmBytes error
  | read {caps : CapabilitiesConfig} {bytes : Bytes} {error : EnforcementError} :
      service.Resolves entityId wasmBytes caps → wasmBytes = some bytes → ReadError bytes error →
      service.CreationFailure entityId wasmBytes error
  | violation {caps : CapabilitiesConfig} {bytes : Bytes} {imp : String × String}
      {bucket : String} : service.Resolves entityId wasmBytes caps → wasmBytes = some bytes →
      Parses bytes → FirstViolation caps ((declaredImports bytes).map Import.pair) imp bucket →
      service.CreationFailure entityId wasmBytes (.policy
        (s!"workload imports `{imp.1}::{imp.2}` which requires capability `{bucket}`, " ++
          "but the policy did not grant it"))

theorem check_workload_error_iff {wasm : Bytes} {granted : CapabilitiesConfig}
    {error : EnforcementError} :
    checkWorkload wasm granted = .error error ↔
      ReadError wasm error ∨ Parses wasm ∧ ∃ imp bucket,
        FirstViolation granted ((declaredImports wasm).map Import.pair) imp bucket ∧
          error = .policy (violationMessage imp.1 imp.2 bucket) := by
  rw [checkWorkload, bind_eq_error]
  refine or_congr (extract_payloads_error_iff [] _ error) ?_
  simp only [extract_imports_ok_iff, check_imports_error_iff, and_assoc, exists_and_left,
    exists_eq_left]

omit [Wasmparser] in
theorem resolve_capabilities_error_iff {service : EnforcementService} {entityId : String}
    {wasmBytes : Option Bytes} {error : EnforcementError} :
    service.resolveCapabilities entityId wasmBytes = .error error ↔
      service.ResolveFailure entityId wasmBytes error := by
  unfold EnforcementService.resolveCapabilities
  constructor
  · intro h
    cases hfind : service.policy.findEntity entityId with
    | none =>
        rw [hfind] at h
        cases h
        exact .unknown hfind
    | some entity =>
        simp only [hfind, ok_or_else_some, bind, Except.bind] at h
        cases hmode : entity.mode with
        | manual =>
            rw [hmode] at h
            cases h
        | auto model =>
            rw [hmode] at h
            cases wasmBytes with
            | none =>
                cases h
                exact .noBytes hfind hmode rfl
            | some bytes =>
                cases hverdict : service.analyzer model bytes with
                | error verdict =>
                    simp only [ok_or_else_some, hverdict, Except.error.injEq] at h
                    subst h
                    exact .analyzer hfind hmode rfl hverdict
                | ok caps => simp [hverdict] at h
  · intro h
    cases h with
    | unknown hfind =>
        rw [hfind]
        rfl
    | noBytes hfind hmode hbytes => simp [hfind, hmode, hbytes, bind, Except.bind]
    | analyzer hfind hmode hbytes hverdict =>
        simp [hfind, hmode, hbytes, hverdict, bind, Except.bind]

omit [Wasmparser] in
/-- The set that `resolve_capabilities` gives, without its source. -/
theorem resolves_iff {service : EnforcementService} {entityId : String}
    {wasmBytes : Option Bytes} {caps : CapabilitiesConfig} :
    service.Resolves entityId wasmBytes caps ↔
      ∃ source, service.resolveCapabilities entityId wasmBytes = .ok (caps, source) := by
  simp only [resolve_capabilities_ok_iff, find_entity_eq_some_iff service.well_formed]
  constructor
  · intro h
    obtain ⟨entity, hmem, hid, hcaps⟩ := h
    exact ⟨_, entity, ⟨hmem, hid⟩, rfl, hcaps⟩
  · intro h
    obtain ⟨_, entity, ⟨hmem, hid⟩, _, hcaps⟩ := h
    exact ⟨entity, hmem, hid, hcaps⟩

/-- A listed entity is looked up twice, an unlisted one is refused at the first lookup. -/
theorem authorize_eq (service : EnforcementService) (entityId : String)
    (wasmBytes : Option Bytes) :
    service.authorize entityId wasmBytes =
      (service.resolveCapabilities entityId wasmBytes >>= fun resolved =>
        match wasmBytes with
        | none => .ok resolved
        | some bytes => checkWorkload bytes resolved.1 >>= fun _ => .ok resolved) := by
  unfold EnforcementService.authorize EnforcementService.resolveCapabilities
  cases service.policy.findEntity entityId with
  | none => rfl
  | some entity => cases wasmBytes <;> rfl

theorem authorize_error_iff {service : EnforcementService} {entityId : String}
    {wasmBytes : Option Bytes} {error : EnforcementError} :
    service.authorize entityId wasmBytes = .error error ↔
      service.CreationFailure entityId wasmBytes error := by
  rw [authorize_eq, bind_eq_error, resolve_capabilities_error_iff]
  constructor
  · intro h
    rcases h with hresolve | ⟨resolved, hresolved, hcheck⟩
    · exact .resolve hresolve
    · cases wasmBytes with
      | none => cases hcheck
      | some bytes =>
          have hcaps := resolves_iff.mpr ⟨resolved.2, hresolved⟩
          rcases bind_eq_error.mp hcheck with hcheck | ⟨_, _, hok⟩
          · rcases check_workload_error_iff.mp hcheck with
              hread | ⟨hparses, imp, bucket, hfirst, rfl⟩
            · exact .read hcaps rfl hread
            · exact .violation hcaps rfl hparses hfirst
          · cases hok
  · intro h
    cases h with
    | resolve hresolve => exact .inl hresolve
    | read hcaps hbytes hread =>
        obtain ⟨source, hresolved⟩ := resolves_iff.mp hcaps
        subst hbytes
        refine .inr ⟨_, hresolved, bind_eq_error.mpr (.inl ?_)⟩
        exact check_workload_error_iff.mpr (.inl hread)
    | violation hcaps hbytes hparses hfirst =>
        obtain ⟨source, hresolved⟩ := resolves_iff.mp hcaps
        subst hbytes
        refine .inr ⟨_, hresolved, bind_eq_error.mpr (.inl ?_)⟩
        exact check_workload_error_iff.mpr (.inr ⟨hparses, _, _, hfirst, rfl⟩)

/-- A completed creation has the outcome that its arguments and readings determine. -/
theorem completed_creation {service : EnforcementService} {events : List Event} {call : Call}
    {outcome : Outcome}
    (hcompleted : (call, outcome) ∈ completedCalls (Mealy.trace service.step .empty events))
    {entityId : String} {wasmBytes : Option Bytes}
    (hcreation : call.operation.creation = some (entityId, wasmBytes)) :
    outcome = service.creationAnswer entityId wasmBytes call := by
  rw [(completed_calls_run service events).1] at hcompleted
  exact Mealy.trace_forall (P := fun call outcome =>
    call.operation.creation = some (entityId, wasmBytes) →
      outcome = service.creationAnswer entityId wasmBytes call)
    (fun state _ hcreation => creation_outcome hcreation state) _ _ _ hcompleted hcreation

theorem creation_answer_error_iff {service : EnforcementService} {entityId : String}
    {wasmBytes : Option Bytes} {call : Call} {error : EnforcementError} :
    service.creationAnswer entityId wasmBytes call = .session (.error error) ↔
      service.authorize entityId wasmBytes = .error error := by
  rw [EnforcementService.creationAnswer]
  cases service.authorize entityId wasmBytes with
  | error other => simp [Except.map]
  | ok resolved => simp [Except.map]

/-- In an interleaved run a creation is refused with an error exactly when this is the error of the
first stage that fails, and it is refused with one whenever a stage fails. -/
theorem refusals_explained (service : EnforcementService) (events : List Event)
    {call : Call} {outcome : Outcome}
    (hcompleted : (call, outcome) ∈ completedCalls (Mealy.trace service.step .empty events))
    {entityId : String} {wasmBytes : Option Bytes}
    (hcreation : call.operation.creation = some (entityId, wasmBytes))
    (error : EnforcementError) :
    outcome = .session (.error error) ↔ service.CreationFailure entityId wasmBytes error := by
  rw [completed_creation hcompleted hcreation, creation_answer_error_iff, authorize_error_iff]

end Creation

/-- A truncated workload fails where it is read, after the capabilities have resolved. -/
theorem truncated_workload_refused :
    @EnforcementService.CreationFailure sampleParser mixedService "sensor" (some [0x00, 0x61])
      (.policy "invalid WASM: unexpected end-of-file (at offset 0x0)") :=
  (@refusals_explained sampleParser mixedService
    [.createCall 0 "sensor" (some [0x00, 0x61]), .createResume 0 ⟨7⟩ 5]
    ⟨.createSessionWithWasm "sensor" (some [0x00, 0x61]), 0, ⟨0⟩⟩ _ (by decide) _ _ rfl _).mp rfl

end HalEnforcement
