import HalEnforcement.WorkloadCheck
import Mathlib.Data.List.Forall2

/-!
# Spellings of an interface name

The table of `import_to_capability` matches most modules by their exact name, and lets through what
it does not know. Two consequences for a workload that spells a HAL interface in another way:
`ungranted_spelling_refused_iff` says that the qualified and the bare name of an interface are both
checked, except for the bare name `capabilities`, which the table lacks; and
`requalified_refused_iff` says when a refusal survives a version qualifier `@..` on the names of
some imports. The names under `wasi:sockets/` keep their bucket, those under `elastic:hal/` lose it.
-/

namespace HalEnforcement

/-- The modules that name a HAL interface: the qualified and the bare name. -/
def spellings (interface : String) : List String :=
  ["elastic:hal/" ++ interface, interface]

/-- A parser that knows the modules importing one function under some of these names. -/
@[reducible] def spellingParser : Wasmparser :=
  importParser
    [⟨"elastic:hal/capabilities", "list"⟩, ⟨"capabilities", "list"⟩, ⟨"elastic:hal/crypto", "hash"⟩,
      ⟨"elastic:hal/crypto@1.0.0", "hash"⟩, ⟨"wasi:sockets/tcp", "bind"⟩,
      ⟨"wasi:sockets/tcp@0.2.0", "bind"⟩]

/-- Outside preview1 the bucket does not depend on the name of the import. -/
theorem import_to_capability_name {module : String}
    (hmodule : ¬ (module = "wasi_snapshot_preview1" ∨ module = "wasi_unstable"))
    (name name' : String) : importToCapability module name = importToCapability module name' := by
  rw [importToCapability, importToCapability, if_neg hmodule, if_neg hmodule]

/-- The bucket of a spelling is the interface it names, unless the table lacks it. -/
theorem import_to_capability_spelling {interface module : String}
    (hinterface : interface ∈ halInterfaces) (hmodule : module ∈ spellings interface)
    (name : String) :
    importToCapability module name =
      if module = "capabilities" then none else some interface := by
  have htable : ∀ interface ∈ halInterfaces, ∀ module ∈ spellings interface,
      ¬ (module = "wasi_snapshot_preview1" ∨ module = "wasi_unstable") ∧
        importToCapability module "" =
          if module = "capabilities" then none else some interface := by decide
  obtain ⟨hpreview, hbucket⟩ := htable interface hinterface module hmodule
  rw [import_to_capability_name hpreview name "", hbucket]

/-- An import with a bucket is none of the bare module `capabilities`. -/
theorem module_ne_of_bucket {module name bucket : String}
    (h : importToCapability module name = some bucket) : module ≠ "capabilities" := by
  rintro rfl
  have hbare := @import_to_capability_spelling "capabilities" "capabilities" (by decide)
    (by decide) name
  rw [if_pos rfl, h] at hbare
  cases hbare

/-- A spelling of an interface that is not granted makes the check fail exactly when its module is
not the bare name `capabilities`: on every list of imports that contains it, and in a binary, where
an import of another module may make the check fail instead. -/
theorem ungranted_spelling_refused_iff [Wasmparser] (interface : String)
    (hinterface : interface ∈ halInterfaces) (granted : CapabilitiesConfig)
    (hdenied : granted.hasCapability interface = false) (imp : Import)
    (hmodule : imp.module ∈ spellings interface) :
    ((∀ imports, imp.pair ∈ imports → ∃ error, checkImports granted [] imports = .error error) ↔
      imp.module ≠ "capabilities") ∧
    ∀ wasm, Parses wasm → imp ∈ declaredImports wasm →
      ((∃ error, checkWorkload wasm granted = .error error) ↔
        imp.module ≠ "capabilities" ∨
          ∃ other ∈ declaredImports wasm, other.module ≠ "capabilities" ∧ ∃ bucket,
            importToCapability other.module other.name = some bucket ∧
              granted.hasCapability bucket = false) := by
  have hbucket := import_to_capability_spelling hinterface hmodule imp.name
  by_cases hbare : imp.module = "capabilities"
  · rw [if_pos hbare] at hbucket
    refine ⟨?_, fun wasm hparses _ => ?_⟩
    · simp only [hbare, ne_eq, not_true_eq_false, iff_false]
      intro h
      -- the list of this import alone is let through
      obtain ⟨bucket, hrequired, _⟩ :=
        check_imports_refused_iff.mp (h [imp.pair] (List.mem_singleton_self _))
      simp [required, Import.pair, hbucket] at hrequired
    · rw [check_workload_refused_iff hparses]
      constructor
      · intro h
        obtain ⟨bucket, hrequired, hdenied⟩ := h
        obtain ⟨other, hother, hmapped⟩ := List.mem_filterMap.mp hrequired
        exact .inr ⟨other, hother, module_ne_of_bucket hmapped, bucket, hmapped, hdenied⟩
      · rintro (h | ⟨other, hother, _, bucket, hmapped, hdenied⟩)
        · exact absurd hbare h
        · exact ⟨bucket, List.mem_filterMap.mpr ⟨other, hother, hmapped⟩, hdenied⟩
  · rw [if_neg hbare] at hbucket
    refine ⟨?_, fun wasm hparses himp => ?_⟩
    · simp only [ne_eq, hbare, not_false_eq_true, iff_true]
      intro imports himp
      exact check_imports_refused_iff.mpr ⟨interface, mem_required.mpr ⟨_, himp, hbucket⟩, hdenied⟩
    · simp only [ne_eq, hbare, not_false_eq_true, true_or, iff_true]
      exact (check_workload_refused_iff hparses).mpr
        ⟨interface, List.mem_filterMap.mpr ⟨imp, himp, hbucket⟩, hdenied⟩

/-- The qualified name of the interface that lists capabilities is refused. -/
theorem qualified_capabilities_refused :
    ∃ error, @checkWorkload spellingParser
      (importingModule ⟨"elastic:hal/capabilities", "list"⟩) .none = .error error :=
  ((@ungranted_spelling_refused_iff spellingParser "capabilities" (by decide) .none rfl
    ⟨"elastic:hal/capabilities", "list"⟩ (by decide)).2 _ (importing_module_parses (by decide))
      (by rw [importing_module_declares (by decide)]; exact List.mem_singleton_self _)).mpr
        (.inl (by decide))

/-- Under its bare name the interface is imported without a grant. -/
theorem bare_capabilities_admitted :
    "capabilities" ∈ halInterfaces ∧
      CapabilitiesConfig.none.hasCapability "capabilities" = false ∧
      @Parses spellingParser (importingModule ⟨"capabilities", "list"⟩) ∧
      ⟨"capabilities", "list"⟩ ∈
        @declaredImports spellingParser (importingModule ⟨"capabilities", "list"⟩) ∧
      @checkWorkload spellingParser (importingModule ⟨"capabilities", "list"⟩) .none = .ok [] := by
  refine ⟨by decide, rfl, importing_module_parses (by decide), ?_, by decide⟩
  rw [importing_module_declares (by decide)]
  exact List.mem_singleton_self _

/-! ## Version qualifiers -/

/-- A module named by an interface of the two packages the table knows. -/
def InterfaceQualified (module : String) : Prop :=
  startsWith module "elastic:hal/" = true ∨ startsWith module "wasi:sockets/" = true

/-- The second import is the first, or the first with a version on its interface name. -/
inductive Requalified : Import → Import → Prop where
  | same (imp : Import) : Requalified imp imp
  | version (imp : Import) (version bucket : String) : InterfaceQualified imp.module →
      importToCapability imp.module imp.name = some bucket →
      Requalified imp ⟨imp.module ++ "@" ++ version, imp.name⟩

/-- The modules of the exact part of the table have no `@` in their names. -/
theorem hal_capability_at {module bucket : String} (h : halCapability module = some bucket) :
    '@' ∉ module.toList := by
  unfold halCapability at h
  split at h <;> first | decide | cases h

/-- A module that starts with a pattern which the preview1 modules do not start with. -/
theorem outside_preview1 {module pattern : String} (h : startsWith module pattern = true)
    (hpattern : ¬ (startsWith "wasi_snapshot_preview1" pattern = true ∨
      startsWith "wasi_unstable" pattern = true)) :
    ¬ (module = "wasi_snapshot_preview1" ∨ module = "wasi_unstable") := by
  intro hmodule
  rcases hmodule with rfl | rfl
  · exact hpattern (.inl h)
  · exact hpattern (.inr h)

/-- A module that starts like the crypto packages requires crypto whatever follows. -/
theorem import_to_capability_crypto {module : String}
    (h : startsWith module "wasi_crypto" = true ∨ startsWith module "wasi-crypto" = true)
    (name : String) : importToCapability module name = some "crypto" := by
  have hpreview : ¬ (module = "wasi_snapshot_preview1" ∨ module = "wasi_unstable") := by
    rcases h with h | h
    · exact outside_preview1 h (by decide)
    · exact outside_preview1 h (by decide)
  rw [importToCapability, if_neg hpreview, if_pos h]

/-- A module that starts like the sockets package requires sockets whatever follows. -/
theorem import_to_capability_sockets {module : String}
    (h : startsWith module "wasi:sockets" = true) (name : String) :
    importToCapability module name = some "sockets" := by
  have hcrypto : ¬ (startsWith module "wasi_crypto" = true ∨
      startsWith module "wasi-crypto" = true) := by
    rw [not_or]
    exact ⟨not_starts_with_of_apart h (by decide), not_starts_with_of_apart h (by decide)⟩
  rw [importToCapability, if_neg (outside_preview1 h (by decide)), if_neg hcrypto, if_pos (.inl h)]

/-- A module under `elastic:hal/` reaches the exact part of the table. -/
theorem import_to_capability_hal {module : String} (h : startsWith module "elastic:hal/" = true)
    (name : String) : importToCapability module name = halCapability module := by
  have hcrypto : ¬ (startsWith module "wasi_crypto" = true ∨
      startsWith module "wasi-crypto" = true) := by
    rw [not_or]
    exact ⟨not_starts_with_of_apart h (by decide), not_starts_with_of_apart h (by decide)⟩
  have hsockets : ¬ (startsWith module "wasi:sockets" = true ∨ module = "wasi_sockets") := by
    rw [not_or]
    refine ⟨not_starts_with_of_apart h (by decide), fun heq => ?_⟩
    rw [heq] at h
    exact absurd h (by decide)
  rw [importToCapability, if_neg (outside_preview1 h (by decide)), if_neg hcrypto, if_neg hsockets]

/-- A module under `elastic:hal/` with a version is let through. -/
theorem import_to_capability_versioned {module : String}
    (h : startsWith module "elastic:hal/" = true) (version name : String) :
    importToCapability (module ++ "@" ++ version) name = none := by
  have hversioned : startsWith (module ++ "@" ++ version) "elastic:hal/" = true :=
    starts_with_append (starts_with_append h _) _
  have hat : '@' ∈ (module ++ "@" ++ version).toList := by simp
  rw [import_to_capability_hal hversioned]
  cases hbucket : halCapability (module ++ "@" ++ version) with
  | none => rfl
  | some bucket => exact absurd hat (hal_capability_at hbucket)

/-- The import keeps its bucket: it was left alone, or its package is matched by prefix. -/
def KeepsBucket (imp imp' : Import) : Prop :=
  imp' = imp ∨ startsWith imp.module "wasi:sockets/" = true

/-- An import whose name is qualified keeps its bucket or has none any more. -/
theorem requalified_bucket_iff {imp imp' : Import} (h : Requalified imp imp') {bucket : String} :
    importToCapability imp'.module imp'.name = some bucket ↔
      importToCapability imp.module imp.name = some bucket ∧ KeepsBucket imp imp' := by
  cases h with
  | same => simp [KeepsBucket]
  | version version _ hqualified _ =>
      rcases hqualified with hhal | hsockets
      · have hother : ¬ startsWith imp.module "wasi:sockets/" = true :=
          not_starts_with_of_apart hhal (by decide)
        have hchanged : (⟨imp.module ++ "@" ++ version, imp.name⟩ : Import) ≠ imp := by
          intro heq
          have hlength := congrArg (fun imp => imp.module.toList.length) heq
          simp at hlength
        simp [import_to_capability_versioned hhal, KeepsBucket, hother, hchanged]
      · have hpackage : startsWith imp.module "wasi:sockets" = true := by
          obtain ⟨rest, hrest⟩ := starts_with_iff.mp hsockets
          rw [hrest]
          exact starts_with_append (by decide) rest
        have hversioned : startsWith (imp.module ++ "@" ++ version) "wasi:sockets" = true :=
          starts_with_append (starts_with_append hpackage _) _
        simp [import_to_capability_sockets hpackage, import_to_capability_sockets hversioned,
          KeepsBucket, hsockets]

/-- The buckets of the requalified imports are those of the imports that keep theirs. -/
theorem requalified_required_iff {imports imports' : List Import}
    (h : List.Forall₂ Requalified imports imports') {bucket : String} :
    bucket ∈ required (imports'.map Import.pair) ↔
      ∃ change ∈ imports.zip imports', KeepsBucket change.1 change.2 ∧
        importToCapability change.1.module change.1.name = some bucket := by
  induction h with
  | nil => simp [required]
  | @cons imp imp' rest rest' hhead _ ih =>
      have hmem : bucket ∈ required ((imp' :: rest').map Import.pair) ↔
          importToCapability imp'.module imp'.name = some bucket ∨
            bucket ∈ required (rest'.map Import.pair) := by
        simp [mem_required, Import.pair]
      rw [hmem, ih, requalified_bucket_iff hhead, List.zip_cons_cons, and_comm]
      simp only [List.mem_cons, exists_eq_or_imp]

section Workload

variable [Wasmparser]

/-- A refusal of the one binary is a refusal of the other. -/
def RefusalSurvives (wasm wasm' : Bytes) (granted : CapabilitiesConfig) : Prop :=
  (∃ error, checkWorkload wasm granted = .error error) →
    ∃ error, checkWorkload wasm' granted = .error error

/-- Version qualifiers on the names of some imports leave a refusal in force exactly when there was
nothing to refuse or an import that is not granted keeps its bucket: it has no new qualifier, or its
module is under `wasi:sockets/`. -/
theorem requalified_refused_iff (wasm wasm' : Bytes) (hparses : Parses wasm)
    (hparses' : Parses wasm')
    (himports : List.Forall₂ Requalified (declaredImports wasm) (declaredImports wasm'))
    (granted : CapabilitiesConfig) :
    RefusalSurvives wasm wasm' granted ↔
      (∀ bucket ∈ requiredBuckets wasm, granted.hasCapability bucket = true) ∨
        ∃ change ∈ (declaredImports wasm).zip (declaredImports wasm'),
          KeepsBucket change.1 change.2 ∧ ∃ bucket,
            importToCapability change.1.module change.1.name = some bucket ∧
              granted.hasCapability bucket = false := by
  rw [RefusalSurvives, check_workload_refused_iff hparses, check_workload_refused_iff hparses']
  simp only [required_buckets_eq wasm', requalified_required_iff himports]
  constructor
  · intro h
    by_cases hcovered : ∀ bucket ∈ requiredBuckets wasm, granted.hasCapability bucket = true
    · exact .inl hcovered
    · obtain ⟨bucket, ⟨change, hchange, hkeeps, hmapped⟩, hdenied⟩ := h (by simpa using hcovered)
      exact .inr ⟨change, hchange, hkeeps, bucket, hmapped, hdenied⟩
  · rintro (hcovered | ⟨change, hchange, hkeeps, bucket, hmapped, hdenied⟩) ⟨refused, hrefused, h⟩
    · rw [hcovered refused hrefused] at h
      cases h
    · exact ⟨bucket, ⟨change, hchange, hkeeps, hmapped⟩, hdenied⟩

end Workload

/-- The module that imports a versioned interface of the sockets package is still refused. -/
theorem versioned_sockets_refused :
    @RefusalSurvives spellingParser (importingModule ⟨"wasi:sockets/tcp", "bind"⟩)
      (importingModule ⟨"wasi:sockets/tcp@0.2.0", "bind"⟩) .none := by
  let _ := spellingParser
  have hplain : declaredImports (importingModule ⟨"wasi:sockets/tcp", "bind"⟩) =
      [⟨"wasi:sockets/tcp", "bind"⟩] := importing_module_declares (by decide)
  have hversioned : declaredImports (importingModule ⟨"wasi:sockets/tcp@0.2.0", "bind"⟩) =
      [⟨"wasi:sockets/tcp@0.2.0", "bind"⟩] := importing_module_declares (by decide)
  have himports : List.Forall₂ Requalified
      (declaredImports (importingModule ⟨"wasi:sockets/tcp", "bind"⟩))
      (declaredImports (importingModule ⟨"wasi:sockets/tcp@0.2.0", "bind"⟩)) := by
    rw [hplain, hversioned]
    exact .cons (.version ⟨"wasi:sockets/tcp", "bind"⟩ "0.2.0" "sockets" (.inr (by decide))
      (by decide)) .nil
  refine (requalified_refused_iff _ _ (importing_module_parses (by decide))
    (importing_module_parses (by decide)) himports .none).mpr
      (.inr ⟨(⟨"wasi:sockets/tcp", "bind"⟩, ⟨"wasi:sockets/tcp@0.2.0", "bind"⟩), ?_,
        .inr (by decide), "sockets", by decide, rfl⟩)
  rw [hplain, hversioned]
  exact List.mem_singleton_self _

/-- The module that imports a versioned HAL interface is let through. -/
theorem versioned_crypto_admitted :
    Requalified ⟨"elastic:hal/crypto", "hash"⟩ ⟨"elastic:hal/crypto@1.0.0", "hash"⟩ ∧
      @declaredImports spellingParser (importingModule ⟨"elastic:hal/crypto", "hash"⟩) =
        [⟨"elastic:hal/crypto", "hash"⟩] ∧
      @declaredImports spellingParser (importingModule ⟨"elastic:hal/crypto@1.0.0", "hash"⟩) =
        [⟨"elastic:hal/crypto@1.0.0", "hash"⟩] ∧
      ¬ @RefusalSurvives spellingParser (importingModule ⟨"elastic:hal/crypto", "hash"⟩)
        (importingModule ⟨"elastic:hal/crypto@1.0.0", "hash"⟩) .none := by
  let _ := spellingParser
  refine ⟨.version ⟨"elastic:hal/crypto", "hash"⟩ "1.0.0" "crypto" (.inl (by decide)) (by decide),
    importing_module_declares (by decide), importing_module_declares (by decide), fun h => ?_⟩
  have hplain : checkWorkload (importingModule ⟨"elastic:hal/crypto", "hash"⟩) .none =
      .error (.policy (violationMessage "elastic:hal/crypto" "hash" "crypto")) := by decide
  have hversioned : checkWorkload (importingModule ⟨"elastic:hal/crypto@1.0.0", "hash"⟩) .none =
      .ok [] := by decide
  obtain ⟨error, herror⟩ := h ⟨_, hplain⟩
  rw [hversioned] at herror
  cases herror

end HalEnforcement
