import HalEnforcement.ImportCheck

/-!
# The admission check on a list of imports

`check_workload` on the list of imports it extracts, from whatever sections they come. The loop is
read once more, now for the refusals as well: `check_imports_error_iff` says that an error is always
about the first import whose bucket is not granted. `check_workload_exact` puts together what
follows: the check decides whether the required buckets are granted, it reports the imports it has
checked, and its verdict depends on the imports as a set only.
-/

namespace HalEnforcement

theorem required_perm {left right : List (String × String)} (h : left.Perm right)
    {bucket : String} : bucket ∈ required left ↔ bucket ∈ required right :=
  (h.filterMap _).mem_iff

/-- The set that grants everything grants every HAL interface. -/
theorem has_capability_all {cap : String} (h : cap ∈ halInterfaces) :
    CapabilitiesConfig.all.hasCapability cap = true := by
  have hall : ∀ name ∈ halInterfaces, CapabilitiesConfig.all.hasCapability name = true := by decide
  exact hall cap h

/-- The set granting the required buckets grants exactly those. -/
theorem has_capability_granting_required {imports : List (String × String)} {cap : String} :
    (CapabilitiesConfig.granting (required imports)).hasCapability cap = true ↔
      cap ∈ required imports := by
  rw [has_capability_granting]
  exact ⟨And.right, fun h => ⟨required_mem_hal_interfaces h, h⟩⟩

/-! ## Refusals -/

/-- The import is the first of the list whose bucket is not granted. -/
structure FirstViolation (granted : CapabilitiesConfig) (imports : List (String × String))
    (imp : String × String) (bucket : String) : Prop where
  split : ∃ before after, imports = before ++ imp :: after ∧ Covers granted before
  mapped : importToCapability imp.1 imp.2 = some bucket
  denied : granted.hasCapability bucket = false

/-- An import that the loop passes over or checks is not the first violation. -/
theorem first_violation_cons {granted : CapabilitiesConfig} {head imp : String × String}
    {rest : List (String × String)} {bucket : String}
    (hhead : ∀ bucket, importToCapability head.1 head.2 = some bucket →
      granted.hasCapability bucket = true) :
    FirstViolation granted (head :: rest) imp bucket ↔ FirstViolation granted rest imp bucket := by
  constructor
  · intro h
    obtain ⟨⟨before, after, hsplit, hbefore⟩, hmapped, hdenied⟩ := h
    cases before with
    | nil =>
        obtain ⟨rfl, _⟩ := List.cons.inj hsplit
        rw [hhead bucket hmapped] at hdenied
        cases hdenied
    | cons first before =>
        obtain ⟨_, hrest⟩ := List.cons.inj hsplit
        exact ⟨⟨before, after, hrest, (covers_cons.mp hbefore).2⟩, hmapped, hdenied⟩
  · intro h
    obtain ⟨⟨before, after, rfl, hbefore⟩, hmapped, hdenied⟩ := h
    exact ⟨⟨head :: before, after, rfl, covers_cons.mpr ⟨hhead, hbefore⟩⟩, hmapped, hdenied⟩

/-- The loop of `check_workload` stops at the first violation. -/
theorem check_imports_error_iff (granted : CapabilitiesConfig)
    (checked : List (String × String × String)) (imports : List (String × String))
    (error : EnforcementError) :
    checkImports granted checked imports = .error error ↔
      ∃ imp bucket, FirstViolation granted imports imp bucket ∧
        error = .policy (violationMessage imp.1 imp.2 bucket) := by
  induction imports generalizing checked with
  | nil =>
      constructor
      · intro h
        cases h
      · intro h
        obtain ⟨imp, bucket, ⟨⟨before, after, hsplit, _⟩, _, _⟩, _⟩ := h
        simp at hsplit
  | cons head rest ih =>
      obtain ⟨module, name⟩ := head
      cases hbucket : importToCapability module name with
      | none =>
          have hhead : ∀ bucket, importToCapability module name = some bucket →
              granted.hasCapability bucket = true := by simp [hbucket]
          have hcons : ∀ imp bucket, FirstViolation granted ((module, name) :: rest) imp bucket ↔
              FirstViolation granted rest imp bucket := fun _ _ => first_violation_cons hhead
          simp only [checkImports, hbucket, ih, hcons]
      | some wanted =>
          cases hgranted : granted.hasCapability wanted with
          | true =>
              have hhead : ∀ bucket, importToCapability module name = some bucket →
                  granted.hasCapability bucket = true := by
                intro bucket h
                rw [hbucket] at h
                rwa [← Option.some.inj h]
              have hcons : ∀ imp bucket, FirstViolation granted ((module, name) :: rest) imp bucket ↔
                  FirstViolation granted rest imp bucket := fun _ _ => first_violation_cons hhead
              simp only [checkImports, hbucket, hgranted, if_true, ih, hcons]
          | false =>
              simp only [checkImports, hbucket, hgranted, Bool.false_eq_true, if_false]
              constructor
              · intro h
                refine ⟨(module, name), wanted, ⟨⟨[], rest, rfl, ?_⟩, hbucket, hgranted⟩,
                  (Except.error.inj h).symm⟩
                exact fun imp himp => by cases himp
              · intro h
                obtain ⟨imp, bucket, ⟨⟨before, after, hsplit, hbefore⟩, hmapped, _⟩, rfl⟩ := h
                cases before with
                | nil =>
                    obtain ⟨rfl, _⟩ := List.cons.inj hsplit
                    rw [hbucket] at hmapped
                    rw [Option.some.inj hmapped]
                | cons first before =>
                    obtain ⟨rfl, _⟩ := List.cons.inj hsplit
                    rw [(covers_cons.mp hbefore).1 wanted hbucket] at hgranted
                    cases hgranted

/-- The loop of `check_workload` refuses exactly the lists with an import that is not granted. -/
theorem check_imports_refused_iff {granted : CapabilitiesConfig}
    {imports : List (String × String)} :
    (∃ error, checkImports granted [] imports = .error error) ↔
      ∃ bucket ∈ required imports, granted.hasCapability bucket = false := by
  constructor
  · intro h
    obtain ⟨error, herror⟩ := h
    obtain ⟨imp, bucket, ⟨⟨before, after, hsplit, _⟩, hmapped, hdenied⟩, _⟩ :=
      (check_imports_error_iff granted [] imports error).mp herror
    refine ⟨bucket, mem_required.mpr ⟨imp, ?_, hmapped⟩, hdenied⟩
    rw [hsplit]
    exact List.mem_append_right _ List.mem_cons_self
  · intro h
    obtain ⟨bucket, hbucket, hdenied⟩ := h
    cases hcheck : checkImports granted [] imports with
    | error error => exact ⟨error, rfl⟩
    | ok checked =>
        have hcovers := ((check_imports_ok_iff granted [] imports checked).mp hcheck).1
        rw [covers_iff.mp hcovers bucket hbucket] at hdenied
        cases hdenied

section Verdict

variable [Wasmparser]

/-- The check accepts the binary under these grants. -/
def Admits (wasm : Bytes) (granted : CapabilitiesConfig) : Prop :=
  ∃ checked, checkWorkload wasm granted = .ok checked

/-- After a successful extraction the check is its loop. -/
theorem check_workload_of_extract {wasm : Bytes} {imports : List (String × String)}
    (hextract : extractImports wasm = .ok imports) (granted : CapabilitiesConfig) :
    checkWorkload wasm granted = checkImports granted [] imports := by
  rw [checkWorkload, hextract]
  rfl

theorem check_workload_refused_iff {wasm : Bytes} (hparses : Parses wasm)
    {granted : CapabilitiesConfig} :
    (∃ error, checkWorkload wasm granted = .error error) ↔
      ∃ bucket ∈ requiredBuckets wasm, granted.hasCapability bucket = false := by
  rw [check_workload_of_extract (extract_imports_ok_iff.mpr ⟨hparses, rfl⟩),
    check_imports_refused_iff, required_buckets_eq]

theorem admits_workload_iff {wasm : Bytes} {imports : List (String × String)}
    (hextract : extractImports wasm = .ok imports) (granted : CapabilitiesConfig) :
    Admits wasm granted ↔ ∀ bucket ∈ required imports, granted.hasCapability bucket = true := by
  obtain ⟨hparses, rfl⟩ := extract_imports_ok_iff.mp hextract
  rw [← required_buckets_eq]
  exact check_workload_succeeds_iff hparses

/-- What `check_workload` decides and reports about a binary with these imports. -/
structure DecidesRequired (wasm : Bytes) (imports : List (String × String)) : Prop where
  verdict : ∀ granted, Admits wasm granted ↔
    ∀ bucket ∈ required imports, granted.hasCapability bucket = true
  reported : ∀ granted checked, checkWorkload wasm granted = .ok checked →
    checked = imports.filterMap bucketed
  refused : ∀ granted error, checkWorkload wasm granted = .error error ↔
    ∃ imp bucket, FirstViolation granted imports imp bucket ∧
      error = .policy
        (s!"workload imports `{imp.1}::{imp.2}` which requires capability `{bucket}`, " ++
          "but the policy did not grant it")
  monotone : ∀ granted wider : CapabilitiesConfig,
    (∀ cap, granted.hasCapability cap = true → wider.hasCapability cap = true) →
      Admits wasm granted → Admits wasm wider
  order_irrelevant : ∀ other otherImports granted, extractImports other = .ok otherImports →
    otherImports.Perm imports → (Admits other granted ↔ Admits wasm granted)
  all_admitted : Admits wasm .all
  exact_admitted : Admits wasm (.granting (required imports))
  without_one_refused : ∀ bucket ∈ required imports,
    ¬ Admits wasm (.granting ((required imports).filter fun cap => decide (cap ≠ bucket)))

/-- The check decides exactly whether the required buckets are granted. -/
theorem check_workload_exact (wasm : Bytes) (imports : List (String × String))
    (hextract : extractImports wasm = .ok imports) :
    (∀ cap, (CapabilitiesConfig.granting (required imports)).hasCapability cap = true ↔
      cap ∈ required imports) ∧ DecidesRequired wasm imports := by
  refine ⟨fun _ => has_capability_granting_required, ?_⟩
  have hverdict := admits_workload_iff hextract
  exact {
    verdict := hverdict
    reported := by
      intro granted checked h
      rw [check_workload_of_extract hextract, check_imports_ok_iff] at h
      exact h.2
    refused := by
      intro granted error
      rw [check_workload_of_extract hextract]
      exact check_imports_error_iff granted [] imports error
    monotone := by
      intro granted wider hwider h
      rw [hverdict] at h ⊢
      exact fun bucket hbucket => hwider bucket (h bucket hbucket)
    order_irrelevant := by
      intro other otherImports granted hother hperm
      rw [hverdict, admits_workload_iff hother]
      exact forall_congr' fun bucket => imp_congr_left (required_perm hperm)
    all_admitted := by
      rw [hverdict]
      exact fun bucket hbucket => has_capability_all (required_mem_hal_interfaces hbucket)
    exact_admitted := by
      rw [hverdict]
      exact fun bucket hbucket => has_capability_granting_required.mpr hbucket
    without_one_refused := by
      intro bucket hbucket h
      rw [hverdict] at h
      have hgranted := (has_capability_granting.mp (h bucket hbucket)).2
      simp at hgranted }

end Verdict

/-- A binary that imports one function of one interface. -/
theorem check_workload_exact_crypto_module :
    (∀ cap, (CapabilitiesConfig.granting
      (required [("elastic:hal/crypto", "hash")])).hasCapability cap = true ↔
        cap ∈ required [("elastic:hal/crypto", "hash")]) ∧
      @DecidesRequired sampleParser cryptoModule [("elastic:hal/crypto", "hash")] :=
  @check_workload_exact sampleParser cryptoModule [("elastic:hal/crypto", "hash")] (by decide)

/-! ## Modules with one import -/

/-- A core module that imports one function, with names short enough for one-byte lengths. -/
def importingModule (imp : Import) : Bytes :=
  let module := imp.module.toUTF8.data.toList
  let name := imp.name.toUTF8.data.toList
  [0x00, 0x61, 0x73, 0x6d, 0x01, 0x00, 0x00, 0x00] ++
    [0x01, 0x04, 0x01, 0x60, 0x00, 0x00] ++
    [0x02, .ofNat (module.length + name.length + 5), 0x01, .ofNat module.length] ++ module ++
    [.ofNat name.length] ++ name ++ [0x00, 0x00]

/-- The payloads the parser yields for the modules that import one of these functions. -/
@[reducible] def importParser (imports : List Import) : Wasmparser where
  parseAll wasm :=
    match imports.find? fun imp => decide (wasm = importingModule imp) with
    | some imp =>
        [.ok (.other "Version"), .ok (.other "TypeSection"), .ok (.importSection [.ok imp]),
          .ok (.other "End")]
    | none => [.error "unexpected end-of-file (at offset 0x0)"]

section Importing

variable {imports : List Import} {imp : Import}

/-- The payloads of a module the parser finds. -/
theorem parse_importing_module
    (h : (imports.find? fun other => decide (importingModule imp = importingModule other)) =
      some imp) :
    (importParser imports).parseAll (importingModule imp) =
      [.ok (.other "Version"), .ok (.other "TypeSection"), .ok (.importSection [.ok imp]),
        .ok (.other "End")] := by
  show (match imports.find? fun other => decide (importingModule imp = importingModule other) with
    | some imp => _
    | none => _) = _
  rw [h]

theorem importing_module_parses
    (h : (imports.find? fun other => decide (importingModule imp = importingModule other)) =
      some imp) : @Parses (importParser imports) (importingModule imp) := by
  unfold Parses
  rw [parse_importing_module h]
  simp [AllOk, okValues, Except.toOption, Payload.Readable]

/-- A module the parser finds declares the one import it was made for. -/
theorem importing_module_declares
    (h : (imports.find? fun other => decide (importingModule imp = importingModule other)) =
      some imp) : @declaredImports (importParser imports) (importingModule imp) = [imp] := by
  unfold declaredImports
  rw [parse_importing_module h]
  rfl

end Importing

end HalEnforcement
