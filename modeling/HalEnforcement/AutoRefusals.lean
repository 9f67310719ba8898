import HalEnforcement.PromptText
import HalEnforcement.Refusals

/-!
# Refusals with the OpenAI analyser

`OpenAiAnalyzer` is the analyser of a deployed service, and `AnalysisFailure` lists the stages of
its `analyze`: the workload does not parse, the request fails, the endpoint answers with another
status or with a body that is not a chat response, the model gives no choice, or its verdict is not
a capability set. `auto_refusals_explained` says that a creation for an entity in `Auto` mode is
refused exactly for one of these, or for an import that the verdict does not grant.
`unreadable_refused_alike` says that a workload that does not parse is refused with the same text in
both modes, by different loops over its imports.
-/

namespace HalEnforcement

open FirstFailure OpenAiAnalyzer

/-- What `analyze` makes of an answer of the endpoint. -/
def readAnswer (client : OpenAiClient) (resp : ChatResponse) : Result CapabilitiesConfig :=
  if resp.isSuccess then do
    let choices ← mapErr resp.json fun e => .policy s!"OpenAI bad JSON: {e}"
    let content ← okOrElse choices.head? (.policy "OpenAI: no choices")
    mapErr (client.parseCapabilities content) fun e =>
      .policy s!"model verdict not a CapabilitiesConfig: {e}; raw: {content}"
  else
    let status := resp.status
    let body := resp.text
    .error (.policy s!"OpenAI returned {status}: {body}")

/-- An answer without a verdict, and the error it gives. -/
inductive BadAnswer (client : OpenAiClient) (resp : ChatResponse) : EnforcementError → Prop where
  | status : resp.isSuccess = false →
      BadAnswer client resp (.policy s!"OpenAI returned {resp.status}: {resp.text}")
  | json {message : String} : resp.isSuccess = true → resp.json = .error message →
      BadAnswer client resp (.policy s!"OpenAI bad JSON: {message}")
  | noChoices : resp.isSuccess = true → resp.json = .ok [] →
      BadAnswer client resp (.policy "OpenAI: no choices")
  | verdict {content message : String} {others : List String} : resp.isSuccess = true →
      resp.json = .ok (content :: others) → client.parseCapabilities content = .error message →
      BadAnswer client resp
        (.policy s!"model verdict not a CapabilitiesConfig: {message}; raw: {content}")

theorem read_answer_error_iff {client : OpenAiClient} {resp : ChatResponse}
    {error : EnforcementError} :
    readAnswer client resp = .error error ↔ BadAnswer client resp error := by
  unfold readAnswer
  constructor
  · intro h
    split at h
    · next hsuccess =>
        simp only [bind_eq_error, map_err_eq_error, map_err_eq_ok] at h
        rcases h with ⟨message, hjson, rfl⟩ | ⟨choices, hjson, hcontent⟩
        · exact .json hsuccess hjson
        · cases choices with
          | nil =>
              rcases hcontent with hnone | ⟨content, hnone, _⟩
              · cases hnone
                exact .noChoices hsuccess hjson
              · cases hnone
          | cons content others =>
              rcases hcontent with hnone | ⟨_, hsome, message, hverdict, rfl⟩
              · cases hnone
              · cases hsome
                exact .verdict hsuccess hjson hverdict
    · next hstatus =>
        cases h
        exact .status (by simpa using hstatus)
  · intro h
    cases h with
    | status hstatus => simp [hstatus]
    | json hsuccess hjson => simp [hsuccess, hjson, mapErr, bind, Except.bind]
    | noChoices hsuccess hjson => simp [hsuccess, hjson, mapErr, bind, Except.bind]
    | verdict hsuccess hjson hverdict =>
        simp [hsuccess, hjson, hverdict, mapErr, bind, Except.bind]

theorem read_answer_ok_iff {client : OpenAiClient} {resp : ChatResponse}
    {caps : CapabilitiesConfig} :
    readAnswer client resp = .ok caps ↔ resp.isSuccess = true ∧ ∃ content others,
      resp.json = .ok (content :: others) ∧ client.parseCapabilities content = .ok caps := by
  unfold readAnswer
  cases hsuccess : resp.isSuccess with
  | false => simp
  | true =>
      simp only [if_true, bind_eq_ok, map_err_eq_ok, true_and]
      constructor
      · intro h
        obtain ⟨choices, hjson, content, hcontent, hverdict⟩ := h
        cases choices with
        | nil => cases hcontent
        | cons first others =>
            cases hcontent
            exact ⟨content, others, hjson, hverdict⟩
      · intro h
        obtain ⟨content, others, hjson, hverdict⟩ := h
        exact ⟨_, hjson, content, rfl, hverdict⟩

section Analysis

variable [Wasmparser]

/-- The request for a workload that parses. -/
def requestFor (model : String) (bytes : Bytes) : ChatRequest :=
  chatRequest model (lines (declaredImports bytes))

/-- The stage at which `analyze` fails, and its error. -/
inductive AnalysisFailure (client : OpenAiClient) (model : String) (bytes : Bytes) :
    EnforcementError → Prop where
  | read {error : EnforcementError} : ReadError bytes error →
      AnalysisFailure client model bytes error
  | request {message : String} : Parses bytes →
      client.send (requestFor model bytes) = .error message →
      AnalysisFailure client model bytes (.policy s!"OpenAI request failed: {message}")
  | answer {resp : ChatResponse} {error : EnforcementError} : Parses bytes →
      client.send (requestFor model bytes) = .ok resp → BadAnswer client resp error →
      AnalysisFailure client model bytes error

/-- The first choice of the model reads as this capability set. -/
structure Verdict (client : OpenAiClient) (model : String) (bytes : Bytes)
    (caps : CapabilitiesConfig) : Prop where
  parses : Parses bytes
  choice : ∃ resp content others, client.send (requestFor model bytes) = .ok resp ∧
    resp.isSuccess = true ∧ resp.json = .ok (content :: others) ∧
    client.parseCapabilities content = .ok caps

theorem extract_imports_error_iff {wasm : Bytes} {error : EnforcementError} :
    HalEnforcement.extractImports wasm = .error error ↔ ReadError wasm error :=
  extract_payloads_error_iff [] _ error

/-- The loop of the analyser stops where that of the enforcer does, with its error. -/
theorem analyzer_imports_error_iff {wasm : Bytes} {error : EnforcementError} :
    OpenAiAnalyzer.extractImports wasm = .error error ↔ ReadError wasm error := by
  rw [analyzer_extract_imports, ← extract_imports_error_iff]
  cases HalEnforcement.extractImports wasm <;> simp [Except.map]

theorem analyzer_imports_ok_iff {wasm : Bytes} {imports : List String} :
    OpenAiAnalyzer.extractImports wasm = .ok imports ↔
      Parses wasm ∧ imports = lines (declaredImports wasm) := by
  have hlines : lines (declaredImports wasm) =
      ((declaredImports wasm).map Import.pair).map renderPair := by
    rw [List.map_map]
    rfl
  rw [analyzer_extract_imports, hlines]
  cases h : HalEnforcement.extractImports wasm with
  | error error =>
      have hnot : ¬ Parses wasm := fun hparses => by
        rw [extract_imports_ok_iff.mpr ⟨hparses, rfl⟩] at h
        cases h
      simp [Except.map, hnot]
  | ok found =>
      obtain ⟨hparses, rfl⟩ := extract_imports_ok_iff.mp h
      simp [Except.map, hparses, eq_comm]

theorem analyze_eq (client : OpenAiClient) (model : String) (bytes : Bytes) :
    openAiAnalyzer client model bytes = (OpenAiAnalyzer.extractImports bytes >>= fun imports =>
      mapErr (client.send (chatRequest model imports))
        (fun e => .policy s!"OpenAI request failed: {e}") >>= readAnswer client) := rfl

theorem analyze_error_iff {client : OpenAiClient} {model : String} {bytes : Bytes}
    {error : EnforcementError} :
    openAiAnalyzer client model bytes = .error error ↔
      AnalysisFailure client model bytes error := by
  simp only [analyze_eq, bind_eq_error, analyzer_imports_error_iff, analyzer_imports_ok_iff,
    map_err_eq_error, map_err_eq_ok, read_answer_error_iff]
  constructor
  · intro h
    rcases h with hread | ⟨_, ⟨hparses, rfl⟩, ⟨message, hsend, rfl⟩ | ⟨resp, hsend, hbad⟩⟩
    · exact .read hread
    · exact .request hparses hsend
    · exact .answer hparses hsend hbad
  · intro h
    cases h with
    | read hread => exact .inl hread
    | request hparses hsend => exact .inr ⟨_, ⟨hparses, rfl⟩, .inl ⟨_, hsend, rfl⟩⟩
    | answer hparses hsend hbad => exact .inr ⟨_, ⟨hparses, rfl⟩, .inr ⟨_, hsend, hbad⟩⟩

theorem analyze_ok_iff {client : OpenAiClient} {model : String} {bytes : Bytes}
    {caps : CapabilitiesConfig} :
    openAiAnalyzer client model bytes = .ok caps ↔ Verdict client model bytes caps := by
  simp only [analyze_eq, bind_eq_ok, analyzer_imports_ok_iff, map_err_eq_ok, read_answer_ok_iff]
  constructor
  · intro h
    obtain ⟨_, ⟨hparses, rfl⟩, resp, hsend, hsuccess, content, others, hjson, hverdict⟩ := h
    exact ⟨hparses, resp, content, others, hsend, hsuccess, hjson, hverdict⟩
  · intro h
    obtain ⟨hparses, resp, content, others, hsend, hsuccess, hjson, hverdict⟩ := h
    exact ⟨_, ⟨hparses, rfl⟩, resp, hsend, hsuccess, content, others, hjson, hverdict⟩

/-! ## Creations -/

/-- The capabilities of an entity in `Auto` mode resolve to the verdict. -/
theorem authorize_auto_error_iff {service : EnforcementService} {client : OpenAiClient}
    (hanalyzer : service.analyzer = openAiAnalyzer client) {entityId model : String}
    {entity : EntityConfig} (hfind : service.policy.findEntity entityId = some entity)
    (hmode : entity.mode = .auto model) (bytes : Bytes) (error : EnforcementError) :
    service.authorize entityId (some bytes) = .error error ↔
      AnalysisFailure client model bytes error ∨ ∃ caps imp bucket,
        Verdict client model bytes caps ∧
          FirstViolation caps ((declaredImports bytes).map Import.pair) imp bucket ∧
          error = .policy (violationMessage imp.1 imp.2 bucket) := by
  have hresolve : service.resolveCapabilities entityId (some bytes) =
      (openAiAnalyzer client model bytes).map fun caps => (caps, .auto model) := by
    unfold EnforcementService.resolveCapabilities
    rw [hfind, hanalyzer]
    simp only [ok_or_else_some, bind, Except.bind, hmode]
    cases openAiAnalyzer client model bytes <;> rfl
  rw [authorize_eq, hresolve]
  cases hanalysis : openAiAnalyzer client model bytes with
  | error other =>
      have hnone : ∀ caps, ¬ Verdict client model bytes caps := fun caps hverdict => by
        rw [analyze_ok_iff.mpr hverdict] at hanalysis
        cases hanalysis
      simp [Except.map, bind, Except.bind, ← analyze_error_iff, hanalysis, hnone]
  | ok caps =>
      have hverdict := analyze_ok_iff.mp hanalysis
      have hunique : ∀ other, Verdict client model bytes other ↔ other = caps := by
        intro other
        rw [← analyze_ok_iff, hanalysis, Except.ok.injEq, eq_comm]
      have hread : ¬ ReadError bytes error := fun hread => by
        rw [analyze_error_iff.mpr (.read hread)] at hanalysis
        cases hanalysis
      show ((checkWorkload bytes caps >>= fun _ =>
        Except.ok (caps, PolicySource.auto model)) = _) ↔ _
      simp [bind_eq_error, check_workload_error_iff, hread, hverdict.parses, ← analyze_error_iff,
        hanalysis, hunique]

/-- In an interleaved run a creation for an entity in `Auto` mode is refused exactly when the
analysis fails, with its error, or the verdict does not grant what an import requires. -/
theorem auto_refusals_explained (service : EnforcementService) (client : OpenAiClient)
    (hanalyzer : service.analyzer = openAiAnalyzer client) (events : List Event) {call : Call}
    {outcome : Outcome}
    (hcompleted : (call, outcome) ∈ completedCalls (Mealy.trace service.step .empty events))
    {entityId model : String} {bytes : Bytes}
    (hcreation : call.operation.creation = some (entityId, some bytes)) {entity : EntityConfig}
    (hentity : entity ∈ service.policy.entities) (hid : entity.id = entityId)
    (hmode : entity.mode = .auto model) (error : EnforcementError) :
    outcome = .session (.error error) ↔
      AnalysisFailure client model bytes error ∨ ∃ caps imp bucket,
        Verdict client model bytes caps ∧
          FirstViolation caps ((declaredImports bytes).map Import.pair) imp bucket ∧
          error = .policy
            (s!"workload imports `{imp.1}::{imp.2}` which requires capability `{bucket}`, " ++
              "but the policy did not grant it") := by
  have hfind := (find_entity_eq_some_iff service.well_formed).mpr ⟨hentity, hid⟩
  rw [completed_creation hcompleted hcreation, creation_answer_error_iff]
  exact authorize_auto_error_iff hanalyzer hfind hmode bytes error

/-- In an interleaved run a creation for a workload that does not parse is refused with the
message of its first bad entry, whatever the mode of the entity and the answers of the model. -/
theorem unreadable_refused_alike (service : EnforcementService) (client : OpenAiClient)
    (hanalyzer : service.analyzer = openAiAnalyzer client) (events : List Event) {call : Call}
    {outcome : Outcome}
    (hcompleted : (call, outcome) ∈ completedCalls (Mealy.trace service.step .empty events))
    {entityId : String} {bytes : Bytes}
    (hcreation : call.operation.creation = some (entityId, some bytes)) {entity : EntityConfig}
    (hentity : entity ∈ service.policy.entities) (hid : entity.id = entityId)
    {error : EnforcementError} (hread : ReadError bytes error) :
    outcome = .session (.error error) := by
  have hfind := (find_entity_eq_some_iff service.well_formed).mpr ⟨hentity, hid⟩
  rw [completed_creation hcompleted hcreation, creation_answer_error_iff]
  cases hmode : entity.mode with
  | auto model =>
      exact (authorize_auto_error_iff hanalyzer hfind hmode bytes error).mpr (.inl (.read hread))
  | manual =>
      have hcaps : entity.Resolves service.analyzer (some bytes) entity.capabilities := by
        rw [EntityConfig.Resolves, hmode]
      exact authorize_error_iff.mpr (.read ⟨entity, hentity, hid, hcaps⟩ rfl hread)

end Analysis

/-- A client whose model grants `random`. -/
def randomClient : OpenAiClient where
  send _ := .ok ⟨true, "200 OK", "", .ok ["\x7b\"random\": true\x7d"]⟩
  parseCapabilities _ := .ok { random := true }

/-- The mixed service with this client behind its analyser. -/
def randomService : EnforcementService :=
  mixedService.withAnalyzer (@openAiAnalyzer sampleParser randomClient)

/-- The verdict does not grant the import of the crypto module. -/
theorem crypto_not_in_verdict :
    let refusal := EnforcementError.policy <|
      "workload imports `elastic:hal/crypto::hash` which requires capability `crypto`, " ++
        "but the policy did not grant it"
    @AnalysisFailure sampleParser randomClient "gpt-4o-2024-11-20" cryptoModule refusal ∨
      ∃ caps imp bucket,
        @Verdict sampleParser randomClient "gpt-4o-2024-11-20" cryptoModule caps ∧
          FirstViolation caps ((@declaredImports sampleParser cryptoModule).map Import.pair) imp
            bucket ∧
          refusal = .policy
            (s!"workload imports `{imp.1}::{imp.2}` which requires capability `{bucket}`, " ++
              "but the policy did not grant it") :=
  (@auto_refusals_explained sampleParser randomService randomClient rfl
    [.createCall 0 "agent" (some cryptoModule), .createResume 0 ⟨7⟩ 5]
    ⟨.createSessionWithWasm "agent" (some cryptoModule), 0, ⟨0⟩⟩ _ (by decide) _ _ _ rfl
    { id := "agent", mode := .auto "gpt-4o-2024-11-20", capabilities := { gpu := true } }
    (List.mem_cons_of_mem _ (List.mem_singleton_self _)) rfl rfl _).mp rfl

/-- The truncated workload, for the entity in `Auto` mode. -/
theorem truncated_refused_for_agent :
    Outcome.session (@EnforcementService.createSessionWithWasm sampleParser randomService .empty
        "agent" (some [0x00, 0x61]) ⟨7⟩ 5).1 =
      .session (.error (.policy "invalid WASM: unexpected end-of-file (at offset 0x0)")) :=
  @unreadable_refused_alike sampleParser randomService randomClient rfl
    [.createCall 0 "agent" (some [0x00, 0x61]), .createResume 0 ⟨7⟩ 5]
    ⟨.createSessionWithWasm "agent" (some [0x00, 0x61]), 0, ⟨0⟩⟩ _ (by decide) _ _ rfl
    { id := "agent", mode := .auto "gpt-4o-2024-11-20", capabilities := { gpu := true } }
    (List.mem_cons_of_mem _ (List.mem_singleton_self _)) rfl _
    ⟨[], _, [], rfl, by simp, .inl ⟨_, rfl, rfl⟩⟩

end HalEnforcement
