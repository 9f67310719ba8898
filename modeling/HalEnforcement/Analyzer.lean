import HalEnforcement.Enforcer

/-!
# Workload analysers

The trait of `src/analyzer.rs` behind `Auto` mode, with its two implementations. What an analyser
answers is not constrained: the service trusts the model.

`OpenAiAnalyzer` extracts the imports of the workload with a loop of its own and shows them to the
model as text, one line `module::name` for each import. The HTTP client and the JSON of the model's
answer are not part of the repository; the structure `OpenAiClient` stands for them.
-/

namespace HalEnforcement

/-- `LlmAnalyzer::analyze`: the capability set for a model identifier and the workload's bytes. -/
abbrev LlmAnalyzer := String → Bytes → Result CapabilitiesConfig

/-- `MockAnalyzer`, which grants everything. -/
def mockAnalyzer : LlmAnalyzer := fun _ _ => .ok CapabilitiesConfig.all

namespace OpenAiAnalyzer

/-- `Message`. -/
structure Message where
  role : String
  content : String
  deriving DecidableEq, Repr

/-- `ChatRequest`, with the `kind` of its `ResponseFormat`. -/
structure ChatRequest where
  model : String
  messages : List Message
  responseFormat : String
  temperature : Rat
  deriving DecidableEq, Repr

/-- An answer of the endpoint: its status as text, the body as text, and what the body parses to,
the contents of the `choices` in order. -/
structure ChatResponse where
  isSuccess : Bool
  status : String
  text : String
  json : Except String (List String)

/-- The third-party parts: the request to the endpoint, and `serde_json` on the model's verdict. -/
structure OpenAiClient where
  send : ChatRequest → Except String ChatResponse
  parseCapabilities : String → Except String CapabilitiesConfig

/-- `SYSTEM_PROMPT`. -/
def systemPrompt : String :=
  "You are a capability analyser for a TEE workload. Given a list of WASM " ++
  "imports, decide which of the following capability buckets the workload " ++
  "actually needs:\n\n" ++
  "  platform, capabilities, crypto, random, clock, storage, sockets, gpu, " ++
  "resources, events, communication\n\n" ++
  "Reply with a JSON object whose keys are exactly those names and values are " ++
  "booleans. Grant the minimum set sufficient for the imports shown. Do not " ++
  "include any commentary."

/-- `format!("{}::{}", imp.module, imp.name)`. -/
def renderImport (imp : Import) : String := s!"{imp.module}::{imp.name}"

/-- The inner loop of the analyser's `extract_imports`. -/
def extractSection (imports : List String) : List (Except String Import) → Result (List String)
  | [] => .ok imports
  | entry :: rest => do
      let imp ← mapErr entry fun e => .policy s!"bad import: {e}"
      extractSection (imports ++ [renderImport imp]) rest

/-- The outer loop of the analyser's `extract_imports`. -/
def extractPayloads (imports : List String) :
    List (Except String Payload) → Result (List String)
  | [] => .ok imports
  | entry :: rest => do
      let payload ← mapErr entry fun e => .policy s!"invalid WASM: {e}"
      match payload with
      | .importSection entries => do
          let imports ← extractSection imports entries
          extractPayloads imports rest
      | _ => extractPayloads imports rest

/-- The analyser's `extract_imports`. -/
def extractImports [Wasmparser] (wasm : Bytes) : Result (List String) :=
  extractPayloads [] (Wasmparser.parseAll wasm)

/-- The content of the user message. -/
def userContent (imports : List String) : String :=
  if imports.isEmpty then "WASM module declares no imports."
  else
    let lines := "\n".intercalate imports
    s!"WASM imports ({imports.length}):\n{lines}"

/-- The request `analyze` sends. -/
def chatRequest (model : String) (imports : List String) : ChatRequest where
  model
  messages := [⟨"system", systemPrompt⟩, ⟨"user", userContent imports⟩]
  responseFormat := "json_object"
  temperature := 0

end OpenAiAnalyzer

/-- `OpenAiAnalyzer::analyze`. -/
def openAiAnalyzer [Wasmparser] (client : OpenAiAnalyzer.OpenAiClient) : LlmAnalyzer :=
  fun model wasmBytes => do
    let imports ← OpenAiAnalyzer.extractImports wasmBytes
    let resp ← mapErr (client.send (OpenAiAnalyzer.chatRequest model imports)) fun e =>
      .policy s!"OpenAI request failed: {e}"
    if resp.isSuccess then
      let choices ← mapErr resp.json fun e => .policy s!"OpenAI bad JSON: {e}"
      let content ← okOrElse choices.head? (.policy "OpenAI: no choices")
      mapErr (client.parseCapabilities content) fun e =>
        .policy s!"model verdict not a CapabilitiesConfig: {e}; raw: {content}"
    else
      let status := resp.status
      let body := resp.text
      .error (.policy s!"OpenAI returned {status}: {body}")

end HalEnforcement
