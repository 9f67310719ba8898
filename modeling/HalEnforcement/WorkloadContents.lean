import HalEnforcement.Interleaving
import HalEnforcement.Operations
import HalEnforcement.PromptText

/-!
# What the service reads of a workload

With `OpenAiAnalyzer` the bytes of a workload leave the service as the text of its imports, and
admission looks at the imports alone. `only_imports_matter` exchanges the workloads of an
interleaved run for others with the same extracted imports, say with other code or other data:
every reply and the contents of the locks stay the same.
-/

namespace HalEnforcement

/-- The event with its workload exchanged. -/
def Event.exchange (replace : Bytes → Bytes) : Event → Event
  | .createCall task entityId wasmBytes => .createCall task entityId (wasmBytes.map replace)
  | event => event

/-- The task with its workload exchanged. -/
def Task.exchange (replace : Bytes → Bytes) : Task → Task
  | .resolve entityId wasmBytes => .resolve entityId (wasmBytes.map replace)
  | pending => pending

/-- The two worlds differ in the workloads of the calls in flight. -/
structure Exchanged (replace : Bytes → Bytes) (left right : World) : Prop where
  state : right.state = left.state
  tasks : ∀ task, right.tasks.lookup task = (left.tasks.lookup task).map (Task.exchange replace)

section Exchange

variable {replace : Bytes → Bytes} {left right : World}

theorem Exchanged.setTask (h : Exchanged replace left right) (task : Nat) (pending : Task) :
    Exchanged replace (left.setTask task pending)
      (right.setTask task (pending.exchange replace)) where
  state := h.state
  tasks other := by
    by_cases hother : other = task
    · subst hother
      simp [World.setTask]
    · simp [World.setTask, Finmap.lookup_insert_of_ne _ hother, h.tasks other]

theorem Exchanged.endTask (h : Exchanged replace left right) (task : Nat)
    (state : ServiceState) :
    Exchanged replace { left.endTask task with state } { right.endTask task with state } where
  state := rfl
  tasks other := by
    by_cases hother : other = task
    · subst hother
      simp [World.endTask]
    · simp [World.endTask, Finmap.lookup_erase_ne hother, h.tasks other]

theorem Exchanged.start (h : Exchanged replace left right) (task : Nat) (pending : Task) :
    (left.start task pending).1 = (right.start task (pending.exchange replace)).1 ∧
      Exchanged replace (left.start task pending).2
        (right.start task (pending.exchange replace)).2 := by
  unfold World.start
  rw [h.tasks]
  cases left.tasks.lookup task with
  | none => exact ⟨rfl, h.setTask task pending⟩
  | some _ => exact ⟨rfl, h⟩

variable [Wasmparser]

/-- A workload is authorised for what its imports say. -/
theorem authorize_exchange {service : EnforcementService}
    (hanalyzer : ∀ model bytes,
      service.analyzer model (replace bytes) = service.analyzer model bytes)
    (himports : ∀ bytes, extractImports (replace bytes) = extractImports bytes)
    (entityId : String) (wasmBytes : Option Bytes) :
    service.authorize entityId (wasmBytes.map replace) = service.authorize entityId wasmBytes := by
  cases wasmBytes with
  | none => rfl
  | some bytes =>
      have hcheck : ∀ caps, checkWorkload (replace bytes) caps = checkWorkload bytes caps := by
        intro caps
        rw [checkWorkload, checkWorkload, himports]
      have hresolve : service.resolveCapabilities entityId (some (replace bytes)) =
          service.resolveCapabilities entityId (some bytes) := by
        unfold EnforcementService.resolveCapabilities
        cases service.policy.findEntity entityId with
        | none => rfl
        | some entity => simp only [ok_or_else_some, bind, Except.bind, hanalyzer]
      simp only [EnforcementService.authorize, Option.map_some, hresolve, hcheck]

/-- One event on the exchanged workload. -/
theorem exchange_step {service : EnforcementService}
    (hauthorize : ∀ entityId wasmBytes,
      service.authorize entityId (wasmBytes.map replace) = service.authorize entityId wasmBytes)
    (h : Exchanged replace left right) (event : Event) :
    (service.step left event).1 = (service.step right (event.exchange replace)).1 ∧
      Exchanged replace (service.step left event).2
        (service.step right (event.exchange replace)).2 := by
  cases event with
  | createCall task entityId wasmBytes => exact h.start task (.resolve entityId wasmBytes)
  | createResume task freshId now =>
      simp only [EnforcementService.step, Event.exchange, h.tasks]
      cases left.tasks.lookup task with
      | none => exact ⟨rfl, h⟩
      | some pending =>
          cases pending with
          | resolve entityId wasmBytes =>
              simp only [Option.map_some, Task.exchange, hauthorize]
              cases service.authorize entityId wasmBytes with
              | error error =>
                  exact ⟨rfl, h.state, (h.endTask task left.state).tasks⟩
              | ok resolved => exact ⟨rfl, h.setTask task _⟩
          | insert session => exact ⟨rfl, h⟩
          | push event => exact ⟨rfl, h⟩
  | createInsert task =>
      simp only [EnforcementService.step, Event.exchange, h.tasks, h.state]
      cases left.tasks.lookup task with
      | none => exact ⟨rfl, h⟩
      | some pending =>
          cases pending with
          | resolve | push => exact ⟨rfl, h⟩
          | insert session => exact ⟨rfl, h.endTask task _⟩
  | getSession sessionId now =>
      simp only [EnforcementService.step, Event.exchange, h.state]
      exact ⟨trivial, h⟩
  | checkRateLimit entityId interface now =>
      simp only [EnforcementService.step, Event.exchange, h.state]
      exact ⟨trivial, rfl, h.tasks⟩
  | auditCall task entityId sessionId interface operation success error now =>
      exact h.start task (.push _)
  | auditPush task =>
      simp only [EnforcementService.step, Event.exchange, h.tasks, h.state]
      cases left.tasks.lookup task with
      | none => exact ⟨rfl, h⟩
      | some pending =>
          cases pending with
          | resolve | insert => exact ⟨rfl, h⟩
          | push event => exact ⟨rfl, h.endTask task _⟩
  | getAuditLog entityId limit =>
      simp only [EnforcementService.step, Event.exchange, h.state]
      exact ⟨trivial, h⟩
  | activeSessionsCount now =>
      simp only [EnforcementService.step, Event.exchange, h.state]
      exact ⟨trivial, h⟩

/-- The analyser's verdict depends on the imports alone. -/
theorem analyze_exchange (client : OpenAiAnalyzer.OpenAiClient)
    (himports : ∀ bytes, extractImports (replace bytes) = extractImports bytes)
    (model : String) (bytes : Bytes) :
    openAiAnalyzer client model (replace bytes) = openAiAnalyzer client model bytes := by
  refine analyze_eq_of_user_message client model ?_
  rw [userMessage, userMessage, analyzer_extract_imports, analyzer_extract_imports, himports]

/-- Workloads with the same extracted imports can be exchanged in an interleaved run: all replies
and the contents of the locks stay the same. -/
theorem only_imports_matter (service : EnforcementService)
    (client : OpenAiAnalyzer.OpenAiClient) (hservice : service.analyzer = openAiAnalyzer client)
    (replace : Bytes → Bytes)
    (himports : ∀ bytes, extractImports (replace bytes) = extractImports bytes)
    (events : List Event) :
    (Mealy.trace service.step .empty (events.map (Event.exchange replace))).map Prod.snd =
        (Mealy.trace service.step .empty events).map Prod.snd ∧
      (Mealy.final service.step .empty (events.map (Event.exchange replace))).state =
        (Mealy.final service.step .empty events).state := by
  have hauthorize : ∀ entityId wasmBytes,
      service.authorize entityId (wasmBytes.map replace) =
        service.authorize entityId wasmBytes := by
    refine authorize_exchange (fun model bytes => ?_) himports
    rw [hservice, analyze_exchange client himports]
  have hinit : Exchanged replace .empty .empty := ⟨rfl, fun task => by simp [World.empty]⟩
  have htrace := Mealy.trace_map_of_simulation (f := id)
    (R := fun left right => Exchanged replace left right) hinit
    (fun _ _ event h => exchange_step hauthorize h event) events
  have hfinal := Mealy.final_of_simulation
    (R := fun left right => Exchanged replace left right) hinit
    (fun _ _ event h => (exchange_step hauthorize h event).2) events
  rw [Mealy.trace_map, Mealy.final_map, List.map_map, ← htrace, List.map_map]
  exact ⟨rfl, hfinal.state⟩

end Exchange

/-- A custom section without contents. -/
def customSection : Bytes := [0x00, 0x05, 0x04] ++ "name".toUTF8.data.toList

/-- The parser that also knows the crypto module with a custom section at its end. -/
@[reducible] def sectionParser : Wasmparser where
  parseAll wasm :=
    if wasm = cryptoModule ++ customSection then
      [.ok (.other "Version"), .ok (.other "TypeSection"),
        .ok (.importSection [.ok ⟨"elastic:hal/crypto", "hash"⟩]), .ok (.other "CustomSection"),
        .ok (.other "End")]
    else sampleParser.parseAll wasm

/-- A client whose model grants `crypto`. -/
def cryptoClient : OpenAiAnalyzer.OpenAiClient where
  send _ := .ok ⟨true, "200 OK", "", .ok ["\x7b\"crypto\": true\x7d"]⟩
  parseCapabilities _ := .ok { crypto := true }

/-- The crypto module with the section gets what the module without it gets. -/
theorem custom_section_does_not_matter :
    let service := mixedService.withAnalyzer (@openAiAnalyzer sectionParser cryptoClient)
    let replace := fun wasm => if wasm = cryptoModule then cryptoModule ++ customSection else wasm
    let events : List Event :=
      [.createCall 0 "agent" (some cryptoModule), .createResume 0 ⟨7⟩ 5, .createInsert 0]
    (Mealy.trace (@EnforcementService.step sectionParser service) .empty
        (events.map (Event.exchange replace))).map Prod.snd =
      (Mealy.trace (@EnforcementService.step sectionParser service) .empty events).map Prod.snd := by
  refine (@only_imports_matter sectionParser _ cryptoClient rfl _ (fun bytes => ?_) _).1
  by_cases h : bytes = cryptoModule
  · subst h
    decide
  · rw [if_neg h]

end HalEnforcement
