import Mathlib.Data.List.Basic

/-!
# Errors of the enforcement service

The error type of `src/error.rs` and the result type every fallible operation of the service
returns. An `std::io`, YAML or JSON error is kept as its rendered text.
-/

namespace HalEnforcement

/-- `EnforcementError`, with one constructor for each variant. -/
inductive EnforcementError where
  | policy (message : String)
  | entityNotFound (entity : String)
  | capabilityDenied (entity capability : String)
  | rateLimitExceeded (entity message : String)
  | quotaExceeded (entity message : String)
  | session (message : String)
  | config (message : String)
  | hal (message : String)
  | io (message : String)
  | yaml (message : String)
  | json (message : String)
  deriving DecidableEq, Repr

/-- The rendering derived by `#[error(..)]`. -/
def EnforcementError.display : EnforcementError → String
  | .policy message => s!"Policy error: {message}"
  | .entityNotFound entity => s!"Entity not found: {entity}"
  | .capabilityDenied entity capability =>
      s!"Capability denied: {entity} cannot access {capability}"
  | .rateLimitExceeded entity message => s!"Rate limit exceeded for {entity}: {message}"
  | .quotaExceeded entity message => s!"Quota exceeded for {entity}: {message}"
  | .session message => s!"Session error: {message}"
  | .config message => s!"Configuration error: {message}"
  | .hal message => s!"HAL error: {message}"
  | .io message => s!"IO error: {message}"
  | .yaml message => s!"YAML error: {message}"
  | .json message => s!"JSON error: {message}"

/-- `error::Result<T>`. -/
abbrev Result (α : Type) := Except EnforcementError α

/-- `Option::ok_or_else`. -/
def okOrElse {α : Type} (option : Option α) (error : EnforcementError) : Result α :=
  match option with
  | some value => .ok value
  | none => .error error

@[simp] theorem ok_or_else_some {α : Type} (value : α) (error : EnforcementError) :
    okOrElse (some value) error = .ok value := rfl

@[simp] theorem ok_or_else_none {α : Type} (error : EnforcementError) :
    okOrElse (none : Option α) error = .error error := rfl

/-- `if condition { return Err(error); }`. -/
def failIf (condition : Prop) [Decidable condition] (error : EnforcementError) : Result Unit :=
  if condition then .error error else .ok ()

@[simp] theorem fail_if_eq_ok {condition : Prop} [Decidable condition]
    {error : EnforcementError} : failIf condition error = .ok () ↔ ¬ condition := by
  by_cases h : condition <;> simp [failIf, h]

theorem fail_if_eq_error {condition : Prop} [Decidable condition]
    {error other : EnforcementError} :
    failIf condition error = .error other ↔ condition ∧ other = error := by
  by_cases h : condition <;> simp [failIf, h, eq_comm]

/-- `Result::map_err` into an `EnforcementError`, from an error kept as its rendered text. -/
def mapErr {α : Type} (result : Except String α) (wrap : String → EnforcementError) : Result α :=
  match result with
  | .ok value => .ok value
  | .error message => .error (wrap message)

theorem map_err_eq_ok {α : Type} {result : Except String α} {wrap : String → EnforcementError}
    {value : α} : mapErr result wrap = .ok value ↔ result = .ok value := by
  cases result <;> simp [mapErr]

theorem map_err_eq_error {α : Type} {result : Except String α} {wrap : String → EnforcementError}
    {error : EnforcementError} :
    mapErr result wrap = .error error ↔
      ∃ message, result = .error message ∧ error = wrap message := by
  cases result <;> simp [mapErr, eq_comm]

/-- A check without a result is decided by `is_ok`. -/
theorem is_ok_iff {check : Result Unit} : check.isOk = true ↔ check = .ok () := by
  cases check with
  | ok _ => exact ⟨fun _ => rfl, fun _ => rfl⟩
  | error _ => exact ⟨nofun, nofun⟩

/-- A sequential composition succeeds when both parts do. -/
theorem bind_eq_ok {α β : Type} {first : Result α} {next : α → Result β} {value : β} :
    (first >>= next) = .ok value ↔ ∃ middle, first = .ok middle ∧ next middle = .ok value := by
  cases first with
  | error error =>
      constructor
      · intro h
        cases h
      · intro hsplit
        obtain ⟨_, h, _⟩ := hsplit
        cases h
  | ok middle =>
      constructor
      · intro h
        exact ⟨middle, rfl, h⟩
      · intro hsplit
        obtain ⟨_, h, hnext⟩ := hsplit
        cases h
        exact hnext

/-- `bind_eq_ok` after a check, which has no result to pass on. -/
theorem then_eq_ok {β : Type} {check : Result Unit} {next : Unit → Result β} {value : β} :
    (check >>= next) = .ok value ↔ check = .ok () ∧ next () = .ok value := by
  simp only [bind_eq_ok]
  exact ⟨fun ⟨_, h, hnext⟩ => ⟨h, hnext⟩, fun ⟨h, hnext⟩ => ⟨(), h, hnext⟩⟩

/-- A `for` loop that returns the first error succeeds when every round does. -/
theorem for_m_eq_ok {α : Type} {items : List α} {body : α → Result Unit} :
    items.forM body = .ok () ↔ ∀ item ∈ items, body item = .ok () := by
  induction items with
  | nil => simp [pure, Except.pure]
  | cons item rest ih =>
      show (body item >>= fun _ => rest.forM body) = .ok () ↔ _
      simp only [then_eq_ok, ih, List.mem_cons, forall_eq_or_imp]

end HalEnforcement
