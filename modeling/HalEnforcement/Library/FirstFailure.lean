import Mathlib.Data.List.Basic

/-!
# Loops that return at the first failure

`First good bad items error` says that some item fails with this error and every item before it is
good. A loop with an early return fails in this way: `first_cons` is its unfolding by one round,
`bind_eq_error` says where a sequence of such loops fails, and `for_m_eq_error` is the rule for
`forM`.
-/

namespace FirstFailure

variable {α ε : Type} {good : α → Prop} {bad : α → ε → Prop}

/-- An item is bad with this error, and the items before it are good. -/
def First (good : α → Prop) (bad : α → ε → Prop) (items : List α) (error : ε) : Prop :=
  ∃ before item after, items = before ++ item :: after ∧ (∀ other ∈ before, good other) ∧
    bad item error

theorem not_first_nil (error : ε) : ¬ First good bad [] error := by
  intro h
  obtain ⟨before, item, after, hsplit, _⟩ := h
  simp at hsplit

/-- The first round fails, or passes and a later one fails. -/
theorem first_cons {item : α} {rest : List α} {error : ε} :
    First good bad (item :: rest) error ↔
      bad item error ∨ good item ∧ First good bad rest error := by
  constructor
  · intro h
    obtain ⟨before, found, after, hsplit, hbefore, hbad⟩ := h
    cases before with
    | nil =>
        obtain ⟨rfl, _⟩ := List.cons.inj hsplit
        exact .inl hbad
    | cons first before =>
        obtain ⟨rfl, hrest⟩ := List.cons.inj hsplit
        obtain ⟨hgood, hbefore⟩ := List.forall_mem_cons.mp hbefore
        exact .inr ⟨hgood, before, found, after, hrest, hbefore, hbad⟩
  · intro h
    rcases h with hbad | ⟨hgood, before, found, after, rfl, hbefore, hbad⟩
    · exact ⟨[], item, rest, rfl, by simp, hbad⟩
    · exact ⟨item :: before, found, after, rfl, List.forall_mem_cons.mpr ⟨hgood, hbefore⟩, hbad⟩

/-- A sequential composition fails in its first part or after it. -/
theorem bind_eq_error {β γ : Type} {first : Except ε β} {next : β → Except ε γ} {error : ε} :
    (first >>= next) = .error error ↔
      first = .error error ∨ ∃ middle, first = .ok middle ∧ next middle = .error error := by
  cases first with
  | error other => simp [bind, Except.bind]
  | ok middle => simp [bind, Except.bind]

/-- `bind_eq_error` after a check, which has no result to pass on. -/
theorem then_eq_error {β : Type} {check : Except ε Unit} {next : Unit → Except ε β} {error : ε} :
    (check >>= next) = .error error ↔
      check = .error error ∨ check = .ok () ∧ next () = .error error := by
  rw [bind_eq_error]
  exact or_congr_right ⟨fun ⟨_, h⟩ => h, fun h => ⟨(), h⟩⟩

/-- `forM` fails with the error of the first item whose body fails. -/
theorem for_m_eq_error {body : α → Except ε Unit} {items : List α} {error : ε} :
    items.forM body = .error error ↔
      First (fun item => body item = .ok ()) (fun item error => body item = .error error) items
        error := by
  induction items with
  | nil => simp [not_first_nil, pure, Except.pure]
  | cons item rest ih =>
      show (body item >>= fun _ => rest.forM body) = .error error ↔ _
      rw [then_eq_error, first_cons, ih]

end FirstFailure
