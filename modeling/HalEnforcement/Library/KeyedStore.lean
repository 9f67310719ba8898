import HalEnforcement.Library.Mealy
import Mathlib.Data.Finmap

/-!
# Machines over a keyed store

A `Keyed` machine keeps one cell for each key. An input either addresses one cell, which it reads
and replaces, or none. `trace_filter_key` says that the inputs of one key get the answers they
would get from a machine that has this cell alone, whatever happens under the other keys.
-/

/-- A machine over a map from keys to cells. `key` is the cell an input addresses, `act` what it
does to the cell (`none` while the key is absent), and `miss` the answer to an input that addresses
no cell. -/
structure Keyed (κ ν ι ο : Type*) where
  key : ι → Option κ
  act : Option ν → ι → ο × ν
  miss : ι → ο

namespace Keyed

variable {κ ν ι ο : Type*} [DecidableEq κ] (machine : Keyed κ ν ι ο)

/-- One step on the whole store. -/
def step (store : Finmap fun _ : κ => ν) (input : ι) : ο × Finmap fun _ : κ => ν :=
  match machine.key input with
  | none => (machine.miss input, store)
  | some key =>
      let acted := machine.act (store.lookup key) input
      (acted.1, store.insert key acted.2)

omit [DecidableEq κ] in
/-- One step of a single cell. -/
def cellStep (cell : Option ν) (input : ι) : ο × Option ν :=
  let acted := machine.act cell input
  (acted.1, some acted.2)

variable {machine}

theorem step_hit {store : Finmap fun _ : κ => ν} {input : ι} {key : κ}
    (h : machine.key input = some key) :
    machine.step store input =
      ((machine.act (store.lookup key) input).1,
        store.insert key (machine.act (store.lookup key) input).2) := by
  simp [step, h]

theorem step_miss {store : Finmap fun _ : κ => ν} {input : ι} (h : machine.key input = none) :
    machine.step store input = (machine.miss input, store) := by
  simp [step, h]

/-- A step leaves the other cells alone. -/
theorem lookup_step_of_ne {store : Finmap fun _ : κ => ν} {input : ι} {key : κ}
    (h : machine.key input ≠ some key) :
    (machine.step store input).2.lookup key = store.lookup key := by
  cases hkey : machine.key input with
  | none => rw [step_miss hkey]
  | some other =>
      have hne : key ≠ other := by
        rintro rfl
        exact h hkey
      rw [step_hit hkey]
      exact Finmap.lookup_insert_of_ne store hne

/-- A step on a cell is the step of the cell alone. -/
theorem step_eq_cell_step (store : Finmap fun _ : κ => ν) {input : ι} {key : κ}
    (h : machine.key input = some key) :
    (machine.step store input).1 = (machine.cellStep (store.lookup key) input).1 ∧
      (machine.step store input).2.lookup key =
        (machine.cellStep (store.lookup key) input).2 := by
  rw [step_hit h]
  exact ⟨rfl, Finmap.lookup_insert store⟩

/-- The inputs that address `key`. -/
def addresses (machine : Keyed κ ν ι ο) (key : κ) (input : ι) : Bool :=
  decide (machine.key input = some key)

/-- The run of a store, seen by the inputs of one key, is the run of that cell. -/
theorem trace_filter_key (machine : Keyed κ ν ι ο) (store : Finmap fun _ : κ => ν) (key : κ)
    (inputs : List ι) :
    (Mealy.trace machine.step store inputs).filter (fun entry => machine.addresses key entry.1) =
      Mealy.trace machine.cellStep (store.lookup key) (inputs.filter (machine.addresses key)) := by
  induction inputs generalizing store with
  | nil => rfl
  | cons input rest ih =>
      by_cases h : machine.key input = some key
      · obtain ⟨houtput, hcell⟩ := step_eq_cell_step store h
        rw [Mealy.trace_cons, List.filter_cons_of_pos (by simp [addresses, h]),
          List.filter_cons_of_pos (by simp [addresses, h]), Mealy.trace_cons, houtput, ih, hcell]
      · rw [Mealy.trace_cons, List.filter_cons_of_neg (by simp [addresses, h]),
          List.filter_cons_of_neg (by simp [addresses, h]), ih, lookup_step_of_ne h]

/-- After a run, the cell of a key is what the inputs of this key made of it. -/
theorem lookup_final (machine : Keyed κ ν ι ο) (store : Finmap fun _ : κ => ν) (key : κ)
    (inputs : List ι) :
    (Mealy.final machine.step store inputs).lookup key =
      Mealy.final machine.cellStep (store.lookup key)
        (inputs.filter (machine.addresses key)) := by
  induction inputs generalizing store with
  | nil => rfl
  | cons input rest ih =>
      by_cases h : machine.key input = some key
      · rw [Mealy.final_cons, ih, List.filter_cons_of_pos (by simp [addresses, h]),
          Mealy.final_cons, (step_eq_cell_step store h).2]
      · rw [Mealy.final_cons, ih, List.filter_cons_of_neg (by simp [addresses, h]),
          lookup_step_of_ne h]

/-- A run leaves a cell under each key that one of its inputs addresses, and under no other. -/
theorem lookup_final_eq_none_iff (machine : Keyed κ ν ι ο) (key : κ) (inputs : List ι) :
    (Mealy.final machine.step ∅ inputs).lookup key = none ↔
      ∀ input ∈ inputs, machine.addresses key input = false := by
  have hcell : ∀ (cell : Option ν) (inputs : List ι),
      Mealy.final machine.cellStep cell inputs = none ↔ inputs = [] ∧ cell = none := by
    intro cell inputs
    induction inputs generalizing cell with
    | nil => simp
    | cons input rest ih => simp [ih, cellStep]
  rw [lookup_final, hcell, List.filter_eq_nil_iff]
  simp

end Keyed
