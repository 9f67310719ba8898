import Mathlib.Data.List.Basic
import Mathlib.Data.List.Forall2

/-!
# Runs of a deterministic machine

A machine reads one input at a time, answers with an output and moves to a new state. `final` is
the state after a list of inputs and `trace` pairs each input with the output it got. The module
gives the induction rules the proofs about runs use: invariants of the state alone
(`final_invariant`) and of the state together with the trace so far (`trace_induction`), the
comparison of two machines on one list of inputs (`trace_map_of_simulation`,
`trace_forall₂_of_simulation`), the runs whose steps all satisfy a condition (`Along`), and the
deletion of inputs that leave the state as it was (`Erased`, `eq_trace_of_erased`).
-/

namespace Mealy

variable {σ τ ι ο : Type*} (step : σ → ι → ο × σ)

/-- The state after reading the inputs. -/
def final : σ → List ι → σ
  | state, [] => state
  | state, input :: rest => final (step state input).2 rest

/-- Each input with the output it got. -/
def trace : σ → List ι → List (ι × ο)
  | _, [] => []
  | state, input :: rest => (input, (step state input).1) :: trace (step state input).2 rest

/-- Every step of the run satisfies the condition, which sees the state before the step. -/
def Along (condition : σ → ι → Prop) : σ → List ι → Prop
  | _, [] => True
  | state, input :: rest => condition state input ∧ Along condition (step state input).2 rest

/-- The second trace is the first without some of the entries that satisfy a condition. -/
inductive Erased (erasable : ι × ο → Prop) : List (ι × ο) → List (ι × ο) → Prop where
  | nil : Erased erasable [] []
  | keep (entry : ι × ο) {full kept : List (ι × ο)} : Erased erasable full kept →
      Erased erasable (entry :: full) (entry :: kept)
  | erase {entry : ι × ο} {full kept : List (ι × ο)} : erasable entry →
      Erased erasable full kept → Erased erasable (entry :: full) kept

variable {step}

@[simp] theorem final_nil (state : σ) : final step state [] = state := rfl

@[simp] theorem final_cons (state : σ) (input : ι) (rest : List ι) :
    final step state (input :: rest) = final step (step state input).2 rest := rfl

@[simp] theorem trace_nil (state : σ) : trace step state [] = [] := rfl

@[simp] theorem trace_cons (state : σ) (input : ι) (rest : List ι) :
    trace step state (input :: rest) =
      (input, (step state input).1) :: trace step (step state input).2 rest := rfl

theorem trace_append (state : σ) (first second : List ι) :
    trace step state (first ++ second) =
      trace step state first ++ trace step (final step state first) second := by
  induction first generalizing state with
  | nil => rfl
  | cons input rest ih => simp [ih]

theorem final_append (state : σ) (first second : List ι) :
    final step state (first ++ second) = final step (final step state first) second := by
  induction first generalizing state with
  | nil => rfl
  | cons input rest ih => exact ih _

theorem final_concat (state : σ) (inputs : List ι) (last : ι) :
    final step state (inputs ++ [last]) = (step (final step state inputs) last).2 :=
  final_append state inputs [last]

/-- The last input of a run is answered in the state the others lead to. -/
theorem trace_concat (state : σ) (inputs : List ι) (last : ι) :
    trace step state (inputs ++ [last]) =
      trace step state inputs ++ [(last, (step (final step state inputs) last).1)] :=
  trace_append state inputs [last]

/-- The trace lists the inputs it was run on. -/
theorem trace_map_fst (step : σ → ι → ο × σ) (state : σ) (inputs : List ι) :
    (trace step state inputs).map Prod.fst = inputs := by
  induction inputs generalizing state with
  | nil => rfl
  | cons input rest ih => simp [ih]

/-- Reading renamed inputs is a run of the machine that renames them itself. -/
theorem trace_map {κ : Type*} (step : σ → ι → ο × σ) (rename : κ → ι) (state : σ)
    (inputs : List κ) :
    trace step state (inputs.map rename) =
      (trace (fun state input => step state (rename input)) state inputs).map
        (Prod.map rename id) := by
  induction inputs generalizing state with
  | nil => rfl
  | cons input rest ih =>
      rw [List.map_cons, trace_cons, ih]
      rfl

theorem final_map {κ : Type*} (step : σ → ι → ο × σ) (rename : κ → ι) (state : σ)
    (inputs : List κ) :
    final step state (inputs.map rename) =
      final (fun state input => step state (rename input)) state inputs := by
  induction inputs generalizing state with
  | nil => rfl
  | cons input rest ih => exact ih _

/-- What every step answers holds of all entries of a trace. -/
theorem trace_forall {P : ι → ο → Prop} (hstep : ∀ state input, P input (step state input).1)
    (state : σ) (inputs : List ι) : ∀ entry ∈ trace step state inputs, P entry.1 entry.2 := by
  induction inputs generalizing state with
  | nil => simp
  | cons input rest ih =>
      rw [trace_cons, List.forall_mem_cons]
      exact ⟨hstep state input, ih _⟩

/-- A run on selected inputs has only selected inputs in its trace. -/
theorem trace_of_filter (step : σ → ι → ο × σ) (state : σ) (keep : ι → Bool) (inputs : List ι) :
    (trace step state (inputs.filter keep)).filter (fun entry => keep entry.1) =
      trace step state (inputs.filter keep) := by
  rw [List.filter_eq_self]
  intro entry hentry
  have hmem := List.mem_map_of_mem (f := Prod.fst) hentry
  rw [trace_map_fst] at hmem
  exact (List.mem_filter.mp hmem).2

/-- What every step preserves holds at the end. -/
theorem final_invariant {P : σ → Prop} {state : σ} (hinit : P state) (inputs : List ι)
    (hstep : ∀ state, ∀ input ∈ inputs, P state → P (step state input).2) :
    P (final step state inputs) := by
  induction inputs generalizing state with
  | nil => exact hinit
  | cons input rest ih =>
      exact ih (hstep state input List.mem_cons_self hinit)
        (fun state other hother => hstep state other (List.mem_cons_of_mem _ hother))

/-- Induction over a run for a statement about the trace so far and the state it leads to. -/
theorem trace_induction {P : List (ι × ο) → σ → Prop} {state : σ} (hinit : P [] state)
    (inputs : List ι)
    (hstep : ∀ past state, ∀ input ∈ inputs, P past state →
      P (past ++ [(input, (step state input).1)]) (step state input).2) :
    P (trace step state inputs) (final step state inputs) := by
  suffices h : ∀ past state, P past state →
      P (past ++ trace step state inputs) (final step state inputs) from h [] state hinit
  clear hinit
  induction inputs with
  | nil =>
      intro past state hpast
      simpa using hpast
  | cons input rest ih =>
      intro past state hpast
      have h := ih
        (fun past state other hother => hstep past state other (List.mem_cons_of_mem _ hother))
        _ _ (hstep past state input List.mem_cons_self hpast)
      rwa [List.append_assoc] at h

/-- A machine that simulates another up to a map of the outputs has its trace up to this map. -/
theorem trace_map_of_simulation {ω : Type*} {step' : τ → ι → ω × τ} {f : ο → ω}
    {R : σ → τ → Prop} {state : σ} {state' : τ} (hinit : R state state')
    (hstep : ∀ state state' input, R state state' →
      f (step state input).1 = (step' state' input).1 ∧
        R (step state input).2 (step' state' input).2) (inputs : List ι) :
    (trace step state inputs).map (Prod.map id f) = trace step' state' inputs := by
  induction inputs generalizing state state' with
  | nil => rfl
  | cons input rest ih =>
      obtain ⟨houtput, hnext⟩ := hstep state state' input hinit
      rw [trace_cons, List.map_cons, ih hnext, trace_cons, ← houtput]
      rfl

/-- Related states stay related. -/
theorem final_of_simulation {ο' : Type*} {step' : τ → ι → ο' × τ} {R : σ → τ → Prop} {state : σ}
    {state' : τ} (hinit : R state state')
    (hstep : ∀ state state' input, R state state' → R (step state input).2 (step' state' input).2)
    (inputs : List ι) : R (final step state inputs) (final step' state' inputs) := by
  induction inputs generalizing state state' with
  | nil => exact hinit
  | cons input rest ih => exact ih (hstep state state' input hinit)

/-- Two machines whose related states answer related outputs have related traces. -/
theorem trace_forall₂_of_simulation {step' : τ → ι → ο × τ} {R : σ → τ → Prop}
    {Q : ι → ο → ο → Prop} {state : σ} {state' : τ} (hinit : R state state')
    (hstep : ∀ state state' input, R state state' →
      Q input (step state input).1 (step' state' input).1 ∧
        R (step state input).2 (step' state' input).2) (inputs : List ι) :
    List.Forall₂ (fun left right => left.1 = right.1 ∧ Q left.1 left.2 right.2)
      (trace step state inputs) (trace step' state' inputs) := by
  induction inputs generalizing state state' with
  | nil => exact .nil
  | cons input rest ih =>
      obtain ⟨houtput, hnext⟩ := hstep state state' input hinit
      exact .cons ⟨rfl, houtput⟩ (ih hnext)

/-- Inputs whose answer does not depend on the state get it in every run. -/
theorem trace_filter_of_output {keep : ι → Bool} {answer : ι → ο}
    (h : ∀ state input, keep input = true → (step state input).1 = answer input) (state : σ)
    (inputs : List ι) :
    (trace step state inputs).filter (fun entry => keep entry.1) =
      (inputs.filter keep).map fun input => (input, answer input) := by
  induction inputs generalizing state with
  | nil => rfl
  | cons input rest ih =>
      cases hkeep : keep input with
      | false =>
          rw [trace_cons, List.filter_cons_of_neg (by simp [hkeep]),
            List.filter_cons_of_neg (by simp [hkeep]), ih]
      | true =>
          rw [trace_cons, List.filter_cons_of_pos (by simp [hkeep]),
            List.filter_cons_of_pos (by simp [hkeep]), ih, List.map_cons, h state input hkeep]

/-- A run without some of the inputs that leave the state as it was answers the others as before. -/
theorem eq_trace_of_erased {erasable : ι × ο → Prop} {state : σ} {inputs : List ι}
    (hidle : ∀ state, ∀ input ∈ inputs, erasable (input, (step state input).1) →
      (step state input).2 = state)
    {kept : List (ι × ο)} (h : Erased erasable (trace step state inputs) kept) :
    kept = trace step state (kept.map Prod.fst) := by
  induction inputs generalizing state kept with
  | nil =>
      cases h
      rfl
  | cons input rest ih =>
      have hrest : ∀ state, ∀ other ∈ rest, erasable (other, (step state other).1) →
          (step state other).2 = state :=
        fun state other hother => hidle state other (List.mem_cons_of_mem _ hother)
      rw [trace_cons] at h
      cases h with
      | keep _ hkept =>
          rw [List.map_cons, trace_cons, ← ih hrest hkept]
      | erase herasable hkept =>
          rw [hidle state input List.mem_cons_self herasable] at hkept
          exact ih hrest hkept

/-- A condition that no state can violate holds along every run. -/
theorem along_of_forall {condition : σ → ι → Prop} (h : ∀ state input, condition state input)
    (state : σ) (inputs : List ι) : Along step condition state inputs := by
  induction inputs generalizing state with
  | nil => trivial
  | cons input rest ih => exact ⟨h state input, ih _⟩

theorem along_append {condition : σ → ι → Prop} (state : σ) (first second : List ι) :
    Along step condition state (first ++ second) ↔
      Along step condition state first ∧
        Along step condition (final step state first) second := by
  induction first generalizing state with
  | nil => simp [Along]
  | cons input rest ih => simp only [List.cons_append, Along, ih, final_cons, and_assoc]

/-- A property that a step establishes exactly when it held before and the step satisfies the
condition holds at the end exactly when it held at the start and all steps satisfy it. -/
theorem final_iff_along {P : σ → Prop} {condition : σ → ι → Prop}
    (hstep : ∀ state input, P (step state input).2 ↔ P state ∧ condition state input)
    (state : σ) (inputs : List ι) :
    P (final step state inputs) ↔ P state ∧ Along step condition state inputs := by
  induction inputs generalizing state with
  | nil => simp [Along]
  | cons input rest ih => simp only [final_cons, ih, hstep, Along, and_assoc]

end Mealy
