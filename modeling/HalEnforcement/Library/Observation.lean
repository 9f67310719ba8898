import HalEnforcement.Library.Mealy
import Mathlib.Algebra.Order.Group.Multiset

/-!
# Observed histories

An observer reads the entries of a run one by one, with a memory of its own, and reports a call
with its outcome each time it has seen one complete. If all the work of a call is done at the step
at which it is reported (`Commits`), the reports are a run of a machine that performs each call in
one step, from the view of the first state to the view of the last (`history_run`). With the whole
state as the view this is linearizability, the reporting step being the linearization point; with
a part of the state it says that the part is a machine of its own (`filterMap_run`).
`balance_run` is the rule for what begins at one step and is reported at another, and `purge_run`
the one for inputs that some others do not interfere with; `perm_of_filters` compares two runs that
agree on each task of its own.
-/

namespace Observation

variable {σ τ γ ι ο κ ω : Type*}

/-- What an observer reports of a trace, in order. -/
def history (observe : γ → ι × ο → Option (κ × ω) × γ) (memory : γ) (trace : List (ι × ο)) :
    List (κ × ω) :=
  (Mealy.trace observe memory trace).filterMap Prod.snd

/-- A report that is the whole of what happens between two states of the atomic machine. -/
inductive Commits (atomic : τ → κ → ω × τ) : Option (κ × ω) → τ → τ → Prop where
  | silent (state : τ) : Commits atomic none state state
  | call {state next : τ} {call : κ} {outcome : ω} : atomic state call = (outcome, next) →
      Commits atomic (some (call, outcome)) state next

theorem history_cons (observe : γ → ι × ο → Option (κ × ω) × γ) (memory : γ) (entry : ι × ο)
    (rest : List (ι × ο)) :
    history observe memory (entry :: rest) =
      (observe memory entry).1.toList ++ history observe (observe memory entry).2 rest := by
  unfold history
  rw [Mealy.trace_cons]
  cases h : (observe memory entry).1 <;> simp

theorem history_append (observe : γ → ι × ο → Option (κ × ω) × γ) (memory : γ)
    (first second : List (ι × ο)) :
    history observe memory (first ++ second) =
      history observe memory first ++
        history observe (Mealy.final observe memory first) second := by
  unfold history
  rw [Mealy.trace_append, List.filterMap_append]

section Commits

variable {step : σ → ι → ο × σ} {atomic : τ → κ → ω × τ}
  {observe : γ → ι × ο → Option (κ × ω) × γ} {R : σ → γ → Prop}

/-- The memory stays related to the state, and the reports are a run of the atomic machine, from
the view of the first state to the view of the last. -/
theorem history_run (view : σ → τ) (observe : γ → ι × ο → Option (κ × ω) × γ) {state : σ}
    {memory : γ} (hinit : R state memory) (inputs : List ι)
    (hstep : ∀ state memory, ∀ input ∈ inputs, R state memory →
      Commits atomic (observe memory (input, (step state input).1)).1 (view state)
          (view (step state input).2) ∧
        R (step state input).2 (observe memory (input, (step state input).1)).2) :
    let reports := history observe memory (Mealy.trace step state inputs)
    reports = Mealy.trace atomic (view state) (reports.map Prod.fst) ∧
      view (Mealy.final step state inputs) =
        Mealy.final atomic (view state) (reports.map Prod.fst) ∧
      R (Mealy.final step state inputs)
        (Mealy.final observe memory (Mealy.trace step state inputs)) := by
  induction inputs generalizing state memory with
  | nil => exact ⟨rfl, rfl, hinit⟩
  | cons input rest ih =>
      obtain ⟨hcommits, hnext⟩ := hstep state memory input List.mem_cons_self hinit
      obtain ⟨htrace, hfinal, hlast⟩ := ih hnext
        fun state memory other hother => hstep state memory other (List.mem_cons_of_mem _ hother)
      simp only [Mealy.trace_cons, Mealy.final_cons, history_cons]
      generalize (observe memory (input, (step state input).1)).1 = report at hcommits
      generalize view (step state input).2 = next at hcommits htrace hfinal
      cases hcommits with
      | silent => exact ⟨htrace, hfinal, hlast⟩
      | call hatomic =>
          simp only [Option.toList_some, List.singleton_append, List.map_cons, Mealy.trace_cons,
            Mealy.final_cons, hatomic]
          exact ⟨congrArg _ htrace, hfinal, hlast⟩

/-- What a run begins is, in the end, reported or still held: nothing is lost and nothing is
reported twice, if every step keeps this balance. -/
theorem balance_run {β : Type*} (began : ι × ο → Option β) (ended : κ × ω → Option β)
    (held : γ → Multiset β) {state : σ} {memory : γ} (hinit : R state memory) (inputs : List ι)
    (hstep : ∀ state memory, ∀ input ∈ inputs, R state memory →
      (held memory + (began (input, (step state input).1)).toList =
          ((observe memory (input, (step state input).1)).1.bind ended).toList +
            held (observe memory (input, (step state input).1)).2) ∧
        R (step state input).2 (observe memory (input, (step state input).1)).2) :
    held memory + ((Mealy.trace step state inputs).filterMap began : List β) =
      ((history observe memory (Mealy.trace step state inputs)).filterMap ended : List β) +
        held (Mealy.final observe memory (Mealy.trace step state inputs)) := by
  induction inputs generalizing state memory with
  | nil => simp [history]
  | cons input rest ih =>
      obtain ⟨hbalance, hnext⟩ := hstep state memory input List.mem_cons_self hinit
      have hrest := ih hnext
        fun state memory other hother => hstep state memory other (List.mem_cons_of_mem _ hother)
      have hbegan : (Mealy.trace step state (input :: rest)).filterMap began =
          (began (input, (step state input).1)).toList ++
            (Mealy.trace step (step state input).2 rest).filterMap began := by
        rw [Mealy.trace_cons, List.filterMap_cons]
        cases began (input, (step state input).1) <;> rfl
      have hended : ∀ report : Option (κ × ω),
          report.toList.filterMap ended = (report.bind ended).toList := by
        intro report
        cases report with
        | none => rfl
        | some entry => cases h : ended entry <;> simp [h]
      rw [hbegan, ← Multiset.coe_add, ← add_assoc, hbalance, add_assoc, hrest, Mealy.trace_cons,
        history_cons, List.filterMap_append, hended, ← Multiset.coe_add, add_assoc,
        Mealy.final_cons]

end Commits

/-! ## Observers without a memory -/

section Select

variable {step : σ → ι → ο × σ} {atomic : τ → κ → ω × τ} {select : ι × ο → Option (κ × ω)}

theorem history_of_select (trace : List (ι × ο)) :
    history (fun (_ : Unit) entry => (select entry, ())) () trace = trace.filterMap select := by
  induction trace with
  | nil => rfl
  | cons entry rest ih =>
      rw [history_cons, ih, List.filterMap_cons]
      cases select entry <;> rfl

/-- The entries of a run that concern a part of the state are a run of that part. -/
theorem filterMap_run (view : σ → τ) (state : σ) (inputs : List ι)
    (hstep : ∀ state, ∀ input ∈ inputs, Commits atomic (select (input, (step state input).1))
      (view state) (view (step state input).2)) :
    let reports := (Mealy.trace step state inputs).filterMap select
    reports = Mealy.trace atomic (view state) (reports.map Prod.fst) ∧
      view (Mealy.final step state inputs) =
        Mealy.final atomic (view state) (reports.map Prod.fst) := by
  have h := @history_run σ τ Unit ι ο κ ω step atomic (fun _ _ => True) view
    (fun _ entry => (select entry, ())) state () trivial inputs
    fun state _ input hinput _ => ⟨hstep state input hinput, trivial⟩
  simp only [history_of_select] at h
  exact ⟨h.1, h.2.1⟩

/-- Two machines run on all inputs and on the kept ones. If a kept input gets the same output from
related states, and a dropped one changes nothing that the relation sees, the kept inputs get the
answers of the run of their own. -/
theorem purge_run {ι ο : Type*} {step : σ → ι → ο × σ} {alone : τ → ι → ο × τ}
    {R : σ → τ → Prop} {inputs : List ι} {keep : ι → Bool} {state : σ} {other : τ}
    (hinit : R state other)
    (hkeep : ∀ state other, ∀ input ∈ inputs, R state other → keep input = true →
      (step state input).1 = (alone other input).1 ∧ R (step state input).2 (alone other input).2)
    (hdrop : ∀ state other, ∀ input ∈ inputs, R state other → keep input = false →
      R (step state input).2 other) :
    (Mealy.trace step state inputs).filter (fun entry => keep entry.1) =
      Mealy.trace alone other (inputs.filter keep) := by
  induction inputs generalizing state other with
  | nil => rfl
  | cons input rest ih =>
      have hrest := fun {state other} (h : R state other) => ih h
        (fun state other next hnext => hkeep state other next (List.mem_cons_of_mem _ hnext))
        (fun state other next hnext => hdrop state other next (List.mem_cons_of_mem _ hnext))
      cases hmine : keep input with
      | true =>
          obtain ⟨houtput, hnext⟩ := hkeep state other input List.mem_cons_self hinit hmine
          rw [Mealy.trace_cons, List.filter_cons_of_pos (by simp [hmine]),
            List.filter_cons_of_pos (by simp [hmine]), Mealy.trace_cons, houtput, hrest hnext]
      | false =>
          have hnext := hdrop state other input List.mem_cons_self hinit hmine
          rw [Mealy.trace_cons, List.filter_cons_of_neg (by simp [hmine]),
            List.filter_cons_of_neg (by simp [hmine]), hrest hnext]

/-- The states the two runs of `purge_run` end in are related. -/
theorem purge_final {ι ο : Type*} {step : σ → ι → ο × σ} {alone : τ → ι → ο × τ}
    {R : σ → τ → Prop} {inputs : List ι} {keep : ι → Bool} {state : σ} {other : τ}
    (hinit : R state other)
    (hkeep : ∀ state other, ∀ input ∈ inputs, R state other → keep input = true →
      R (step state input).2 (alone other input).2)
    (hdrop : ∀ state other, ∀ input ∈ inputs, R state other → keep input = false →
      R (step state input).2 other) :
    R (Mealy.final step state inputs) (Mealy.final alone other (inputs.filter keep)) := by
  induction inputs generalizing state other with
  | nil => exact hinit
  | cons input rest ih =>
      have hrest := fun {state other} (h : R state other) => ih h
        (fun state other next hnext => hkeep state other next (List.mem_cons_of_mem _ hnext))
        (fun state other next hnext => hdrop state other next (List.mem_cons_of_mem _ hnext))
      cases hmine : keep input with
      | true =>
          rw [List.filter_cons_of_pos (by simp [hmine])]
          exact hrest (hkeep state other input List.mem_cons_self hinit hmine)
      | false =>
          rw [List.filter_cons_of_neg (by simp [hmine])]
          exact hrest (hdrop state other input List.mem_cons_self hinit hmine)

/-- Two lists that agree on the elements of each key list the same elements under keys, in some
order. -/
theorem perm_of_filters {α β : Type*} [DecidableEq α] [DecidableEq κ] (key : α → Option κ)
    {select : α → Option β} {left right : List α}
    (h : ∀ k, left.filter (fun item => decide (key item = some k)) =
      right.filter fun item => decide (key item = some k))
    (hleft : ∀ item ∈ left, key item = none → select item = none)
    (hright : ∀ item ∈ right, key item = none → select item = none) :
    (left.filterMap select).Perm (right.filterMap select) := by
  have hkeyed : ∀ items : List α, (∀ item ∈ items, key item = none → select item = none) →
      (items.filter fun item => (key item).isSome).filterMap select = items.filterMap select := by
    intro items hnone
    rw [List.filterMap_filter]
    refine List.filterMap_congr fun item hitem => ?_
    cases hkey : key item with
    | none => simp [hnone item hitem hkey]
    | some k => simp
  have hperm : (left.filter fun item => (key item).isSome).Perm
      (right.filter fun item => (key item).isSome) := by
    rw [List.perm_iff_count]
    intro item
    cases hkey : key item with
    | none =>
        rw [List.count_eq_zero_of_not_mem (by simp [hkey]),
          List.count_eq_zero_of_not_mem (by simp [hkey])]
    | some k =>
        rw [List.count_filter (by simp [hkey]), List.count_filter (by simp [hkey])]
        have hcount := congrArg (List.count item) (h k)
        rwa [List.count_filter (by simp [hkey]), List.count_filter (by simp [hkey])] at hcount
  rw [← hkeyed left hleft, ← hkeyed right hright]
  exact hperm.filterMap select

end Select

end Observation
