import HalEnforcement.Library.FixedWindow

/-!
# What a fixed-window counter admits

The declarative reading of `FixedWindow.step` on requests with one limit and readings that never
step back. `windows` partitions the requests greedily, and `trace_eq_windows` says that the counter
admits exactly the first requests of every window, up to the limit.
-/

namespace FixedWindow

variable {ι : Type*} (period : Int) {limit : ι → Nat} (now : ι → Int)

/-- The requests that read less than a period after an opening. -/
def taken (opened : Int) (requests : List ι) : List ι :=
  requests.filter fun request => decide (now request < opened + period)

/-- The requests that are left for other windows. -/
def remaining (opened : Int) (requests : List ι) : List ι :=
  requests.filter fun request => !decide (now request < opened + period)

/-- The first request opens a window, which takes all later requests that read less than a period
after it; the first of the others opens the next window. -/
def windows : List ι → List (List ι)
  | [] => []
  | first :: rest =>
      (first :: taken period now (now first) rest) :: windows (remaining period now (now first) rest)
termination_by requests => requests.length
decreasing_by exact Nat.lt_succ_of_le (List.length_filter_le _ _)

/-- The first `R` requests of a window are admitted, and the others are not. -/
def verdicts (R : Nat) (window : List ι) : List (ι × Bool) :=
  (window.take R).map (fun request => (request, true)) ++
    (window.drop R).map fun request => (request, false)

theorem verdicts_nil (R : Nat) : verdicts R ([] : List ι) = [] := by simp [verdicts]

theorem verdicts_zero (window : List ι) :
    verdicts 0 window = window.map fun request => (request, false) := by simp [verdicts]

theorem verdicts_succ_cons (R : Nat) (request : ι) (rest : List ι) :
    verdicts (R + 1) (request :: rest) = (request, true) :: verdicts R rest := by
  simp [verdicts]

variable {period} {now}

/-- In a sorted list, the requests of a window come first. -/
theorem taken_append_remaining {requests : List ι}
    (hsorted : requests.Pairwise fun earlier later => now earlier ≤ now later) (opened : Int) :
    taken period now opened requests ++ remaining period now opened requests = requests := by
  induction requests with
  | nil => rfl
  | cons request rest ih =>
      obtain ⟨hhead, htail⟩ := List.pairwise_cons.mp hsorted
      by_cases hin : now request < opened + period
      · have hrest := ih htail
        rw [taken, remaining] at hrest ⊢
        simp [hin, hrest]
      · have hnone : ∀ other ∈ request :: rest, ¬ now other < opened + period := by
          rw [List.forall_mem_cons]
          refine ⟨hin, fun other hother => ?_⟩
          have hle := hhead other hother
          omega
        have htaken : taken period now opened (request :: rest) = [] := by
          rw [taken, List.filter_eq_nil_iff]
          simpa using hnone
        have hremaining : remaining period now opened (request :: rest) = request :: rest := by
          rw [remaining, List.filter_eq_self]
          simpa using hnone
        rw [htaken, hremaining, List.nil_append]

/-- The windows are a partition of the requests. -/
theorem windows_flatten {requests : List ι}
    (hsorted : requests.Pairwise fun earlier later => now earlier ≤ now later) :
    (windows period now requests).flatten = requests := by
  induction requests using windows.induct period now with
  | case1 => simp [windows]
  | case2 first rest ih =>
      obtain ⟨_, htail⟩ := List.pairwise_cons.mp hsorted
      rw [windows, List.flatten_cons, ih (htail.filter _), List.cons_append,
        taken_append_remaining htail]

/-- Requests that all fall into the open window get the room it has left. -/
theorem trace_open_window {R : Nat} {window : Window} {requests : List ι}
    (hopen : ∀ request ∈ requests, now request < window.opened + period)
    (hlimit : ∀ request ∈ requests, limit request = R) :
    Mealy.trace (step period limit now) (some window) requests =
        verdicts (R - window.count) requests ∧
      ∃ count, Mealy.final (step period limit now) (some window) requests =
        some ⟨count, window.opened⟩ := by
  induction requests generalizing window with
  | nil => exact ⟨(verdicts_nil _).symm, window.count, rfl⟩
  | cons request rest ih =>
      obtain ⟨hhead, htail⟩ := List.forall_mem_cons.mp hopen
      obtain ⟨hlast, hlimits⟩ := List.forall_mem_cons.mp hlimit
      have hlook : look period (some window) (now request) = window := look_open (by omega)
      by_cases hroom : window.count < R
      · have hgranted : step period limit now (some window) request =
            (true, some { window with count := window.count + 1 }) := by
          rw [step_granted (by rwa [hlook, hlast]), hlook]
        obtain ⟨htrace, hfinal⟩ := @ih { window with count := window.count + 1 } htail hlimits
        have hleft : R - window.count = R - (window.count + 1) + 1 := by omega
        rw [Mealy.trace_cons, Mealy.final_cons, hgranted, htrace, hleft, verdicts_succ_cons]
        exact ⟨rfl, hfinal⟩
      · have hrefused : step period limit now (some window) request = (false, some window) := by
          rw [step_refused (by rwa [hlook, hlast]), hlook]
        obtain ⟨htrace, hfinal⟩ := ih htail hlimits
        have hleft : R - window.count = 0 := by omega
        rw [Mealy.trace_cons, Mealy.final_cons, hrefused, htrace, hleft, verdicts_zero, verdicts_zero]
        exact ⟨rfl, hfinal⟩

/-- A request that finds no open window may as well find a new one. -/
theorem step_eq_of_expired (hperiod : 0 < period) {window : Option Window} {request : ι}
    (hexpired : ∀ w, window = some w → period ≤ now request - w.opened) :
    step period limit now window request =
      step period limit now (some ⟨0, now request⟩) request := by
  have hlook := look_of_expired hexpired
  have hnew : look period (some ⟨0, now request⟩) (now request) = ⟨0, now request⟩ :=
    look_open (by simpa using hperiod)
  rw [step, step, hlook, hnew]

/-- On sorted requests with one limit the counter admits the first requests of every window. -/
theorem trace_eq_windows {R : Nat} (hperiod : 0 < period) {requests : List ι}
    (hsorted : requests.Pairwise fun earlier later => now earlier ≤ now later)
    (hlimit : ∀ request ∈ requests, limit request = R) {window : Option Window}
    (hexpired : ∀ w, window = some w → ∀ request ∈ requests, period ≤ now request - w.opened) :
    Mealy.trace (step period limit now) window requests =
      (windows period now requests).flatMap (verdicts R) := by
  induction requests using windows.induct period now generalizing window with
  | case1 => simp [windows]
  | case2 first rest ih =>
      obtain ⟨hfirst, hrest⟩ := List.forall_mem_cons.mp hlimit
      obtain ⟨_, htail⟩ := List.pairwise_cons.mp hsorted
      have hopen : ∀ request ∈ first :: taken period now (now first) rest,
          now request < now first + period := by
        rw [List.forall_mem_cons]
        exact ⟨by omega, fun request hrequest => of_decide_eq_true (List.mem_filter.mp hrequest).2⟩
      have hlimits : ∀ request ∈ first :: taken period now (now first) rest, limit request = R := by
        rw [List.forall_mem_cons]
        exact ⟨hfirst, fun request hrequest => hrest request (List.mem_filter.mp hrequest).1⟩
      obtain ⟨htrace, count, hfinal⟩ :=
        @trace_open_window ι period limit now R ⟨0, now first⟩ _ hopen hlimits
      have hstep : step period limit now window first =
          step period limit now (some ⟨0, now first⟩) first :=
        step_eq_of_expired hperiod fun w hw => hexpired w hw first List.mem_cons_self
      have hgone : ∀ w, some (⟨count, now first⟩ : Window) = some w →
          ∀ request ∈ remaining period now (now first) rest, period ≤ now request - w.opened := by
        intro w hw request hrequest
        have hleft := (List.mem_filter.mp hrequest).2
        simp only [Bool.not_eq_true', decide_eq_false_iff_not] at hleft
        rw [← Option.some.inj hw]
        show period ≤ now request - now first
        omega
      have hlater := ih (htail.filter _)
        (fun request hrequest => hrest request (List.mem_filter.mp hrequest).1) hgone
      -- the run of the first window, and the run of the others from the state it leaves
      calc Mealy.trace (step period limit now) window (first :: rest)
          = Mealy.trace (step period limit now) (some ⟨0, now first⟩) (first :: rest) := by
            rw [Mealy.trace_cons, Mealy.trace_cons, hstep]
        _ = Mealy.trace (step period limit now) (some ⟨0, now first⟩)
              ((first :: taken period now (now first) rest) ++ remaining period now (now first) rest) := by
            rw [List.cons_append, taken_append_remaining htail]
        _ = verdicts R (first :: taken period now (now first) rest) ++
              (windows period now (remaining period now (now first) rest)).flatMap (verdicts R) := by
            rw [Mealy.trace_append, htrace, hfinal, hlater, Nat.sub_zero]
        _ = (windows period now (first :: rest)).flatMap (verdicts R) := by
            rw [windows, List.flatMap_cons]

end FixedWindow
