import HalEnforcement.Library.Mealy
import Mathlib.Tactic.Ring

/-!
# Fixed-window counters

A counter that admits a request while fewer than the request's limit have been admitted in the
current window, and opens a new window when a request finds the current one a `period` old. The
requests may carry different limits.

The main result, `grants_between_le`, bounds the requests of one class admitted at readings
between `lo` and `hi`. Its invariant is `Budget`, which tells the window that was open when the
interval began from the windows opened inside it: the first contributes at most `R - d`, where `d`
is 1 if the request that opens a window is always admitted, and every other at most `R`.
-/

namespace FixedWindow

/-- The number of requests admitted since the reading that opened the window. -/
structure Window where
  count : Nat
  opened : Int
  deriving DecidableEq, Repr

variable {ι : Type*} (period : Int) (limit : ι → Nat) (now : ι → Int)

/-- The window a request is counted in. -/
def look (window : Option Window) (reading : Int) : Window :=
  match window with
  | none => ⟨0, reading⟩
  | some window => if period ≤ reading - window.opened then ⟨0, reading⟩ else window

/-- Whether a request is admitted, and the window afterwards. -/
def step (window : Option Window) (request : ι) : Bool × Option Window :=
  let window := look period window (now request)
  if window.count < limit request then (true, some { window with count := window.count + 1 })
  else (false, some window)

/-- How many requests of a class were admitted. -/
def grants (mine : ι → Bool) (trace : List (ι × Bool)) : Nat :=
  trace.countP fun entry => entry.2 && mine entry.1

/-- The admitted requests `g` of a class with limit `R`, at readings from `lo` on, against the
current window.
* `before`: the window was open when the interval began, and holds all of them;
* `inside`: every window that holds some was opened inside the interval, `k` before this one;
* `across`: the first was open when the interval began, `k` more were opened before this one. -/
inductive Budget (lo : Int) (R d : Nat) : Option Window → Nat → Prop where
  | unopened : Budget lo R d none 0
  | before {window : Window} {g : Nat} : window.opened < lo → g + d ≤ window.count → g ≤ R - d →
      (0 < g → lo < window.opened + period) → Budget lo R d (some window) g
  | inside {window : Window} {g : Nat} (k current : Nat) : lo + k * period ≤ window.opened →
      g ≤ R * k + current → current ≤ window.count → current ≤ R → Budget lo R d (some window) g
  | across {window : Window} {g : Nat} (k current : Nat) : lo + 1 + k * period ≤ window.opened →
      g ≤ (R - d) + R * k + current → current ≤ window.count → current ≤ R →
      Budget lo R d (some window) g

variable {period} {limit} {now} {lo hi : Int} {R d : Nat}

/-- A request counted in the open window. -/
theorem Budget.same {window : Window} {g n c : Nat} {reading : Int}
    (h : Budget period lo R d (some window) g) (hopen : ¬ period ≤ reading - window.opened)
    (hcount : window.count + n ≤ c) (hlimit : 0 < n → c ≤ R)
    (hextra : n ≤ 1) (hreading : 0 < n → lo ≤ reading) :
    Budget period lo R d (some { window with count := c }) (g + n) := by
  cases h with
  | before hopened hg hcap hrecent =>
      have hspent : g + n + d ≤ c := by omega
      refine .before hopened hspent (by omega) (fun _ => ?_)
      rcases Nat.eq_zero_or_pos n with hzero | hpos
      · exact hrecent (by omega)
      · have := hreading hpos
        show lo < window.opened + period
        omega
  | inside k current hopened hg hcurrent hcap =>
      have hspent : current + n ≤ c := by omega
      exact .inside k (current + n) hopened (by omega) hspent (by omega)
  | across k current hopened hg hcurrent hcap =>
      have hspent : current + n ≤ c := by omega
      exact .across k (current + n) hopened (by omega) hspent (by omega)

/-- A request that opens a new window. -/
theorem Budget.fresh {window : Option Window} {g n c : Nat} {reading : Int}
    (h : Budget period lo R d window g)
    (hopen : ∀ w, window = some w → period ≤ reading - w.opened)
    (hcount : n ≤ c) (hlimit : n ≤ R) (hfirst : d ≤ c)
    (hreading : 0 < n → lo ≤ reading) :
    Budget period lo R d (some ⟨c, reading⟩) (g + n) := by
  have hzero : Budget period lo R d (some ⟨c, reading⟩) (0 + n) := by
    by_cases hlo : reading < lo
    · -- a request before the interval is none of the class
      have hnone : n = 0 := by
        by_contra hn
        have := hreading (by omega)
        omega
      have hspent : 0 + n + d ≤ c := by omega
      exact .before hlo hspent (by omega) (fun h => by omega)
    · have hinside : lo + (0 : Nat) * period ≤ reading := by
        push_cast
        omega
      exact .inside 0 n hinside (by omega) hcount hlimit
  cases h with
  | unopened => exact hzero
  | @before w _ hopened hg hcap hrecent =>
      -- with nothing admitted yet, the new window is as good as the first
      rcases Nat.eq_zero_or_pos g with rfl | hpos
      · exact hzero
      · have hold := hopen w rfl
        have hrecent := hrecent hpos
        have hinside : lo + 1 + (0 : Nat) * period ≤ reading := by
          push_cast
          omega
        exact .across 0 n hinside (by omega) hcount hlimit
  | @inside w _ k current hopened hg hcurrent hcap =>
      have hold := hopen w rfl
      refine .inside (k + 1) n ?_ ?_ hcount hlimit
      · push_cast
        rw [add_mul]
        omega
      · rw [Nat.mul_add]
        omega
  | @across w _ k current hopened hg hcurrent hcap =>
      have hold := hopen w rfl
      refine .across (k + 1) n ?_ ?_ hcount hlimit
      · push_cast
        rw [add_mul]
        omega
      · rw [Nat.mul_add]
        omega

@[simp] theorem look_none (reading : Int) : look period none reading = ⟨0, reading⟩ := rfl

theorem look_open {window : Window} {reading : Int} (h : ¬ period ≤ reading - window.opened) :
    look period (some window) reading = window := by
  simp [look, h]

theorem look_expired {window : Window} {reading : Int} (h : period ≤ reading - window.opened) :
    look period (some window) reading = ⟨0, reading⟩ := by
  simp [look, h]

/-- A request that finds no window, or an expired one, opens a new one. -/
theorem look_of_expired {window : Option Window} {reading : Int}
    (hexpired : ∀ w, window = some w → period ≤ reading - w.opened) :
    look period window reading = ⟨0, reading⟩ := by
  cases window with
  | none => rfl
  | some w => exact look_expired (hexpired w rfl)

/-- A request is admitted when the window it is counted in has room. -/
theorem step_granted {window : Option Window} {request : ι}
    (h : (look period window (now request)).count < limit request) :
    step period limit now window request = (true, some
      { look period window (now request) with
        count := (look period window (now request)).count + 1 }) := by
  simp [step, h]

theorem step_refused {window : Option Window} {request : ι}
    (h : ¬ (look period window (now request)).count < limit request) :
    step period limit now window request =
      (false, some (look period window (now request))) := by
  simp [step, h]

/-- What one request adds to the admitted requests of a class. -/
def gain (mine : ι → Bool) (request : ι) (granted : Bool) : Nat :=
  if granted && mine request then 1 else 0

theorem grants_append (mine : ι → Bool) (first second : List (ι × Bool)) :
    grants mine (first ++ second) = grants mine first + grants mine second :=
  List.countP_append

theorem grants_singleton (mine : ι → Bool) (request : ι) (granted : Bool) :
    grants mine [(request, granted)] = gain mine request granted := by
  simp [grants, gain, List.countP_singleton]

/-- One request keeps the budget. -/
theorem Budget.step {mine : ι → Bool} {window : Option Window} {g : Nat} {request : ι}
    (h : Budget period lo R d window g) (hmine : mine request = true → limit request ≤ R)
    (hd : d ≤ 1) (hfirst : d ≤ limit request)
    (hreading : mine request = true → lo ≤ now request) :
    Budget period lo R d (step period limit now window request).2
      (g + gain mine request (FixedWindow.step period limit now window request).1) := by
  -- the window is either the one already open or a new one, and the request admitted or not
  by_cases hopen : ∃ w, window = some w ∧ ¬ period ≤ now request - w.opened
  · obtain ⟨w, rfl, hopen⟩ := hopen
    by_cases hroom : w.count < limit request
    · rw [step_granted (by rwa [look_open hopen]), look_open hopen]
      by_cases hm : mine request = true
      · have hR := hmine hm
        simpa [gain, hm] using h.same (n := 1) hopen (by omega) (by omega) le_rfl
          (fun _ => hreading hm)
      · simpa [gain, hm] using h.same (n := 0) (c := w.count + 1) hopen (by omega)
          (by omega) (by omega) (by omega)
    · rw [step_refused (by rwa [look_open hopen]), look_open hopen]
      simpa [gain] using h
  · have hexpired : ∀ w, window = some w → period ≤ now request - w.opened := by
      simpa using hopen
    have hlook := look_of_expired hexpired
    by_cases hroom : 0 < limit request
    · rw [step_granted (by rwa [hlook]), hlook]
      by_cases hm : mine request = true
      · have hR := hmine hm
        simpa [gain, hm] using h.fresh (n := 1) (c := 1) hexpired le_rfl (by omega) hd
          (fun _ => hreading hm)
      · simpa [gain, hm] using h.fresh (n := 0) (c := 1) hexpired (by omega) (by omega)
          hd (by omega)
    · rw [step_refused (by rwa [hlook]), hlook]
      simpa [gain] using h.fresh (n := 0) (c := 0) hexpired le_rfl (by omega) (by omega)
        (by omega)

/-- The budget of a whole run. -/
theorem budget_trace {mine : ι → Bool} {requests : List ι} (hd : d ≤ 1)
    (hmine : ∀ request ∈ requests, mine request = true → limit request ≤ R)
    (hfirst : ∀ request ∈ requests, d ≤ limit request)
    (hreading : ∀ request ∈ requests, mine request = true → lo ≤ now request) :
    Budget period lo R d (Mealy.final (step period limit now) none requests)
      (grants mine (Mealy.trace (step period limit now) none requests)) := by
  refine Mealy.trace_induction (P := fun past window => Budget period lo R d window
    (grants mine past)) .unopened requests ?_
  intro past window request hrequest hpast
  rw [grants_append, grants_singleton]
  exact hpast.step (hmine request hrequest) hd (hfirst request hrequest)
    (hreading request hrequest)

/-- The current window was opened by one of the requests. -/
theorem opened_le {requests : List ι} (hhi : ∀ request ∈ requests, now request ≤ hi)
    {window : Window} (h : Mealy.final (step period limit now) none requests = some window) :
    window.opened ≤ hi := by
  refine Mealy.final_invariant (P := fun state => ∀ w, state = some w → w.opened ≤ hi)
    (by simp) requests ?_ window h
  intro state request hrequest hinv w hw
  have hlook : (look period state (now request)).opened ≤ hi := by
    unfold look
    split
    · exact hhi request hrequest
    · split
      · exact hhi request hrequest
      · exact hinv _ rfl
  unfold step at hw
  simp only at hw
  split at hw <;> simp only [Option.some.injEq] at hw <;> subst hw <;> exact hlook

/-- A bound for a run whose readings are at most `hi`, from the budget of its last window. -/
theorem Budget.bound {window : Option Window} {g : Nat} (h : Budget period lo R d window g)
    (hopened : ∀ w, window = some w → w.opened ≤ hi) (hlo : lo ≤ hi) :
    ∃ k : Nat, (k * period ≤ hi - lo ∧ g ≤ R * (k + 1)) ∨
      (1 + k * period ≤ hi - lo ∧ g ≤ (R - d) + R * (k + 1)) := by
  cases h with
  | unopened => exact ⟨0, .inl ⟨by simpa using hlo, Nat.zero_le _⟩⟩
  | before _ _ hcap _ =>
      exact ⟨0, .inl ⟨by simpa using hlo, by simp only [Nat.zero_add, Nat.mul_one]; omega⟩⟩
  | @inside w _ k current hwindow hg hcurrent hcap =>
      have hhi := hopened w rfl
      exact ⟨k, .inl ⟨by omega, by rw [Nat.mul_add]; omega⟩⟩
  | @across w _ k current hwindow hg hcurrent hcap =>
      have hhi := hopened w rfl
      exact ⟨k, .inr ⟨by omega, by rw [Nat.mul_add]; omega⟩⟩

/-- In a list sorted by reading, the requests up to a reading come first. -/
theorem sorted_split {requests : List ι}
    (hsorted : requests.Pairwise fun left right => now left ≤ now right) (hi : Int) :
    ∃ early late, requests = early ++ late ∧ (∀ request ∈ early, now request ≤ hi) ∧
      ∀ request ∈ late, hi < now request := by
  induction requests with
  | nil => exact ⟨[], [], rfl, by simp, by simp⟩
  | cons request rest ih =>
      rw [List.pairwise_cons] at hsorted
      obtain ⟨hhead, htail⟩ := hsorted
      by_cases hnow : now request ≤ hi
      · obtain ⟨early, late, rfl, hearly, hlate⟩ := ih htail
        exact ⟨request :: early, late, rfl, by simpa [hnow] using hearly, hlate⟩
      · refine ⟨[], request :: rest, rfl, by simp, ?_⟩
        intro other hother
        rcases List.mem_cons.mp hother with rfl | hother
        · omega
        · have := hhead other hother
          omega

/-- Of a class with limit `R`, requests admitted at readings between `lo` and `hi`: those of `k + 1`
windows if the first was opened inside the interval, and otherwise those of `k + 1` windows and the
`R - d` last requests of the one open before. -/
theorem grants_between_le (period : Int) (limit : ι → Nat) (now : ι → Int) (mine : ι → Bool)
    {requests : List ι} (hd : d ≤ 1)
    (hsorted : requests.Pairwise fun left right => now left ≤ now right)
    (hmine : ∀ request ∈ requests, mine request = true → limit request ≤ R)
    (hfirst : ∀ request ∈ requests, d ≤ limit request) (hlo : lo ≤ hi) :
    ∃ k : Nat,
      (k * period ≤ hi - lo ∧
        grants (fun request => mine request && decide (lo ≤ now request ∧ now request ≤ hi))
          (Mealy.trace (step period limit now) none requests) ≤ R * (k + 1)) ∨
      (1 + k * period ≤ hi - lo ∧
        grants (fun request => mine request && decide (lo ≤ now request ∧ now request ≤ hi))
          (Mealy.trace (step period limit now) none requests) ≤ (R - d) + R * (k + 1)) := by
  -- the requests after the interval add nothing, so the run can end with it
  obtain ⟨early, late, rfl, hearly, hlate⟩ := sorted_split hsorted hi
  have hnone : grants (fun request => mine request && decide (lo ≤ now request ∧
      now request ≤ hi)) (Mealy.trace (step period limit now)
        (Mealy.final (step period limit now) none early) late) = 0 := by
    rw [grants, List.countP_eq_zero]
    intro entry hentry
    have hmem : entry.1 ∈ late := by
      rw [← Mealy.trace_map_fst (step period limit now) _ late]
      exact List.mem_map_of_mem hentry
    have := hlate entry.1 hmem
    simp only [Bool.and_eq_true, decide_eq_true_eq, not_and]
    omega
  rw [Mealy.trace_append, grants_append, hnone, Nat.add_zero]
  refine Budget.bound (budget_trace hd ?_ ?_ ?_) (fun w hw => opened_le hearly hw) hlo
  · intro request hrequest hm
    simp only [Bool.and_eq_true, decide_eq_true_eq] at hm
    exact hmine request (List.mem_append_left _ hrequest) hm.1
  · exact fun request hrequest => hfirst request (List.mem_append_left _ hrequest)
  · intro request hrequest hm
    simp only [Bool.and_eq_true, decide_eq_true_eq] at hm
    exact hm.2.1

/-! ## Bursts

Runs of one request repeated, which reach the bounds above. -/

theorem grants_replicate {mine : ι → Bool} {request : ι} (h : mine request = true) (n : Nat) :
    grants mine (List.replicate n (request, true)) = n := by
  simp [grants, List.countP_replicate, h]

/-- A repeated request that finds the window open and enough room is always admitted. -/
theorem trace_replicate {window : Window} {request : ι} {n : Nat}
    (hopen : ¬ period ≤ now request - window.opened) (hroom : window.count + n ≤ limit request) :
    Mealy.trace (step period limit now) (some window) (List.replicate n request) =
        List.replicate n (request, true) ∧
      Mealy.final (step period limit now) (some window) (List.replicate n request) =
        some { window with count := window.count + n } := by
  induction n generalizing window with
  | zero => exact ⟨rfl, rfl⟩
  | succ n ih =>
      have hlook := look_open hopen
      have hgranted : step period limit now (some window) request =
          (true, some { window with count := window.count + 1 }) := by
        rw [step_granted (by rw [hlook]; omega), hlook]
      have hrest : window.count + 1 + n ≤ limit request := by omega
      obtain ⟨htrace, hfinal⟩ := @ih { window with count := window.count + 1 } hopen hrest
      rw [List.replicate_succ, Mealy.trace_cons, Mealy.final_cons, hgranted, htrace, hfinal]
      exact ⟨rfl, by simp only [Nat.add_assoc, Nat.add_comm 1 n]⟩

/-- A repeated request, admitted or not, leaves the window open where it was. -/
theorem opened_final_replicate (window : Window) {request : ι} (n : Nat)
    (hopen : ¬ period ≤ now request - window.opened) :
    ∃ count, Mealy.final (step period limit now) (some window) (List.replicate n request) =
      some ⟨count, window.opened⟩ := by
  induction n generalizing window with
  | zero => exact ⟨window.count, rfl⟩
  | succ n ih =>
      rw [List.replicate_succ, Mealy.final_cons]
      by_cases hroom : window.count < limit request
      · rw [step_granted (by rwa [look_open hopen]), look_open hopen]
        exact ih { window with count := window.count + 1 } hopen
      · rw [step_refused (by rwa [look_open hopen]), look_open hopen]
        exact ih window hopen

/-- A request that finds no open window is decided by its limit alone. -/
theorem step_expired {window : Option Window} {request : ι}
    (hexpired : ∀ w, window = some w → period ≤ now request - w.opened) :
    (step period limit now window request).1 = decide (0 < limit request) := by
  have hlook := look_of_expired hexpired
  by_cases hlimit : 0 < limit request
  · rw [step_granted (by rwa [hlook]), decide_eq_true hlimit]
  · rw [step_refused (by rwa [hlook]), decide_eq_false hlimit]

/-- A request that opens a window is admitted when its limit is positive. -/
theorem step_opening {window : Option Window} {request : ι} (hlimit : 0 < limit request)
    (hexpired : ∀ w, window = some w → period ≤ now request - w.opened) :
    step period limit now window request = (true, some ⟨1, now request⟩) := by
  have hlook := look_of_expired hexpired
  rw [step_granted (by rwa [hlook]), hlook]

/-- The first `n` of repeated requests that open a window are admitted, up to the limit. -/
theorem trace_opening {window : Option Window} {request : ι} {n : Nat} (hperiod : 0 < period)
    (hexpired : ∀ w, window = some w → period ≤ now request - w.opened) (hn : 0 < n)
    (hroom : n ≤ limit request) :
    Mealy.trace (step period limit now) window (List.replicate n request) =
        List.replicate n (request, true) ∧
      Mealy.final (step period limit now) window (List.replicate n request) =
        some ⟨n, now request⟩ := by
  obtain ⟨n, rfl⟩ : ∃ rest, n = rest + 1 := ⟨n - 1, by omega⟩
  have hlimit : 0 < limit request := by omega
  have hopen : ¬ period ≤ now request - (⟨1, now request⟩ : Window).opened := by
    show ¬ period ≤ now request - now request
    omega
  have hrest : (⟨1, now request⟩ : Window).count + n ≤ limit request := by
    show 1 + n ≤ limit request
    omega
  obtain ⟨htrace, hfinal⟩ := trace_replicate hopen hrest
  rw [List.replicate_succ, Mealy.trace_cons, Mealy.final_cons, step_opening hlimit hexpired, htrace,
    hfinal]
  exact ⟨rfl, by simp only [Nat.add_comm]⟩

/-! ## Raising a limit

Two counters over the same requests, the second with a limit at least as high as the constant limit
`L` of the first. Their windows open at the same readings, and the counts agree until the first is
full. -/

/-- The windows of the two counters. -/
def Ahead (L : Nat) : Option Window → Option Window → Prop :=
  Option.Rel fun window window' =>
    window.opened = window'.opened ∧ (window.count = window'.count ∨ L ≤ window.count)

theorem look_ahead {L : Nat} {window window' : Option Window} (period : Int)
    (h : Ahead L window window') (reading : Int) :
    (look period window reading).opened = (look period window' reading).opened ∧
      ((look period window reading).count = (look period window' reading).count ∨
        L ≤ (look period window reading).count) := by
  cases h with
  | none => exact ⟨rfl, .inl rfl⟩
  | @some held held' h =>
      obtain ⟨hopened, hcount⟩ := h
      by_cases hexpired : period ≤ reading - held.opened
      · rw [look_expired hexpired, look_expired (by rwa [← hopened])]
        exact ⟨rfl, .inl rfl⟩
      · rw [look_open hexpired, look_open (by rwa [← hopened])]
        exact ⟨hopened, hcount⟩

/-- What the lower limit admits, the higher one admits. -/
theorem ahead_step {L : Nat} {limit' : ι → Nat} {window window' : Option Window} {request : ι}
    (h : Ahead L window window') (hlimit : limit request = L) (hraised : L ≤ limit' request) :
    ((step period limit now window request).1 = true →
        (step period limit' now window' request).1 = true) ∧
      Ahead L (step period limit now window request).2
        (step period limit' now window' request).2 := by
  obtain ⟨hopened, hcount⟩ := look_ahead period h (now request)
  by_cases hroom : (look period window (now request)).count < limit request
  · have heq : (look period window (now request)).count =
        (look period window' (now request)).count := by omega
    have hroom' : (look period window' (now request)).count < limit' request := by omega
    rw [step_granted hroom, step_granted hroom']
    exact ⟨fun _ => rfl, .some ⟨hopened, .inl (congrArg (· + 1) heq)⟩⟩
  · have hfull : L ≤ (look period window (now request)).count := by omega
    rw [step_refused hroom]
    refine ⟨nofun, ?_⟩
    by_cases hroom' : (look period window' (now request)).count < limit' request
    · rw [step_granted hroom']
      exact .some ⟨hopened, .inr hfull⟩
    · rw [step_refused hroom']
      exact .some ⟨hopened, .inr hfull⟩

theorem ahead_final {L : Nat} {limit' : ι → Nat} {requests : List ι}
    (hlimit : ∀ request ∈ requests, limit request = L ∧ L ≤ limit' request)
    {window window' : Option Window} (h : Ahead L window window') :
    Ahead L (Mealy.final (step period limit now) window requests)
      (Mealy.final (step period limit' now) window' requests) := by
  induction requests generalizing window window' with
  | nil => exact h
  | cons request rest ih =>
      obtain ⟨⟨heq, hle⟩, hrest⟩ := List.forall_mem_cons.mp hlimit
      exact ih hrest (ahead_step h heq hle).2

end FixedWindow
