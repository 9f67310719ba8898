import HalEnforcement.Library.FixedWindow
import Mathlib.Algebra.Order.Group.Unbundled.Abs

/-!
# Fixed windows under a wall clock

The counter on requests made at instants of an ordered time, with readings of a clock that may step
back. A refusal is justified when as many requests as the limit allows were admitted at readings
less than a period away from its own. `refusals_justified_iff` says which clocks justify the
refusals of all runs. Its invariant is `History`: the open window consists of the last requests of
the run, from the one that opened it.
-/

namespace FixedWindow

variable {ι : Type*} (period : Int) (limit : ι → Nat) (now : ι → Int)

/-- Every refused request of a run finds its limit used up less than a period away. -/
def RefusalsJustified (requests : List ι) : Prop :=
  ∀ before request after, requests = before ++ request :: after →
    (step period limit now (Mealy.final (step period limit now) none before) request).1 = false →
      limit request ≤ (Mealy.trace (step period limit now) none before).countP fun entry =>
        entry.2 && decide (|now request - now entry.1| < period)

/-- The requests since the one that opened the window all fell into it, and it counts those that
were admitted. The first was admitted if its limit is positive. -/
def History (past : List (ι × Bool)) (window : Option Window) : Prop :=
  ∀ w, window = some w → ∃ old first current,
    past = old ++ first :: current ∧ w.opened = now first.1 ∧
      first.2 = decide (0 < limit first.1) ∧
      (∀ entry ∈ first :: current, now entry.1 < w.opened + period) ∧
      w.count = (first :: current).countP Prod.snd

variable {period} {limit} {now}

/-- A request that finds no open window begins a new one. -/
theorem History.fresh (hperiod : 0 < period) {past : List (ι × Bool)} {window : Option Window}
    {request : ι} (hexpired : ∀ w, window = some w → period ≤ now request - w.opened) :
    History period limit now (past ++ [(request, (step period limit now window request).1)])
      (step period limit now window request).2 := by
  have hlook := look_of_expired hexpired
  intro w hw
  refine ⟨past, _, [], rfl, ?_⟩
  by_cases hlimit : 0 < limit request
  · rw [step_granted (by rwa [hlook]), hlook] at hw ⊢
    rw [← Option.some.inj hw]
    simpa [hlimit] using hperiod
  · rw [step_refused (by rwa [hlook]), hlook] at hw ⊢
    rw [← Option.some.inj hw]
    simpa [hlimit] using hperiod

/-- A request that finds the window open is counted in it. -/
theorem History.same {past : List (ι × Bool)} {window : Window} {request : ι}
    (h : History period limit now past (some window))
    (hopen : ¬ period ≤ now request - window.opened) :
    History period limit now
      (past ++ [(request, (step period limit now (some window) request).1)])
      (step period limit now (some window) request).2 := by
  obtain ⟨old, first, current, hpast, hopened, hfirst, hin, hcount⟩ := h window rfl
  intro w hw
  refine ⟨old, first, current ++ [(request, (step period limit now (some window) request).1)],
    by rw [hpast, List.append_assoc, List.cons_append], ?_⟩
  have hlook := look_open hopen
  have hentries : ∀ granted, ∀ entry ∈ first :: (current ++ [(request, granted)]),
      now entry.1 < window.opened + period := by
    intro granted entry hentry
    rw [← List.cons_append, List.mem_append] at hentry
    rcases hentry with hentry | hentry
    · exact hin entry hentry
    · rw [List.mem_singleton.mp hentry]
      show now request < window.opened + period
      omega
  by_cases hroom : window.count < limit request
  · rw [step_granted (by rwa [hlook]), hlook] at hw ⊢
    rw [← Option.some.inj hw]
    refine ⟨hopened, hfirst, hentries true, ?_⟩
    rw [← List.cons_append, List.countP_append, ← hcount]
    rfl
  · rw [step_refused (by rwa [hlook]), hlook] at hw ⊢
    rw [← Option.some.inj hw]
    refine ⟨hopened, hfirst, hentries false, ?_⟩
    rw [← List.cons_append, List.countP_append, ← hcount]
    rfl

/-- The history of the window a run leaves open. -/
theorem history_trace (hperiod : 0 < period) (requests : List ι) :
    History period limit now (Mealy.trace (step period limit now) none requests)
      (Mealy.final (step period limit now) none requests) := by
  refine Mealy.trace_induction (P := History period limit now) (fun w hw => by cases hw)
    requests ?_
  intro past window request _ h
  cases window with
  | none => exact .fresh hperiod (by simp)
  | some w =>
      by_cases hexpired : period ≤ now request - w.opened
      · refine .fresh hperiod fun other hother => ?_
        rwa [← Option.some.inj hother]
      · exact h.same hexpired

/-- What the open window says about a request it refuses. -/
theorem history_of_refused (hperiod : 0 < period) {before : List ι} {last : ι}
    (hlimit : 0 < limit last)
    (hrefused : (step period limit now
      (Mealy.final (step period limit now) none before) last).1 = false) :
    ∃ old first current, Mealy.trace (step period limit now) none before =
        old ++ first :: current ∧ first.2 = decide (0 < limit first.1) ∧
      now last < now first.1 + period ∧
      (∀ entry ∈ first :: current, now entry.1 < now first.1 + period) ∧
      limit last ≤ (first :: current).countP Prod.snd := by
  have hhistory : History period limit now (Mealy.trace (step period limit now) none before)
      (Mealy.final (step period limit now) none before) := history_trace hperiod before
  generalize Mealy.final (step period limit now) none before = window at hrefused hhistory
  -- a window that is not open would have admitted the request
  have hopen : ∃ w, window = some w ∧ ¬ period ≤ now last - w.opened := by
    by_contra hnone
    have hadmitted : (step period limit now window last).1 = decide (0 < limit last) := by
      refine step_expired fun w hw => ?_
      by_contra h
      exact hnone ⟨w, hw, h⟩
    rw [hrefused, decide_eq_true hlimit] at hadmitted
    cases hadmitted
  obtain ⟨w, rfl, hopen⟩ := hopen
  obtain ⟨old, first, current, htrace, hopened, hfirst, hin, hcount⟩ := hhistory w rfl
  have hfull : limit last ≤ w.count := by
    by_contra hroom
    rw [step_granted (by rw [look_open hopen]; omega)] at hrefused
    cases hrefused
  rw [hopened] at hopen hin
  exact ⟨old, first, current, htrace, hfirst, by omega, hin, hcount ▸ hfull⟩

/-! ## Clocks that justify all refusals -/

section Clock

variable {τ : Type*} [LinearOrder τ] (period) (clock : τ → Int)

/-- The clock never falls back by a period or more. -/
def NeverFarBack : Prop :=
  ∀ s t, s ≤ t → clock s < clock t + period

/-- Once the clock has fallen back from one reading to a lower one, it never reads the stretch that
lies a period or more after the lower one and less than a period after the higher. -/
def NoReplay : Prop :=
  ∀ s t u, s ≤ t → t ≤ u → clock t < clock s → clock u < clock s + period →
    clock u < clock t + period

variable {period} {clock} {R : Nat}

/-- The instants of the open window lie between that of its first request and the present. -/
theorem between_of_sorted {old current : List (τ × Bool)} {first : τ × Bool} {last : τ}
    {after : List τ}
    (hsorted : ((old ++ first :: current).map Prod.fst ++ last :: after).Pairwise (· ≤ ·)) :
    ∀ entry ∈ first :: current, first.1 ≤ entry.1 ∧ entry.1 ≤ last := by
  intro entry hentry
  obtain ⟨hbefore, _, hlast⟩ := List.pairwise_append.mp hsorted
  rw [List.map_append] at hbefore
  obtain ⟨_, hwindow, _⟩ := List.pairwise_append.mp hbefore
  have hmem : entry.1 ∈ (old ++ first :: current).map Prod.fst :=
    List.mem_map_of_mem (List.mem_append_right _ hentry)
  refine ⟨?_, hlast entry.1 hmem last List.mem_cons_self⟩
  rcases List.mem_cons.mp hentry with rfl | hentry
  · exact le_refl _
  · exact (List.pairwise_cons.mp hwindow).1 entry.1 (List.mem_map_of_mem hentry)

/-- Without far steps back and replays, all requests of the open window are less than a period
away; without far steps back alone, the first one is. -/
theorem near_of_clock (hback : NeverFarBack period clock) {first entry last : τ}
    (hfirst : first ≤ entry) (hlast : entry ≤ last) (hopen : clock last < clock first + period)
    (hreplay : entry = first ∨ NoReplay period clock) :
    |clock last - clock entry| < period := by
  have hleft := hback entry last hlast
  have hright : clock last < clock entry + period := by
    rcases hreplay with rfl | hreplay
    · exact hopen
    · by_cases hdip : clock entry < clock first
      · exact hreplay first entry last hfirst hlast hdip hopen
      · omega
  rw [abs_lt]
  exact ⟨by omega, by omega⟩

/-- On instants in order, the refusals of a run are justified by such a clock. -/
theorem refusals_justified_of_clock (hperiod : 0 < period) (hback : NeverFarBack period clock)
    (hreplay : R = 1 ∨ NoReplay period clock) {instants : List τ}
    (hsorted : instants.Pairwise (· ≤ ·)) :
    RefusalsJustified period (fun _ => R) clock instants := by
  intro before last after hsplit hrefused
  rcases Nat.eq_zero_or_pos R with rfl | hlimit
  · exact Nat.zero_le _
  obtain ⟨old, first, current, htrace, hfirst, hopen, _, hcount⟩ :=
    history_of_refused hperiod hlimit hrefused
  rw [hsplit, ← Mealy.trace_map_fst (step period (fun _ => R) clock) none before, htrace]
    at hsorted
  have hbetween := between_of_sorted hsorted
  rw [htrace, List.countP_append]
  refine le_trans ?_ (Nat.le_add_left _ _)
  rcases hreplay with rfl | hreplay
  · -- the request that opened the window was admitted, and is near
    refine List.countP_pos_iff.mpr ⟨first, List.mem_cons_self, ?_⟩
    obtain ⟨_, hlast⟩ := hbetween first List.mem_cons_self
    rw [hfirst, Bool.and_eq_true, decide_eq_true_eq, decide_eq_true_eq]
    exact ⟨hlimit, near_of_clock hback (le_refl _) hlast hopen (.inl rfl)⟩
  · refine le_trans hcount (le_of_eq (List.countP_congr fun entry hentry => ?_))
    obtain ⟨hstart, hlast⟩ := hbetween entry hentry
    have hnear := near_of_clock hback hstart hlast hopen (.inr hreplay)
    simp [hnear]

omit [LinearOrder τ] in
/-- A clock that falls back by a period or more: the limit is used up before, and refused after. -/
theorem not_justified_of_far_back (hperiod : 0 < period) (hlimit : 0 < R) {s t : τ}
    (hfall : clock t + period ≤ clock s) :
    ¬ RefusalsJustified period (fun _ => R) clock (List.replicate R s ++ [t]) := by
  intro h
  obtain ⟨htrace, hfinal⟩ :=
    @trace_opening τ period (fun _ => R) clock none s R hperiod (by simp) hlimit (le_refl R)
  have hopen : ¬ period ≤ clock t - (⟨R, clock s⟩ : Window).opened := by
    show ¬ period ≤ clock t - clock s
    omega
  have hrefused : step period (fun _ => R) clock (some ⟨R, clock s⟩) t =
      (false, some ⟨R, clock s⟩) := by
    rw [step_refused (by rw [look_open hopen]; exact Nat.lt_irrefl R), look_open hopen]
  have hjustified := h (List.replicate R s) t [] rfl (by rw [hfinal, hrefused])
  have hfar : ¬ |clock t - clock s| < period := by
    rw [abs_lt]
    omega
  rw [htrace, List.countP_replicate] at hjustified
  simp [hfar] at hjustified
  omega

omit [LinearOrder τ] in
/-- A clock that replays: one request before the step back and the rest of the limit after it are
admitted, and the next is refused with only the first of them near. -/
theorem not_justified_of_replay (hperiod : 0 < period) (hlimit : 1 < R) {s t u : τ}
    (hdip : clock t < clock s) (hopen : clock u < clock s + period)
    (hreplay : clock t + period ≤ clock u) :
    ¬ RefusalsJustified period (fun _ => R) clock (s :: List.replicate (R - 1) t ++ [u]) := by
  intro h
  have hstep : step period (fun _ => R) clock none s = (true, some ⟨1, clock s⟩) :=
    step_opening (Nat.zero_lt_of_lt hlimit) (by simp)
  obtain ⟨htrace, hfinal⟩ := @trace_replicate τ period (fun _ => R) clock ⟨1, clock s⟩ t (R - 1)
    (show ¬ period ≤ clock t - clock s by omega) (show 1 + (R - 1) ≤ R by omega)
  have hstays : ¬ period ≤ clock u - (⟨1 + (R - 1), clock s⟩ : Window).opened := by
    show ¬ period ≤ clock u - clock s
    omega
  have hfull : ¬ 1 + (R - 1) < R := by omega
  have hrefused : step period (fun _ => R) clock (some ⟨1 + (R - 1), clock s⟩) u =
      (false, some ⟨1 + (R - 1), clock s⟩) := by
    rw [step_refused (by rwa [look_open hstays]), look_open hstays]
  have hjustified := h (s :: List.replicate (R - 1) t) u [] rfl (by
    rw [Mealy.final_cons, hstep, hfinal, hrefused])
  have hfar : ¬ |clock u - clock t| < period := by
    rw [abs_lt]
    omega
  rw [Mealy.trace_cons, hstep, htrace, List.countP_cons, List.countP_replicate] at hjustified
  simp only [hfar, decide_false, Bool.and_false, Bool.false_eq_true, if_false] at hjustified
  split at hjustified <;> omega

/-- The refusals of all runs on instants in order are justified exactly when nothing is admitted at
all, or the clock never falls back by a period and, for limits above 1, never replays. -/
theorem refusals_justified_iff (hperiod : 0 < period) :
    (∀ instants : List τ, instants.Pairwise (· ≤ ·) →
      RefusalsJustified period (fun _ => R) clock instants) ↔
        R = 0 ∨ (NeverFarBack period clock ∧ (R = 1 ∨ NoReplay period clock)) := by
  constructor
  · intro h
    by_cases hzero : R = 0
    · exact .inl hzero
    · refine .inr ⟨fun s t hst => ?_, ?_⟩
      · by_contra hfall
        refine not_justified_of_far_back hperiod (Nat.pos_of_ne_zero hzero) (not_lt.mp hfall)
          (h _ ?_)
        simp [List.pairwise_append, List.pairwise_replicate, hst]
      · by_cases hone : R = 1
        · exact .inl hone
        · refine .inr fun s t u hst htu hdip hopen => ?_
          by_contra hreplay
          refine not_justified_of_replay hperiod (by omega) hdip hopen (not_lt.mp hreplay) (h _ ?_)
          have hlater : ∀ other ∈ List.replicate (R - 1) t ++ [u], s ≤ other := by
            simp only [List.mem_append, List.mem_replicate, List.mem_singleton]
            rintro other (⟨_, rfl⟩ | rfl)
            · exact hst
            · exact hst.trans htu
          rw [List.cons_append, List.pairwise_cons]
          exact ⟨hlater, by simp [List.pairwise_append, List.pairwise_replicate, htu]⟩
  · rintro (rfl | ⟨hback, hreplay⟩) instants hsorted
    · exact fun _ _ _ _ _ => Nat.zero_le _
    · exact refusals_justified_of_clock hperiod hback hreplay hsorted

end Clock

end FixedWindow
