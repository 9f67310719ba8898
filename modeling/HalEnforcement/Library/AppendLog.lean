import Mathlib.Data.List.Perm.Basic

/-!
# Newest entries of an append-only log

A log of timed entries that is queried from its end, up to a limit. `newest_first_iff` says that the
queries of a log return its newest entries first exactly when the log is sorted by time.
-/

namespace AppendLog

variable {ε τ : Type*} [LE τ] (time : ε → τ)

/-- The entries stand in the order of their times. -/
def Chronological (log : List ε) : Prop :=
  log.Pairwise fun earlier later => time earlier ≤ time later

/-- The last `limit` entries, the last one first. -/
def query (log : List ε) (limit : Nat) : List ε := log.reverse.take limit

/-- What a query returned is in descending order, and no entry it left out is newer. -/
def NewestFirst (log returned : List ε) : Prop :=
  (returned.Pairwise fun first second => time second ≤ time first) ∧
    ∀ leftOut, (returned ++ leftOut).Perm log →
      ∀ old ∈ leftOut, ∀ new ∈ returned, time old ≤ time new

variable {time}

theorem chronological_concat {log : List ε} {entry : ε} :
    Chronological time (log ++ [entry]) ↔
      Chronological time log ∧ ∀ earlier ∈ log, time earlier ≤ time entry := by
  simp [Chronological, List.pairwise_append]

theorem Chronological.filter {log : List ε} (h : Chronological time log) (keep : ε → Bool) :
    Chronological time (log.filter keep) :=
  List.Pairwise.filter keep h

theorem newest_first_of_chronological {log : List ε} (h : Chronological time log) (limit : Nat) :
    NewestFirst time log (query log limit) := by
  have hreverse : log.reverse.Pairwise fun first second => time second ≤ time first :=
    List.pairwise_reverse.mpr h
  have hsplit := hreverse
  rw [← List.take_append_drop limit log.reverse, List.pairwise_append] at hsplit
  refine ⟨hsplit.1, fun leftOut hperm old hold new hnew => ?_⟩
  -- what is left out is what the limit drops
  have hdrop : leftOut.Perm (log.reverse.drop limit) := by
    refine (List.perm_append_left_iff (log.reverse.take limit)).mp ?_
    rw [List.take_append_drop]
    exact hperm.trans log.reverse_perm.symm
  exact hsplit.2.2 new hnew old (hdrop.mem_iff.mp hold)

theorem chronological_of_newest_first {log : List ε}
    (h : NewestFirst time log (query log log.length)) : Chronological time log := by
  have hreverse := h.1
  rw [query, List.take_of_length_le (by simp), List.pairwise_reverse] at hreverse
  exact hreverse

/-- All queries are newest first when the log is chronological, and only then. -/
theorem newest_first_iff {log : List ε} :
    (∀ limit, NewestFirst time log (query log limit)) ↔ Chronological time log :=
  ⟨fun h => chronological_of_newest_first (h _), fun h => newest_first_of_chronological h⟩

end AppendLog
