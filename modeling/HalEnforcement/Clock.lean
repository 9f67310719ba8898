import Mathlib.Data.Int.Notation

/-!
# Clock readings

A `chrono::DateTime<Utc>` is an `Int`, the number of nanoseconds since the Unix epoch, and a
`TimeDelta` is a difference of two of them. `Utc::now()` is the wall clock, so a reading is an
arbitrary integer and nothing orders two readings. The module gives the two `chrono` operations
the service uses, `TimeDelta::num_seconds` and `Duration::hours`.
-/

namespace HalEnforcement

/-- One second in nanoseconds. -/
def second : Int := 1000000000

/-- `TimeDelta::num_seconds`: whole seconds, truncated toward zero. -/
def numSeconds (delta : Int) : Int := delta.tdiv second

/-- `Duration::hours`. -/
def hours (count : Int) : Int := count * 3600 * second

theorem second_pos : 0 < second := by decide

/-- Truncation does not move the one-second threshold. -/
theorem one_le_num_seconds (delta : Int) : 1 ≤ numSeconds delta ↔ second ≤ delta := by
  unfold numSeconds second
  rcases Int.le_total 0 delta with hpos | hneg
  · rw [Int.tdiv_eq_ediv_of_nonneg hpos]
    omega
  · have hflip : Int.tdiv delta 1000000000 = -(-delta / 1000000000) := by
      rw [← Int.tdiv_eq_ediv_of_nonneg (by omega), Int.neg_tdiv, Int.neg_neg]
    rw [hflip]
    omega

end HalEnforcement
