import Mathlib

/-!
# Instants and durations

Instants and durations of the package `time` are integers that count nanoseconds, the
instants from the Unix epoch on.  A duration is a signed 64-bit number, and the
difference of two instants is cut to that range.
-/

namespace Clock

/-- One second. -/
def second : ℤ := 1000000000

/-- The longest duration. -/
def longest : ℤ := 2 ^ 63 - 1

/-- `t.Unix()`: the whole seconds since the epoch. -/
def unix (t : ℤ) : ℤ := t / second

/-- `now.Sub(t)`: the difference, cut to the range of durations. -/
def sub (now t : ℤ) : ℤ := max (-2 ^ 63) (min longest (now - t))

/-- An instant is in second `e` or before exactly when it is before second `e + 1`. -/
theorem unix_le_iff {t e : ℤ} :
  unix t ≤ e ↔ t < (e + 1) * second
  := by
  simp only [unix, second]
  omega

/-- Time spent grows with the clock. -/
theorem sub_mono {now now' t : ℤ} (h : now ≤ now') :
  sub now t ≤ sub now' t
  := by
  simp only [sub, longest]
  omega

/-- Every duration but the longest is eventually exceeded. -/
theorem exists_sub_gt (now t : ℤ) {d : ℤ} (h : d < longest) :
  ∃ now', now ≤ now' ∧ d < sub now' t
  := by
  use max now (t + longest)
  simp only [sub, longest] at h ⊢
  omega

theorem sub_le_longest (now t : ℤ) :
  sub now t ≤ longest
  := by
  simp only [sub, longest]
  omega

end Clock
