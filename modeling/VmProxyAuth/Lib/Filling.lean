import Mathlib

/-!
# Filling a budget

Things of some size are taken from the front of a list as long as they fit into a budget; at the
first that does not fit the loop stops.  What is taken is a part of the list from its front
(`taken_append_rest`), and `le_length_taken_iff` says how much it is.
-/

universe u

namespace Filling

variable {α : Type u} (size : α → ℕ)

/-- The size of all things of a list. -/
def total (l : List α) : ℤ := (l.map (fun x => (size x : ℤ))).sum

/-- What fits into the budget, of which a part is used, and the rest from the first thing that
does not fit, if there is one. -/
def fill (budget : ℤ) : ℤ → List α → List α × Option (List α)
  | _, [] => ([], none)
  | used, x :: l =>
    if budget < used + size x then ([], some (x :: l))
    else
      let (taken, rest) := fill budget (used + size x) l
      (x :: taken, rest)

variable {size}

@[simp]
theorem total_nil :
  total size [] = 0
  := rfl

@[simp]
theorem total_cons (x : α) (l : List α) :
  total size (x :: l) = size x + total size l
  := rfl

theorem total_nonneg (l : List α) :
  0 ≤ total size l
  := by
  induction l with
  | nil => rfl
  | cons x l ih =>
    rw [total_cons]
    omega

theorem total_append (l l' : List α) :
  total size (l ++ l') = total size l + total size l'
  := by
  rw [total, List.map_append, List.sum_append]
  rfl

/-- More of a list is not smaller. -/
theorem total_take_mono (l : List α) {n k : ℕ} (h : n ≤ k) :
  total size (l.take n) ≤ total size (l.take k)
  := by
  have hsplit := List.take_append_drop n (l.take k)
  rw [List.take_take, min_eq_left h] at hsplit
  have hrest : 0 ≤ total size ((l.take k).drop n) := total_nonneg _
  rw [← hsplit, total_append]
  omega

variable {budget : ℤ}

theorem fill_cons_of_lt {used : ℤ} {x : α} (h : budget < used + size x) (l : List α) :
  fill size budget used (x :: l) = ([], some (x :: l))
  := by
  rw [fill, if_pos h]

theorem fill_cons_of_le {used : ℤ} {x : α} (h : used + size x ≤ budget) (l : List α) :
  fill size budget used (x :: l)
    = (x :: (fill size budget (used + size x) l).1, (fill size budget (used + size x) l).2)
  := by
  rw [fill, if_neg (not_lt.mpr h)]

/-- What is taken, followed by the rest, is the list. -/
theorem taken_append_rest (used : ℤ) (l : List α) :
  (fill size budget used l).1 ++ (fill size budget used l).2.getD [] = l
  := by
  induction l generalizing used with
  | nil => rfl
  | cons x l ih =>
    rcases lt_or_ge budget (used + size x) with hlt | hle
    · rw [fill_cons_of_lt hlt]
      rfl
    · rw [fill_cons_of_le hle, List.cons_append, ih]

/-- There is a rest exactly if not everything is taken. -/
theorem rest_eq_none_iff {used : ℤ} {l : List α} :
  (fill size budget used l).2 = none ↔ (fill size budget used l).1.length = l.length
  := by
  induction l generalizing used with
  | nil => simp [fill]
  | cons x l ih =>
    rcases lt_or_ge budget (used + size x) with hlt | hle
    · simp [fill_cons_of_lt hlt]
    · simp [fill_cons_of_le hle, ih]

/-- The first things, at least one, are taken exactly if they fit. -/
theorem le_length_taken_iff {used : ℤ} {l : List α} {n : ℕ} (hpos : 0 < n) (h : n ≤ l.length) :
  n ≤ (fill size budget used l).1.length ↔ used + total size (l.take n) ≤ budget
  := by
  induction l generalizing used n with
  | nil =>
    rw [List.length_nil] at h
    omega
  | cons x l ih =>
    obtain ⟨n, rfl⟩ : ∃ m, n = m + 1 := ⟨n - 1, by omega⟩
    have hrest : 0 ≤ total size (l.take n) := total_nonneg _
    rw [List.take_succ_cons, total_cons, ← add_assoc]
    rcases lt_or_ge budget (used + size x) with hlt | hle
    · rw [fill_cons_of_lt hlt]
      apply iff_of_false
      · simp
      · omega
    · rw [fill_cons_of_le hle, List.length_cons, Nat.succ_le_succ_iff]
      rcases Nat.eq_zero_or_pos n with rfl | hpos
      · simpa using hle
      · apply ih hpos (Nat.le_of_succ_le_succ h)

/-- What is taken is the front of the list. -/
theorem taken_eq_take (used : ℤ) (l : List α) :
  (fill size budget used l).1 = l.take (fill size budget used l).1.length
  := by
  have hsplit : (fill size budget used l).1 ++ (fill size budget used l).2.getD [] = l :=
    taken_append_rest used l
  have hfront := congrArg (List.take (fill size budget used l).1.length) hsplit
  rwa [List.take_left] at hfront

end Filling
