import Mathlib

/-!
# Streaks

Runs of equal observations in a sequence that grows at its end.  `streak x l` is the number
of `x` at the end of `l`, `RunEnds x k l p` says that `k` of them end at the position `p`.
`Lasting x m y n l` says that a run of `m` times `x` ends somewhere and no run of `n` times
`y` ends later; one more observation makes or ends it as `lasting_concat` says.

`changes` lists the steps of a sequence to another value, with both values.
-/

universe u

namespace Streaks

variable {α : Type u} [DecidableEq α]

/-- The number of `x` at the end. -/
def streak (x : α) (l : List α) : ℕ := (l.rtakeWhile (fun y => decide (y = x))).length

/-- A run of `k` times `x` ends at the position `p`. -/
def RunEnds (x : α) (k : ℕ) (l : List α) (p : ℕ) : Prop :=
  p ≤ l.length ∧ List.replicate k x <:+ l.take p

/-- A run of `m` times `x` ends at a position after which no run of `n` times `y` ends. -/
def Lasting (x : α) (m : ℕ) (y : α) (n : ℕ) (l : List α) : Prop :=
  ∃ p, RunEnds x m l p ∧ ∀ q, p < q → ¬ RunEnds y n l q

@[simp]
theorem streak_nil (x : α) :
  streak x [] = 0
  := rfl

@[simp]
theorem streak_concat_self (x : α) (l : List α) :
  streak x (l ++ [x]) = streak x l + 1
  := by
  rw [streak, List.rtakeWhile_concat_pos, List.length_append]
  · rfl
  · simp

theorem streak_concat_of_ne {x y : α} (h : y ≠ x) (l : List α) :
  streak x (l ++ [y]) = 0
  := by
  rw [streak, List.rtakeWhile_concat_neg]
  · rfl
  · simpa using h

theorem replicate_prefix_iff (x : α) (k : ℕ) (l : List α) :
  List.replicate k x <+: l ↔ k ≤ (l.takeWhile (fun y => decide (y = x))).length
  := by
  induction l generalizing k with
  | nil =>
    rw [List.prefix_nil, List.replicate_eq_nil_iff]
    simp
  | cons y l ih =>
    cases k with
    | zero => simp
    | succ k =>
      rw [List.replicate_succ, List.cons_prefix_cons, ih, List.takeWhile_cons]
      by_cases hxy : y = x
      · simp [hxy]
      · simp [hxy, Ne.symm hxy]

/-- A run ends at the end exactly when the streak is long enough. -/
theorem replicate_suffix_iff (x : α) (k : ℕ) (l : List α) :
  List.replicate k x <:+ l ↔ k ≤ streak x l
  := by
  rw [← List.reverse_prefix, List.reverse_replicate, replicate_prefix_iff, streak,
    List.rtakeWhile, List.length_reverse]

theorem runEnds_length (x : α) (k : ℕ) (l : List α) :
  RunEnds x k l l.length ↔ k ≤ streak x l
  := by
  rw [RunEnds, List.take_length, replicate_suffix_iff]
  apply and_iff_right (le_refl _)

omit [DecidableEq α] in
/-- What ends before the last observation does not depend on it. -/
theorem runEnds_concat (x : α) (k : ℕ) (l : List α) (y : α) {p : ℕ} (hp : p ≤ l.length) :
  RunEnds x k (l ++ [y]) p ↔ RunEnds x k l p
  := by
  rw [RunEnds, RunEnds, List.take_append_of_le_length hp, List.length_append]
  constructor
  · rintro ⟨-, h⟩
    exact ⟨hp, h⟩
  · rintro ⟨-, h⟩
    exact ⟨by omega, h⟩

theorem runEnds_concat_length (x : α) (k : ℕ) (l : List α) (y : α) :
  RunEnds x k (l ++ [y]) (l.length + 1) ↔ k ≤ streak x (l ++ [y])
  := by
  rw [← runEnds_length, List.length_append]
  rfl

theorem not_lasting_nil (x : α) {m : ℕ} (hm : 0 < m) (y : α) (n : ℕ) :
  ¬ Lasting x m y n []
  := by
  rintro ⟨p, ⟨-, hsuffix⟩, -⟩
  rw [List.take_nil, replicate_suffix_iff, streak_nil] at hsuffix
  omega

/-- One more observation completes a run of `m` times `x`, or it leaves what lasted unless it
completes a run of `n` times `y`. -/
theorem lasting_concat (x : α) (m : ℕ) (y : α) (n : ℕ) (l : List α) (z : α) :
  Lasting x m y n (l ++ [z]) ↔
    m ≤ streak x (l ++ [z]) ∨ Lasting x m y n l ∧ ¬ n ≤ streak y (l ++ [z])
  := by
  constructor
  · rintro ⟨p, hp, hlater⟩
    obtain hlt | heq : p ≤ l.length ∨ p = l.length + 1 := by
      have hle := hp.1
      rw [List.length_append, List.length_singleton] at hle
      omega
    · apply Or.inr
      constructor
      · use p, (runEnds_concat x m l z hlt).mp hp
        intro q hq hends
        apply hlater q hq
        apply (runEnds_concat y n l z hends.1).mpr hends
      · intro hn
        apply hlater (l.length + 1) (by omega)
        apply (runEnds_concat_length y n l z).mpr hn
    · apply Or.inl
      rw [heq] at hp
      apply (runEnds_concat_length x m l z).mp hp
  · rintro (hm | ⟨⟨p, hp, hlater⟩, hn⟩)
    · use l.length + 1, (runEnds_concat_length x m l z).mpr hm
      intro q hq hends
      have hle := hends.1
      rw [List.length_append, List.length_singleton] at hle
      omega
    · use p, (runEnds_concat x m l z hp.1).mpr hp
      intro q hq hends
      obtain hlt | heq : q ≤ l.length ∨ q = l.length + 1 := by
        have hle := hends.1
        rw [List.length_append, List.length_singleton] at hle
        omega
      · apply hlater q hq
        apply (runEnds_concat y n l z hlt).mp hends
      · apply hn
        rw [heq] at hends
        apply (runEnds_concat_length y n l z).mp hends

/-! ### Changes -/

/-- The steps to another value. -/
def changes : List α → List (α × α)
  | [] => []
  | [_] => []
  | x :: y :: l => if x = y then changes (y :: l) else (x, y) :: changes (y :: l)

/-- Each change starts from the value the one before it ends with, the first one from `x`, and
ends with another value. -/
def Chained : α → List (α × α) → Prop
  | _, [] => True
  | x, (old, new) :: l => old = x ∧ new ≠ x ∧ Chained new l

/-- The changes of a sequence that is one value longer. -/
theorem changes_concat :
    ∀ (l : List α) (x y : α),
      changes (l ++ [x] ++ [y]) = changes (l ++ [x]) ++ if x = y then [] else [(x, y)]
  | [], x, y => by
      simp only [List.nil_append, List.singleton_append, changes]
  | [z], x, y => by
      simp only [List.cons_append, List.nil_append, changes]
      split
      · rfl
      · rfl
  | z :: w :: l, x, y => by
      have ih := changes_concat (w :: l) x y
      simp only [List.cons_append, changes] at ih ⊢
      split
      · apply ih
      · rw [ih]
        rfl

/-- The changes of a sequence follow one another from its first value. -/
theorem chained_changes (x : α) (l : List α) :
  Chained x (changes (x :: l))
  := by
  induction l generalizing x with
  | nil => trivial
  | cons y l ih =>
    rw [changes]
    split
    · rename_i hxy
      rw [hxy]
      apply ih
    · rename_i hxy
      exact ⟨rfl, Ne.symm hxy, ih y⟩

end Streaks
