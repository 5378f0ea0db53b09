import Mathlib

/-!
# Smooth weighted round robin

Each of finitely many parties has a positive weight and a current weight.  In a turn all
current weights are raised by the weights, a party with the largest one is picked, and the
total of the weights is taken from it.  From current weights that are all zero, every round of
as many turns as the total picks each party as often as its weight says, whatever the choice
between equals, and ends with all current weights zero again.
-/

universe u

namespace SmoothRobin

variable {ι : Type u} [Fintype ι]

/-- The total of the weights. -/
def total (w : ι → ℤ) : ℤ := ∑ i, w i

/-- A party with the largest current weight after all are raised. -/
def IsBest (w current : ι → ℤ) (i : ι) : Prop := ∀ j, current j + w j ≤ current i + w i

/-- The current weights sum up to zero, and each of them is above the total taken from zero. -/
structure Balanced (w current : ι → ℤ) : Prop where
  sum_eq : ∑ i, current i = 0
  neg_total_lt : ∀ i, -total w < current i

section

variable {w current : ι → ℤ}

theorem total_pos [Nonempty ι] (hw : ∀ i, 0 < w i) :
  0 < total w
  := Finset.sum_pos (fun i _ => hw i) Finset.univ_nonempty

theorem balanced_zero [Nonempty ι] (hw : ∀ i, 0 < w i) :
  Balanced w 0
  := by
  constructor
  · apply Finset.sum_const_zero
  · intro i
    have hpos := total_pos hw
    change -total w < 0
    omega

/-- The raised weights sum up to the total. -/
theorem Balanced.sum_raised (h : Balanced w current) :
  ∑ i, (current i + w i) = total w
  := by
  rw [Finset.sum_add_distrib, h.sum_eq, zero_add, total]

/-- The largest raised weight is positive. -/
theorem Balanced.raised_pos [Nonempty ι] (h : Balanced w current) (hw : ∀ i, 0 < w i) {i : ι}
    (hbest : IsBest w current i) :
  0 < current i + w i
  := by
  by_contra hnonpos
  have hsum : ∑ j, (current j + w j) ≤ 0 := by
    apply Finset.sum_nonpos
    intro j _
    have hj := hbest j
    omega
  have hpos := total_pos hw
  rw [h.sum_raised] at hsum
  omega

end

variable [DecidableEq ι]

/-- The current weights after a turn that picks `i`. -/
def next (w current : ι → ℤ) (i : ι) : ι → ℤ :=
  fun j => current j + w j - if j = i then total w else 0

section

variable {w current : ι → ℤ}

/-- A turn keeps the current weights balanced. -/
theorem Balanced.next [Nonempty ι] (h : Balanced w current) (hw : ∀ i, 0 < w i) {i : ι}
    (hbest : IsBest w current i) :
  Balanced w (next w current i)
  := by
  constructor
  · simp only [SmoothRobin.next]
    rw [Finset.sum_sub_distrib, h.sum_raised, Finset.sum_ite_eq' Finset.univ i,
      if_pos (Finset.mem_univ i), sub_self]
  · intro j
    have hj := h.neg_total_lt j
    have hwj := hw j
    have hpos := h.raised_pos hw hbest
    simp only [SmoothRobin.next]
    split
    · rename_i hji
      rw [hji]
      omega
    · omega

/-- No raised weight is above the total times the number of parties. -/
theorem Balanced.raised_le (h : Balanced w current) (hw : ∀ i, 0 < w i) (i : ι) :
  current i + w i ≤ Fintype.card ι * total w
  := by
  have hsum := h.sum_raised
  rw [← Finset.add_sum_erase Finset.univ _ (Finset.mem_univ i)] at hsum
  -- each of the others takes at most the total away
  have hothers : ∑ j ∈ Finset.univ.erase i, -total w
      ≤ ∑ j ∈ Finset.univ.erase i, (current j + w j) := by
    apply Finset.sum_le_sum
    intro j _
    have hj := h.neg_total_lt j
    have hwj := hw j
    omega
  have hcard : 1 ≤ Fintype.card ι := Fintype.card_pos_iff.mpr ⟨i⟩
  rw [Finset.sum_const, Finset.card_erase_of_mem (Finset.mem_univ i), Finset.card_univ,
    nsmul_eq_mul] at hothers
  push_cast [hcard] at hothers
  linarith

end

/-! ### Runs -/

/-- Turn after turn from current weights that are all zero. -/
structure IsRun (w : ι → ℤ) (current : ℕ → ι → ℤ) (pick : ℕ → ι) : Prop where
  current_zero : current 0 = 0
  best : ∀ t, IsBest w (current t) (pick t)
  current_succ : ∀ t, current (t + 1) = next w (current t) (pick t)

/-- How often a party is picked in the `n` turns from `start` on. -/
def picks (pick : ℕ → ι) (start n : ℕ) (i : ι) : ℕ :=
  ((Finset.range n).filter (fun t => pick (start + t) = i)).card

omit [Fintype ι] in
theorem picks_succ (pick : ℕ → ι) (start n : ℕ) (i : ι) :
  picks pick start (n + 1) i = picks pick start n i + if pick (start + n) = i then 1 else 0
  := by
  rw [picks, picks, Finset.range_add_one, Finset.filter_insert]
  split
  · rw [Finset.card_insert_of_notMem (by simp)]
  · rw [add_zero]

/-- Every turn picks one party. -/
theorem sum_picks (pick : ℕ → ι) (start n : ℕ) :
  ∑ i, picks pick start n i = n
  := by
  have hfibres := Finset.card_eq_sum_card_fiberwise (s := Finset.range n) (t := Finset.univ)
    (f := fun t => pick (start + t)) (fun t _ => Finset.mem_univ _)
  rw [Finset.card_range] at hfibres
  apply hfibres.symm

section

variable {w : ι → ℤ} {current : ℕ → ι → ℤ} {pick : ℕ → ι}

theorem IsRun.balanced [Nonempty ι] (h : IsRun w current pick) (hw : ∀ i, 0 < w i) (t : ℕ) :
  Balanced w (current t)
  := by
  induction t with
  | zero =>
    rw [h.current_zero]
    apply balanced_zero hw
  | succ t ih =>
    rw [h.current_succ]
    apply ih.next hw (h.best t)

/-- What the picks so far have made of the current weights. -/
theorem IsRun.current_add (h : IsRun w current pick) (start n : ℕ) (i : ι) :
  current (start + n) i = current start i + n * w i - total w * picks pick start n i
  := by
  induction n with
  | zero => simp [picks]
  | succ n ih =>
    rw [← Nat.add_assoc, h.current_succ, next, ih, picks_succ]
    by_cases hi : pick (start + n) = i
    · rw [if_pos hi.symm, if_pos hi]
      push_cast
      ring
    · rw [if_neg (Ne.symm hi), if_neg hi]
      push_cast
      ring

/-- A round that starts from zero picks each party as often as its weight says. -/
theorem IsRun.picks_round [Nonempty ι] (h : IsRun w current pick) (hw : ∀ i, 0 < w i)
    {start : ℕ} (hstart : current start = 0) (i : ι) :
  (picks pick start (total w).toNat i : ℤ) = w i
  := by
  have hpos := total_pos hw
  have htotal : (((total w).toNat : ℕ) : ℤ) = total w := Int.toNat_of_nonneg hpos.le
  -- nobody is picked more often than its weight says, as its current weight stays above
  have hle : ∀ j ∈ Finset.univ, (picks pick start (total w).toNat j : ℤ) ≤ w j := by
    intro j _
    have hlow := (h.balanced hw (start + (total w).toNat)).neg_total_lt j
    rw [h.current_add, hstart, htotal] at hlow
    by_contra hlt
    have hge : w j + 1 ≤ (picks pick start (total w).toNat j : ℤ) := by omega
    have hmul := mul_le_mul_of_nonneg_left hge hpos.le
    rw [mul_add, mul_one] at hmul
    simp only [Pi.zero_apply] at hlow
    linarith
  have hsum : ∑ j, (picks pick start (total w).toNat j : ℤ) = ∑ j, w j := by
    rw [← Nat.cast_sum, sum_picks, htotal, total]
  apply (Finset.sum_eq_sum_iff_of_le hle).mp hsum i (Finset.mem_univ i)

/-- Every round ends with current weights that are all zero. -/
theorem IsRun.current_round [Nonempty ι] (h : IsRun w current pick) (hw : ∀ i, 0 < w i)
    (round : ℕ) :
  current (round * (total w).toNat) = 0
  := by
  induction round with
  | zero => rw [Nat.zero_mul, h.current_zero]
  | succ round ih =>
    have hpos := total_pos hw
    funext i
    rw [Nat.add_mul, Nat.one_mul, h.current_add, ih, h.picks_round hw ih,
      Int.toNat_of_nonneg hpos.le]
    simp

end

end SmoothRobin
