import Mathlib

/-!
# Exchange sort

The sort by two nested loops

    for i := 0; i < len(l); i++ {
      for j := i + 1; j < len(l); j++ {
        if l[i] > l[j] {
          l[i], l[j] = l[j], l[i]
        }
      }
    }

After the inner loop the entry at `i` is at most every entry behind it, and the entries before it
are as they were.  So the list is sorted at the end (`pairwise_exchangeSort`), and it has the
entries it had (`perm_exchangeSort`).
-/

/-- What every round of a loop over the numbers from `a` on preserves holds at its end. -/
theorem List.foldl_range'_induction {β : Type*} {P : ℕ → β → Prop} {f : β → ℕ → β} {n a : ℕ} {b : β}
    (hb : P a b) (hstep : ∀ k b, a ≤ k → k < a + n → P k b → P (k + 1) (f b k)) :
  P (a + n) ((List.range' a n).foldl f b)
  := by
  induction n generalizing a b with
  | zero => apply hb
  | succ n ih =>
    rw [List.range'_succ, List.foldl_cons, ← Nat.succ_add_eq_add_succ]
    apply ih
    · apply hstep a b le_rfl (by omega) hb
    · intro k b hak hk
      apply hstep k b (by omega) (by omega)

namespace ExchangeSort

variable {α : Type*} [LT α] [DecidableLT α]

/-- Exchange two entries that are out of order. -/
def exchange (i : ℕ) (l : List α) (j : ℕ) : List α :=
  match l[i]?, l[j]? with
  | some x, some y => if y < x then (l.set i y).set j x else l
  | _, _ => l

/-- The inner loop. -/
def pass (l : List α) (i : ℕ) : List α :=
  (List.range' (i + 1) (l.length - (i + 1))).foldl (exchange i) l

/-- The outer loop. -/
def exchangeSort (l : List α) : List α := (List.range' 0 l.length).foldl pass l

/-! ### The entries -/

theorem perm_exchange (i : ℕ) (l : List α) (j : ℕ) :
  (exchange i l j).Perm l
  := by
  rw [exchange]
  split
  · rename_i x y hx hy
    obtain ⟨hi, rfl⟩ := List.getElem?_eq_some_iff.mp hx
    obtain ⟨hj, rfl⟩ := List.getElem?_eq_some_iff.mp hy
    split_ifs
    · apply List.set_set_perm hi hj
    · apply List.Perm.refl
  · apply List.Perm.refl

theorem perm_pass (l : List α) (i : ℕ) :
  (pass l i).Perm l
  := by
  rw [pass]
  apply List.foldl_range'_induction (P := fun _ l' => List.Perm l' l) (List.Perm.refl l)
  intro k l' _ _ hl'
  apply (perm_exchange i l' k).trans hl'

/-- The sorted list has the entries of the list. -/
theorem perm_exchangeSort (l : List α) :
  (exchangeSort l).Perm l
  := by
  rw [exchangeSort]
  apply List.foldl_range'_induction (P := fun _ l' => List.Perm l' l) (List.Perm.refl l)
  intro k l' _ _ hl'
  apply (perm_pass l' k).trans hl'

/-! ### Their order -/

section

variable [LE α]

/-- The entry at `i` is at most the entries behind it, up to `n`. -/
def Below (l : List α) (i n : ℕ) : Prop :=
  ∀ k x y, i < k → k < n → l[i]? = some x → l[k]? = some y → x ≤ y

variable [Std.IsLinearOrder α] [Std.LawfulOrderLT α] {l : List α} {i j : ℕ}

/-- The entries after an exchange: the lesser of the two comes first. -/
theorem exists_exchange (hij : i < j) (hj : j < l.length) :
  ∃ x y, x ≤ y ∧ (l[i]? = some x ∧ l[j]? = some y ∨ l[i]? = some y ∧ l[j]? = some x) ∧
    ∀ k, (exchange i l j)[k]? = if k = i then some x else if k = j then some y else l[k]?
  := by
  have hi : i < l.length := hij.trans hj
  have hx : l[i]? = some l[i] := List.getElem?_eq_getElem hi
  have hy : l[j]? = some l[j] := List.getElem?_eq_getElem hj
  rw [exchange, hx, hy]
  dsimp only
  split_ifs with hlt
  · refine ⟨l[j], l[i], Std.le_of_lt hlt, Or.inr ⟨rfl, rfl⟩, ?_⟩
    intro k
    simp only [List.getElem?_set, List.length_set]
    split_ifs <;> first | rfl | omega
  · refine ⟨l[i], l[j], Std.not_lt.mp hlt, Or.inl ⟨rfl, rfl⟩, ?_⟩
    intro k
    split_ifs with hki hkj
    · rw [hki, hx]
    · rw [hkj, hy]
    · rfl

/-- An exchange brings one more entry behind the one at `i` in order. -/
theorem below_exchange (h : Below l i j) (hij : i < j) (hj : j < l.length) :
  Below (exchange i l j) i (j + 1)
  := by
  obtain ⟨x, y, hle, hold, hnew⟩ := exists_exchange hij hj
  intro k a b hik hk ha hb
  rw [hnew, if_pos rfl] at ha
  obtain rfl := Option.some.inj ha
  rw [hnew, if_neg hik.ne'] at hb
  split_ifs at hb with hkj
  · obtain rfl := Option.some.inj hb
    apply hle
  · have hkj' : k < j := by omega
    obtain ⟨hx, -⟩ | ⟨hy, -⟩ := hold
    · apply h k x b hik hkj' hx hb
    · apply Std.le_trans hle (h k y b hik hkj' hy hb)

/-- An exchange behind an entry leaves it at most what is behind it. -/
theorem below_exchange_of_lt {p n : ℕ} (h : Below l p n) (hp : p < i) (hij : i < j) (hn : j < n)
    (hj : j < l.length) :
  Below (exchange i l j) p n
  := by
  obtain ⟨x, y, -, hold, hnew⟩ := exists_exchange hij hj
  intro k a b hpk hk ha hb
  rw [hnew, if_neg (by omega), if_neg (by omega)] at ha
  -- Both entries that are exchanged are behind `p`.
  have hbehind : ∀ {z}, l[i]? = some z ∨ l[j]? = some z → a ≤ z := by
    rintro z (hz | hz)
    · apply h i a z hp (hij.trans hn) ha hz
    · apply h j a z (hp.trans hij) hn ha hz
  rw [hnew] at hb
  split_ifs at hb
  · obtain rfl := Option.some.inj hb
    apply hbehind (hold.imp And.left And.right)
  · obtain rfl := Option.some.inj hb
    apply hbehind (hold.symm.imp And.left And.right)
  · apply h k a b hpk hk ha hb

/-- The entries before `i` are in place. -/
def Placed (l : List α) (i : ℕ) : Prop := ∀ p < i, Below l p l.length

/-- The inner loop puts one more entry in place. -/
theorem placed_pass (h : Placed l i) (hi : i < l.length) :
  Placed (pass l i) (i + 1)
  := by
  have hloop : (pass l i).length = l.length ∧ Placed (pass l i) i ∧
      Below (pass l i) i (i + 1 + (l.length - (i + 1))) := by
    rw [pass]
    apply List.foldl_range'_induction
      (P := fun j l' => List.length l' = l.length ∧ Placed l' i ∧ Below l' i j)
    · refine ⟨rfl, h, ?_⟩
      intro k x y hik hk
      omega
    · rintro j l' hij hj ⟨hlength, hplaced, hbelow⟩
      have hj' : j < l'.length := by omega
      have hlength' : (exchange i l' j).length = l'.length := (perm_exchange i l' j).length_eq
      refine ⟨hlength'.trans hlength, ?_, below_exchange hbelow hij hj'⟩
      intro p hp
      rw [hlength']
      apply below_exchange_of_lt (hplaced p hp) hp hij hj' hj'
  obtain ⟨hlength, hplaced, hbelow⟩ := hloop
  intro p hp
  rcases Nat.lt_succ_iff_lt_or_eq.mp hp with hlt | rfl
  · apply hplaced p hlt
  · rw [hlength]
    rw [Nat.add_sub_cancel' (Nat.succ_le_of_lt hi)] at hbelow
    apply hbelow

/-- The sorted list is sorted. -/
theorem pairwise_exchangeSort (l : List α) :
  (exchangeSort l).Pairwise (· ≤ ·)
  := by
  have hloop : (exchangeSort l).length = l.length ∧ Placed (exchangeSort l) (0 + l.length) := by
    rw [exchangeSort]
    apply List.foldl_range'_induction
      (P := fun i l' => List.length l' = l.length ∧ Placed l' i)
    · refine ⟨rfl, ?_⟩
      intro p hp
      cases hp
    · rintro i l' - hi ⟨hlength, hplaced⟩
      use (perm_pass l' i).length_eq.trans hlength
      apply placed_pass hplaced (by omega)
  obtain ⟨hlength, hplaced⟩ := hloop
  rw [List.pairwise_iff_getElem]
  intro i j hi hj hij
  apply hplaced i (by omega) j _ _ hij hj
  · apply List.getElem?_eq_getElem
  · apply List.getElem?_eq_getElem

end

end ExchangeSort
