import Mathlib

/-!
# Rotations

Positions in a list that follow one another modulo its length.  As many of them as the list
is long pick every entry of the list exactly once.
-/

universe u

namespace Rotation

variable {α : Type u}

/-- Each of the positions is the one after the position before it, modulo `n`. -/
def Successive (n : ℕ) (positions : List ℕ) : Prop :=
  positions.IsChain (fun i j => j = (i + 1) % n)

/-- The positions that follow `i` are determined by it. -/
theorem getElem_of_successive {n i : ℕ} {positions : List ℕ} (hi : i < n)
    (h : Successive n (i :: positions)) (k : ℕ) (hk : k < (i :: positions).length) :
  (i :: positions)[k] = (i + k) % n
  := by
  induction k generalizing i positions with
  | zero => exact (Nat.mod_eq_of_lt hi).symm
  | succ k ih =>
    cases positions with
    | nil => simp at hk
    | cons j positions =>
      obtain ⟨hj, hrest⟩ := List.isChain_cons_cons.mp h
      have hlt : j < n := hj ▸ Nat.mod_lt _ (by omega)
      rw [List.getElem_cons_succ, ih hlt hrest, hj, Nat.mod_add_mod, Nat.add_assoc,
        Nat.add_comm 1 k]

/-- As many positions as there are entries, each after the one before it, are a rotation of
the list. -/
theorem map_eq_rotate {l : List α} {i : ℕ} {positions : List ℕ} (hi : i < l.length)
    (h : Successive l.length (i :: positions)) (hlength : (i :: positions).length = l.length) :
  (i :: positions).map (fun j => l[j]?) = (l.rotate i).map some
  := by
  apply List.ext_getElem
  · rw [List.length_map, List.length_map, List.length_rotate, hlength]
  · intro k hk _
    rw [List.length_map] at hk
    have hlt : (i + k) % l.length < l.length := Nat.mod_lt _ (by omega)
    rw [List.getElem_map, List.getElem_map, getElem_of_successive hi h, List.getElem_rotate,
      List.getElem?_eq_getElem hlt]
    simp only [Nat.add_comm]

/-- As many positions as there are entries, each after the one before it, pick each entry
once. -/
theorem map_perm {l : List α} {positions : List ℕ} (hbound : ∀ i ∈ positions, i < l.length)
    (h : Successive l.length positions) (hlength : positions.length = l.length) :
  (positions.map (fun j => l[j]?)).Perm (l.map some)
  := by
  cases positions with
  | nil =>
    obtain rfl : l = [] := List.length_eq_zero_iff.mp hlength.symm
    apply List.Perm.refl
  | cons i positions =>
    rw [map_eq_rotate (hbound i List.mem_cons_self) h hlength]
    apply (List.rotate_perm l i).map

end Rotation
