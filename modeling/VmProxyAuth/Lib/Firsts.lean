import Mathlib

/-!
# First occurrences

`firsts key l` is the loop that goes over a list and keeps an element unless one with the same
key has been kept.  Every key that occurs is kept once (`mem_map_firsts`, `nodup_map_firsts`),
in the order of the list (`firsts_sublist`).  All elements are kept exactly if different ones
have different keys (`forall_mem_firsts_iff`); then each is kept at its first occurrence
(`pairwise_idxOf_firsts`).
-/

universe u v

section

variable {α : Type u} {κ : Type v} [DecidableEq κ] {key : α → κ}

/-- The elements whose key has not occurred before, in order. -/
def firsts (key : α → κ) (l : List α) : List α :=
  l.foldl (fun result x => if key x ∈ result.map key then result else result ++ [x]) []

theorem firsts_append_singleton (l : List α) (x : α) :
  firsts key (l ++ [x])
    = if key x ∈ (firsts key l).map key then firsts key l else firsts key l ++ [x]
  := List.foldl_concat ..

theorem firsts_sublist (l : List α) :
  (firsts key l).Sublist l
  := by
  induction l using List.reverseRecOn with
  | nil => apply List.Sublist.refl
  | append_singleton l x ih =>
    rw [firsts_append_singleton]
    split
    · apply ih.trans (List.sublist_append_left l [x])
    · apply ih.append_right

/-- Every key that occurs is kept. -/
theorem mem_map_firsts {l : List α} {k : κ} :
  k ∈ (firsts key l).map key ↔ k ∈ l.map key
  := by
  induction l using List.reverseRecOn with
  | nil => rfl
  | append_singleton l x ih =>
    rw [firsts_append_singleton, List.map_append, List.mem_append, ← ih]
    split
    · rename_i hx
      rw [List.map_singleton, List.mem_singleton]
      constructor
      · exact Or.inl
      · rintro (hk | rfl)
        · exact hk
        · exact hx
    · rw [List.map_append, List.mem_append]

/-- No key is kept twice. -/
theorem nodup_map_firsts (l : List α) :
  ((firsts key l).map key).Nodup
  := by
  induction l using List.reverseRecOn with
  | nil => apply List.nodup_nil
  | append_singleton l x ih =>
    rw [firsts_append_singleton]
    split
    · apply ih
    · rename_i hx
      rw [List.map_append, List.map_singleton, ← List.concat_eq_append]
      apply ih.concat hx

/-- All elements are kept exactly if different ones have different keys. -/
theorem forall_mem_firsts_iff {l : List α} :
  (∀ x ∈ l, x ∈ firsts key l) ↔ ∀ x ∈ l, ∀ y ∈ l, key x = key y → x = y
  := by
  constructor
  · intro h x hx y hy hkey
    apply List.inj_on_of_nodup_map (nodup_map_firsts l) (h x hx) (h y hy) hkey
  · intro h x hx
    have hkey := mem_map_firsts.mpr (List.mem_map_of_mem (f := key) hx)
    obtain ⟨y, hy, heq⟩ := List.mem_map.mp hkey
    rw [← h y ((firsts_sublist l).subset hy) x hx heq]
    apply hy

/-- If different elements have different keys, each is kept at its first occurrence. -/
theorem pairwise_idxOf_firsts [DecidableEq α] {l : List α}
    (h : ∀ x ∈ l, ∀ y ∈ l, key x = key y → x = y) :
  (firsts key l).Pairwise (fun x y => l.idxOf x < l.idxOf y)
  := by
  induction l using List.reverseRecOn with
  | nil => apply List.Pairwise.nil
  | append_singleton l x ih =>
    have hbefore : ∀ y ∈ l, (l ++ [x]).idxOf y = l.idxOf y :=
      fun y hy => List.idxOf_append_of_mem hy
    have hkept : (firsts key l).Pairwise
        (fun y z => (l ++ [x]).idxOf y < (l ++ [x]).idxOf z) := by
      apply List.Pairwise.imp_of_mem _ (ih _)
      · intro y z hy hz hlt
        rw [hbefore y ((firsts_sublist l).subset hy), hbefore z ((firsts_sublist l).subset hz)]
        apply hlt
      · intro y hy z hz
        apply h y (List.mem_append_left _ hy) z (List.mem_append_left _ hz)
    rw [firsts_append_singleton]
    split
    · apply hkept
    · rename_i hx
      have hnew : x ∉ l := by
        intro hmem
        apply hx (mem_map_firsts.mpr (List.mem_map_of_mem hmem))
      apply List.pairwise_append.mpr
      refine ⟨hkept, List.pairwise_singleton _ _, ?_⟩
      intro y hy z hz
      obtain rfl := List.mem_singleton.mp hz
      have hmem := (firsts_sublist l).subset hy
      rw [hbefore y hmem, List.idxOf_append_of_notMem hnew]
      have := List.idxOf_lt_length_of_mem hmem
      omega

end
