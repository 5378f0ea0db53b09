import Mathlib

/-!
# Splitting text

`String.splitOn` with a separator of one character is `List.splitOn` on the characters of the text
(`splitOn_ofList_singleton`).  Behind a first part without the separator, the rest is split, and
joined again it is the rest (`splitOn_append`).
-/

namespace SplitOn

open String

/-- The loop of `splitOn`, behind the part `m` it has passed since the last separator. -/
theorem splitOnAux_singleton (c : Char) (l m r : List Char) (acc : List String) :
  splitOnAux (ofList (l ++ m ++ r)) (ofList [c]) ⟨utf8Len l⟩ ⟨utf8Len l + utf8Len m⟩ 0 acc
    = acc.reverse ++ (List.splitOnPPrepend (· == c) r m.reverse).map ofList
  := by
  have hlength : ∀ l m, utf8Len l + utf8Len m = utf8Len (l ++ m) := by
    intro l m
    rw [utf8Len_append]
  induction r generalizing l m acc with
  | nil =>
    have hend : Pos.Raw.atEnd (ofList (l ++ m ++ [])) ⟨utf8Len l + utf8Len m⟩ = true := by
      rw [hlength, atEnd_of_valid]
    rw [splitOnAux, if_pos hend, extract_of_valid l m [], List.splitOnPPrepend_nil]
    simp
  | cons b r ih =>
    have hend : ¬ Pos.Raw.atEnd (ofList (l ++ m ++ b :: r)) ⟨utf8Len l + utf8Len m⟩ = true := by
      rw [hlength, atEnd_of_valid]
      apply List.cons_ne_nil
    have hget : Pos.Raw.get (ofList (l ++ m ++ b :: r)) ⟨utf8Len l + utf8Len m⟩ = b := by
      rw [hlength, get_of_valid, List.headD_cons]
    have hnext : Pos.Raw.next (ofList (l ++ m ++ b :: r)) ⟨utf8Len l + utf8Len m⟩
        = ⟨utf8Len l + utf8Len m + b.utf8Size⟩ := by
      rw [hlength, next_of_valid]
    have hsep : Pos.Raw.get (ofList [c]) 0 = c := get_of_valid [] [c]
    rw [splitOnAux, if_neg hend, hget, hsep, List.splitOnPPrepend_cons_eq_if]
    by_cases hb : b = c
    · subst hb
      have hsepNext : Pos.Raw.next (ofList [b]) 0 = ⟨b.utf8Size⟩ := by
        have hvalid := next_of_valid [] b []
        rw [utf8Len_nil, Nat.zero_add] at hvalid
        exact hvalid
      have hsepEnd : Pos.Raw.atEnd (ofList [b]) ⟨b.utf8Size⟩ = true := by
        have hvalid := (atEnd_of_valid [b] []).mpr rfl
        rw [List.append_nil, utf8Len_cons, utf8Len_nil, Nat.zero_add] at hvalid
        exact hvalid
      have hpart : (⟨utf8Len l + utf8Len m + b.utf8Size⟩ : Pos.Raw).unoffsetBy ⟨b.utf8Size⟩
          = ⟨utf8Len l + utf8Len m⟩ := by
        rw [Pos.Raw.unoffsetBy, Nat.add_sub_cancel]
      have hrest := ih (l ++ m ++ [b]) [] (ofList m :: acc)
      rw [List.append_nil, List.append_assoc (l ++ m), List.singleton_append, utf8Len_nil,
        Nat.add_zero, utf8Len_append, utf8Len_append, utf8Len_cons, utf8Len_nil, Nat.zero_add,
        List.reverse_nil, List.reverse_cons, List.append_assoc acc.reverse, List.singleton_append,
        ← List.splitOnP_eq_splitOnPPrepend] at hrest
      simp only [beq_self_eq_true, if_true, hnext, hsepNext, hsepEnd, hpart, extract_of_valid,
        List.reverse_reverse, List.map_cons]
      exact hrest
    · have hne : ¬ (b == c) = true := by simpa using hb
      have hpart : (⟨utf8Len l + utf8Len m⟩ : Pos.Raw).unoffsetBy 0 = ⟨utf8Len l + utf8Len m⟩ := rfl
      have hrest := ih l (m ++ [b]) acc
      rw [← List.append_assoc, List.append_assoc (l ++ m), List.singleton_append, utf8Len_append,
        utf8Len_cons, utf8Len_nil, Nat.zero_add, ← Nat.add_assoc, List.reverse_append,
        List.reverse_singleton, List.singleton_append] at hrest
      rw [if_neg hne, if_neg hne, hpart, hnext]
      exact hrest

/-- Splitting text at a character. -/
theorem splitOn_ofList_singleton (s : String) (c : Char) :
  s.splitOn (ofList [c]) = (s.toList.splitOn c).map ofList
  := by
  have hne : ¬ (ofList [c] == "") = true := by
    rw [beq_iff_eq]
    intro h
    have hlist := congrArg String.toList h
    rw [toList_ofList] at hlist
    cases hlist
  have hloop := splitOnAux_singleton c [] [] s.toList []
  rw [List.nil_append, List.nil_append, ofList_toList] at hloop
  rw [String.splitOn, if_neg hne, List.splitOn_eq_splitOnP, List.splitOnP_eq_splitOnPPrepend]
  exact hloop

/-- Behind a first part without the character, the rest is split, and joined again it is the
rest. -/
theorem splitOn_append {first : String} {c : Char} (h : c ∉ first.toList) (rest : String) :
  ∃ part parts, (first ++ ofList [c] ++ rest).splitOn (ofList [c]) = first :: part :: parts ∧
    (ofList [c]).intercalate (part :: parts) = rest
  := by
  obtain ⟨part, parts, hparts⟩ := List.exists_cons_of_ne_nil (List.splitOn_ne_nil c rest.toList)
  use ofList part, parts.map ofList
  constructor
  · rw [splitOn_ofList_singleton, toList_append, toList_append, toList_ofList, List.append_assoc,
      List.singleton_append, List.splitOn_append_cons_self_of_not_mem h, hparts, List.map_cons,
      List.map_cons, ofList_toList]
  · have hjoined : [c].intercalate (rest.toList.splitOn c) = rest.toList :=
      List.intercalate_splitOn c
    rw [hparts] at hjoined
    apply String.ext
    rw [toList_intercalate, ← List.map_cons, List.map_map, toList_ofList]
    simpa [Function.comp_def] using hjoined

end SplitOn
