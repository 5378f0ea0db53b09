import Mathlib

/-!
# Byte strings

A Go string is an arbitrary sequence of bytes.  The operations below are those of the
packages `strings` and `sort` on such strings: they compare, cut and search byte by
byte, and the order is the lexicographic order of the bytes.
-/

/-- A Go string: an arbitrary sequence of bytes. -/
abbrev GoString : Type := List UInt8

instance : LawfulBEq GoString := inferInstanceAs (LawfulBEq (List UInt8))

/-- The string a literal denotes: its characters in UTF-8. -/
def str (s : String) : GoString := s.toList.flatMap String.utf8EncodeChar

namespace GoString

/-- `strings.HasPrefix(s, p)`. -/
def hasPrefix (s p : GoString) : Bool := p.isPrefixOf s

/-- `strings.Contains(s, sub)`. -/
def contains (s sub : GoString) : Bool := decide (sub <:+: s)

/-- `strings.TrimPrefix(s, p)`. -/
def trimPrefix (s p : GoString) : GoString := if hasPrefix s p then s.drop p.length else s

/-- The part of `s` before the first occurrence of the byte `b`: all of `s` if there is
none. -/
def before (b : UInt8) (s : GoString) : GoString := s.takeWhile (· ≠ b)

/-- The part of `s` after the first occurrence of the byte `b`: empty if there is none. -/
def after (b : UInt8) (s : GoString) : GoString := (s.dropWhile (· ≠ b)).tail

/-- `sort.Strings(l)`. -/
def sort (l : List GoString) : List GoString := l.mergeSort (fun s t => decide (s ≤ t))

theorem before_append {b : UInt8} {s : GoString} (h : b ∉ s) (t : GoString) :
  before b (s ++ b :: t) = s
  := by
  rw [before, List.takeWhile_append_of_pos]
  · simp
  · intro c hc
    simp only [ne_eq, decide_not, Bool.not_eq_eq_eq_not, Bool.not_true, decide_eq_false_iff_not]
    rintro rfl
    apply h hc

theorem after_append {b : UInt8} {s : GoString} (h : b ∉ s) (t : GoString) :
  after b (s ++ b :: t) = t
  := by
  rw [after, List.dropWhile_append_of_pos]
  · simp
  · intro c hc
    simp only [ne_eq, decide_not, Bool.not_eq_eq_eq_not, Bool.not_true, decide_eq_false_iff_not]
    rintro rfl
    apply h hc

/-- A string without the byte `b` is all before it. -/
theorem before_eq_self {b : UInt8} {s : GoString} (h : b ∉ s) :
  before b s = s
  := by
  rw [before, List.takeWhile_eq_self_iff]
  intro c hc
  simp only [ne_eq, decide_not, Bool.not_eq_eq_eq_not, Bool.not_true, decide_eq_false_iff_not]
  rintro rfl
  apply h hc

/-- Nothing of a string without the byte `b` is after it. -/
theorem after_eq_nil {b : UInt8} {s : GoString} (h : b ∉ s) :
  after b s = []
  := by
  have hdrop : s.dropWhile (· ≠ b) = [] := by
    rw [List.dropWhile_eq_nil_iff]
    intro c hc
    simp only [ne_eq, decide_not, Bool.not_eq_eq_eq_not, Bool.not_true, decide_eq_false_iff_not]
    rintro rfl
    apply h hc
  rw [after, hdrop, List.tail_nil]

/-- Sorting rearranges the strings. -/
theorem sort_perm (l : List GoString) :
  (sort l).Perm l
  := List.mergeSort_perm l _

/-- A list sorted by a key in which no key occurs twice is strictly sorted. -/
theorem pairwise_lt_of_nodup {α : Type*} (key : α → GoString) {l : List α}
    (hsorted : l.Pairwise (fun x y => key x ≤ key y)) (hnodup : (l.map key).Nodup) :
  l.Pairwise (fun x y => key x < key y)
  := by
  apply (hsorted.and (List.pairwise_map.mp hnodup)).imp
  rintro x y ⟨hle, hne⟩
  apply Std.lt_of_le_of_ne hle hne

/-- Merge sort by a key sorts. -/
theorem pairwise_mergeSort {α : Type*} (key : α → GoString) (l : List α) :
  (l.mergeSort (fun x y => decide (key x ≤ key y))).Pairwise (fun x y => key x ≤ key y)
  := by
  have hsorted : (l.mergeSort (fun x y => decide (key x ≤ key y))).Pairwise
      (fun x y => decide (key x ≤ key y) = true) := by
    apply List.pairwise_mergeSort
    · intro x y z hxy hyz
      rw [decide_eq_true_eq] at hxy hyz ⊢
      apply List.le_trans hxy hyz
    · intro x y
      rw [Bool.or_eq_true, decide_eq_true_eq, decide_eq_true_eq]
      apply List.le_total
  simpa only [decide_eq_true_eq] using hsorted

/-- A sorted list is left as it is. -/
theorem sort_eq_self {l : List GoString} (h : l.Pairwise (· ≤ ·)) :
  sort l = l
  := by
  apply List.mergeSort_of_pairwise
  simpa only [decide_eq_true_eq] using h

end GoString
