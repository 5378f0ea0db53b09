import Mathlib.Data.List.Basic
import Mathlib.Data.List.Forall2
import Mathlib.Data.List.Infix
import Mathlib.Data.List.TakeWhile
import Mathlib.Tactic.Common

/-!
# Regular expressions

Expressions over letters `α`, where a letter is matched by a predicate and only such predicates
are repeated.  `ends r x` are the remainders of `x` behind the matches of `r` at its beginning, in
the order in which a matcher that tries the first alternative first and repeats as often as it can
comes to them; the match that counts is the first one.  `scan r x` goes over a text from the left
and cuts it into the matches and the letters between them.

What stands behind a text changes the matches in it only where a match reaches over the boundary
(`ends_append`).  An expression that ends with a repetition takes a run of its letters as a whole:
either a match is open at the boundary and swallows the run, or the pieces before the run are the
same whatever the run is (`exists_scansBefore`).
-/

/-- Regular expressions over `α`. -/
inductive Regexp (α : Type) where
  | empty
  | one (p : α → Bool)
  | many (p : α → Bool)
  | seq (r s : Regexp α)
  | alt (r s : Regexp α)

namespace Regexp

variable {α : Type}

/-- At least one letter. -/
def plus (p : α → Bool) : Regexp α := seq (one p) (many p)

/-- An optional part, preferably there. -/
def optional (r : Regexp α) : Regexp α := alt r empty

/-- A word, letter by letter. -/
def word : List (α → Bool) → Regexp α
  | [] => empty
  | p :: ps => seq (one p) (word ps)

/-- The texts that an expression matches. -/
def Matches : Regexp α → List α → Prop
  | empty, m => m = []
  | one p, m => ∃ a, p a = true ∧ m = [a]
  | many p, m => ∀ a ∈ m, p a = true
  | seq r s, m => ∃ m₁ m₂, Matches r m₁ ∧ Matches s m₂ ∧ m = m₁ ++ m₂
  | alt r s, m => Matches r m ∨ Matches s m

/-- The remainders behind the runs of letters at the beginning, the longest run first. -/
def runs (p : α → Bool) : List α → List (List α)
  | [] => [[]]
  | a :: x => if p a then runs p x ++ [a :: x] else [a :: x]

/-- The remainders behind the matches at the beginning, in order of preference. -/
def ends : Regexp α → List α → List (List α)
  | empty, x => [x]
  | one _, [] => []
  | one p, a :: x => if p a then [x] else []
  | many p, x => runs p x
  | seq r s, x => (ends r x).flatMap (ends s)
  | alt r s, x => ends r x ++ ends s x

/-- The remainder behind the match that is preferred. -/
def first (r : Regexp α) (x : List α) : Option (List α) := (ends r x).head?

/-! ### Remainders and the language -/

theorem mem_runs_iff {p : α → Bool} {x y : List α} :
  y ∈ runs p x ↔ ∃ m, (∀ a ∈ m, p a = true) ∧ m ++ y = x
  := by
  induction x with
  | nil =>
    simp only [runs, List.mem_singleton, List.append_eq_nil_iff]
    constructor
    · rintro rfl
      exact ⟨[], List.forall_mem_nil _, rfl, rfl⟩
    · rintro ⟨m, -, -, rfl⟩
      rfl
  | cons a x ih =>
    have hself : ∃ m, (∀ a ∈ m, p a = true) ∧ m ++ a :: x = a :: x :=
      ⟨[], List.forall_mem_nil _, rfl⟩
    rw [runs]
    split_ifs with ha
    · rw [List.mem_append, List.mem_singleton, ih]
      constructor
      · rintro (⟨m, hm, rfl⟩ | rfl)
        · exact ⟨a :: m, List.forall_mem_cons.mpr ⟨ha, hm⟩, rfl⟩
        · apply hself
      · rintro ⟨m, hm, heq⟩
        obtain ⟨rfl, rfl⟩ | ⟨m, rfl, rfl⟩ := List.append_eq_cons_iff.mp heq
        · right
          rfl
        · left
          exact ⟨m, (List.forall_mem_cons.mp hm).2, rfl⟩
    · rw [List.mem_singleton]
      constructor
      · rintro rfl
        apply hself
      · rintro ⟨m, hm, heq⟩
        obtain ⟨rfl, rfl⟩ | ⟨m, rfl, rfl⟩ := List.append_eq_cons_iff.mp heq
        · rfl
        · exact absurd (List.forall_mem_cons.mp hm).1 ha

/-- The remainders are those behind the texts that the expression matches. -/
theorem mem_ends_iff {r : Regexp α} {x y : List α} :
  y ∈ ends r x ↔ ∃ m, Matches r m ∧ m ++ y = x
  := by
  induction r generalizing x y with
  | empty => simp [ends, Matches]
  | one p =>
    cases x with
    | nil => simp [ends, Matches]
    | cons a x =>
      rw [ends]
      split_ifs with ha
      · simp only [List.mem_singleton, Matches]
        constructor
        · rintro rfl
          exact ⟨[a], ⟨a, ha, rfl⟩, rfl⟩
        · rintro ⟨m, ⟨c, -, rfl⟩, heq⟩
          apply (List.cons.inj heq).2
      · simp only [List.not_mem_nil, Matches, false_iff]
        rintro ⟨m, ⟨c, hc, rfl⟩, heq⟩
        obtain ⟨rfl, -⟩ := List.cons.inj heq
        apply ha hc
  | many p => apply mem_runs_iff
  | seq r s ihr ihs =>
    simp only [ends, List.mem_flatMap, Matches, ihr, ihs]
    constructor
    · rintro ⟨z, ⟨m₁, h₁, rfl⟩, m₂, h₂, rfl⟩
      exact ⟨m₁ ++ m₂, ⟨m₁, m₂, h₁, h₂, rfl⟩, List.append_assoc _ _ _⟩
    · rintro ⟨m, ⟨m₁, m₂, h₁, h₂, rfl⟩, rfl⟩
      exact ⟨m₂ ++ y, ⟨m₁, h₁, (List.append_assoc _ _ _).symm⟩, m₂, h₂, rfl⟩
  | alt r s ihr ihs =>
    simp only [ends, List.mem_append, Matches, ihr, ihs]
    constructor
    · rintro (⟨m, h, rfl⟩ | ⟨m, h, rfl⟩)
      · exact ⟨m, .inl h, rfl⟩
      · exact ⟨m, .inr h, rfl⟩
    · rintro ⟨m, h | h, rfl⟩
      · exact .inl ⟨m, h, rfl⟩
      · exact .inr ⟨m, h, rfl⟩

theorem length_le_of_mem_ends {r : Regexp α} {x y : List α} (h : y ∈ ends r x) :
  y.length ≤ x.length
  := by
  obtain ⟨m, -, rfl⟩ := mem_ends_iff.mp h
  rw [List.length_append]
  apply Nat.le_add_left

theorem first_eq_none_iff {r : Regexp α} {x : List α} :
  first r x = none ↔ ∀ m y, Matches r m → m ++ y ≠ x
  := by
  rw [first, List.head?_eq_none_iff, List.eq_nil_iff_forall_not_mem]
  simp only [mem_ends_iff, not_exists, not_and]
  constructor
  · intro h m y hm
    apply h y m hm
  · intro h y m hm
    apply h m y hm

/-- The preferred match is a match. -/
theorem exists_of_first {r : Regexp α} {x y : List α} (h : first r x = some y) :
  ∃ m, Matches r m ∧ m ++ y = x
  := mem_ends_iff.mp (List.mem_of_head? h)

theorem matches_word_iff {ps : List (α → Bool)} {m : List α} :
  Matches (word ps) m ↔ List.Forall₂ (fun p a => p a = true) ps m
  := by
  induction ps generalizing m with
  | nil => simp [word, Matches]
  | cons p ps ih =>
    simp only [word, Matches, ih, List.forall₂_cons_left_iff]
    constructor
    · rintro ⟨m₁, m₂, ⟨a, ha, rfl⟩, h, rfl⟩
      exact ⟨a, m₂, ha, h, rfl⟩
    · rintro ⟨a, m₂, ha, h, rfl⟩
      exact ⟨[a], m₂, ⟨a, ha, rfl⟩, h, rfl⟩

/-- The letters that an expression matches are all of a kind. -/
def Within (q : α → Prop) : Regexp α → Prop
  | empty => True
  | one p => ∀ a, p a = true → q a
  | many p => ∀ a, p a = true → q a
  | seq r s => Within q r ∧ Within q s
  | alt r s => Within q r ∧ Within q s

theorem Within.forall_mem {q : α → Prop} {r : Regexp α} (h : Within q r) {m : List α}
    (hm : Matches r m) :
  ∀ a ∈ m, q a
  := by
  induction r generalizing m with
  | empty =>
    obtain rfl := hm
    exact List.forall_mem_nil _
  | one p =>
    obtain ⟨a, ha, rfl⟩ := hm
    apply List.forall_mem_singleton.mpr (h a ha)
  | many p => exact fun a ha => h a (hm a ha)
  | seq r s ihr ihs =>
    obtain ⟨m₁, m₂, h₁, h₂, rfl⟩ := hm
    apply List.forall_mem_append.mpr ⟨ihr h.1 h₁, ihs h.2 h₂⟩
  | alt r s ihr ihs =>
    cases hm with
    | inl hm => apply ihr h.1 hm
    | inr hm => apply ihs h.2 hm

theorem within_word {q : α → Prop} {ps : List (α → Bool)}
    (h : ∀ p ∈ ps, ∀ a, p a = true → q a) :
  Within q (word ps)
  := by
  induction ps with
  | nil => trivial
  | cons p ps ih =>
    obtain ⟨hp, hps⟩ := List.forall_mem_cons.mp h
    exact ⟨hp, ih hps⟩

/-! ### What stands behind a text -/

theorem filter_runs_append (p : α → Bool) (x y : List α) :
  (runs p (x ++ y)).filter (fun z => y.length ≤ z.length) = (runs p x).map (· ++ y)
  := by
  induction x with
  | nil =>
    cases y with
    | nil => rfl
    | cons b y =>
      rw [List.nil_append, runs, runs]
      split_ifs with hb
      · have hshort : (runs p y).filter (fun z => (b :: y).length ≤ z.length) = [] := by
          rw [List.filter_eq_nil_iff]
          intro z hz
          obtain ⟨m, -, rfl⟩ := mem_runs_iff.mp hz
          rw [List.length_cons, List.length_append, decide_eq_true_eq]
          omega
        rw [List.filter_append, hshort]
        simp
      · simp
  | cons a x ih =>
    have hlong : y.length ≤ (a :: (x ++ y)).length := by
      rw [List.length_cons, List.length_append]
      omega
    rw [List.cons_append, runs, runs]
    split_ifs with ha
    · rw [List.filter_append, ih, List.filter_singleton, decide_eq_true hlong, List.map_append]
      rfl
    · rw [List.filter_singleton, decide_eq_true hlong]
      rfl

/-- The remainders that leave all of a text behind are those of the text before it. -/
theorem filter_ends_append (r : Regexp α) (x y : List α) :
  (ends r (x ++ y)).filter (fun z => y.length ≤ z.length) = (ends r x).map (· ++ y)
  := by
  induction r generalizing x with
  | empty => simp [ends]
  | one p =>
    cases x with
    | nil =>
      cases y with
      | nil => rfl
      | cons b y =>
        rw [List.nil_append, ends, ends]
        split_ifs
        · simp
        · rfl
    | cons a x =>
      rw [List.cons_append, ends, ends]
      split_ifs
      · simp
      · rfl
  | many p => apply filter_runs_append p x y
  | seq r s ihr ihs =>
    -- a remainder of `r` that is too short has only remainders of `s` that are too short
    have hshort : ∀ z, ¬ y.length ≤ z.length →
        (ends s z).filter (fun z => y.length ≤ z.length) = [] := by
      intro z hz
      rw [List.filter_eq_nil_iff]
      intro w hw
      have hle := length_le_of_mem_ends hw
      simp only [decide_eq_true_eq]
      omega
    have hfilter : ∀ l : List (List α),
        (l.flatMap (ends s)).filter (fun z => y.length ≤ z.length)
          = (l.filter (fun z => y.length ≤ z.length)).flatMap
              (fun z => (ends s z).filter (fun z => y.length ≤ z.length)) := by
      intro l
      induction l with
      | nil => rfl
      | cons z l ih =>
        rw [List.flatMap_cons, List.filter_append, ih, List.filter_cons]
        split_ifs with hz
        · rw [List.flatMap_cons]
        · rw [hshort z (by simpa using hz), List.nil_append]
    rw [ends, ends, hfilter, ihr, List.flatMap_map, List.map_flatMap]
    simp only [ihs]
  | alt r s ihr ihs => rw [ends, ends, List.filter_append, ihr, ihs, List.map_append]

/-- No match at the beginning of `x ++ y` reaches into `y`. -/
def Stays (r : Regexp α) (x y : List α) : Prop :=
  ∀ u z, u ≠ [] → u ++ z = y → ¬ Matches r (x ++ u)

/-- Where no match reaches over the boundary, the remainders are those of the text before it. -/
theorem ends_append {r : Regexp α} {x y : List α} (h : Stays r x y) :
  ends r (x ++ y) = (ends r x).map (· ++ y)
  := by
  rw [← filter_ends_append, eq_comm, List.filter_eq_self]
  intro z hz
  obtain ⟨m, hm, heq⟩ := mem_ends_iff.mp hz
  rw [decide_eq_true_eq]
  by_contra hlt
  obtain ⟨u, rfl, rfl⟩ | ⟨u, rfl, rfl⟩ := List.append_eq_append_iff.mp heq
  · simp at hlt
  · refine h u z ?_ rfl hm
    rintro rfl
    simp at hlt

/-! ### An expression that ends with a repetition -/

theorem matches_plus_iff {p : α → Bool} {m : List α} :
  Matches (plus p) m ↔ ∃ a m', p a = true ∧ (∀ a ∈ m', p a = true) ∧ m = a :: m'
  := by
  simp only [plus, Matches]
  constructor
  · rintro ⟨m₁, m₂, ⟨a, ha, rfl⟩, h, rfl⟩
    exact ⟨a, m₂, ha, h, rfl⟩
  · rintro ⟨a, m', ha, h, rfl⟩
    exact ⟨[a], m', ⟨a, ha, rfl⟩, h, rfl⟩

theorem not_matches_seq_plus_nil (r : Regexp α) (p : α → Bool) :
  ¬ Matches (seq r (plus p)) []
  := by
  rintro ⟨m₁, m₂, -, hm₂, heq⟩
  obtain ⟨a, m', -, -, rfl⟩ := matches_plus_iff.mp hm₂
  simp at heq

theorem head?_runs (p : α → Bool) (x : List α) :
  (runs p x).head? = some (x.dropWhile p)
  := by
  induction x with
  | nil => rfl
  | cons a x ih =>
    rw [runs, List.dropWhile_cons]
    split_ifs
    · rw [List.head?_append, ih, Option.some_or]
    · rfl

/-- The preferred match takes the first remainder that goes on with a letter of the run, and all
letters of the run. -/
theorem first_seq_plus (r : Regexp α) (p : α → Bool) (x : List α) :
  first (seq r (plus p)) x
    = ((ends r x).find? (fun y => y.head?.any p)).map (·.dropWhile p)
  := by
  rw [first, ends]
  induction ends r x with
  | nil => rfl
  | cons y l ih =>
    rw [List.flatMap_cons, List.head?_append, ih, List.find?_cons]
    cases y with
    | nil => rfl
    | cons a y =>
      cases ha : p a with
      | true => simp [plus, ends, ha, head?_runs]
      | false => simp [plus, ends, ha]

/-! ### Going over a text -/

/-- A letter that is in no match, or a match. -/
inductive Piece (α : Type) where
  | kept (a : α)
  | found (m : List α)

/-- The letters of a piece. -/
def Piece.text : Piece α → List α
  | kept a => [a]
  | found m => m

/-- The text without its first `n` letters cut into pieces, for an expression that does not match
the empty text. -/
def scanFrom (r : Regexp α) : ℕ → List α → List (Piece α)
  | _, [] => []
  | n + 1, _ :: x => scanFrom r n x
  | 0, a :: x =>
    match first r (a :: x) with
    | some y =>
      .found ((a :: x).take (x.length + 1 - y.length)) :: scanFrom r (x.length - y.length) x
    | none => .kept a :: scanFrom r 0 x

/-- The text cut into pieces. -/
def scan (r : Regexp α) (x : List α) : List (Piece α) := scanFrom r 0 x

@[simp]
theorem scan_nil (r : Regexp α) :
  scan r [] = []
  := rfl

theorem scanFrom_eq (r : Regexp α) (n : ℕ) (x : List α) :
  scanFrom r n x = scan r (x.drop n)
  := by
  induction n generalizing x with
  | zero => rfl
  | succ n ih =>
    cases x with
    | nil => rfl
    | cons a x => apply ih x

theorem scan_of_none {r : Regexp α} {a : α} {x : List α} (h : first r (a :: x) = none) :
  scan r (a :: x) = .kept a :: scan r x
  := by
  simp only [scan, scanFrom, h]

theorem scan_of_some {r : Regexp α} {m y : List α} (h : first r (m ++ y) = some y)
    (hm : m ≠ []) :
  scan r (m ++ y) = .found m :: scan r y
  := by
  obtain ⟨a, m, rfl⟩ := List.exists_cons_of_ne_nil hm
  rw [List.cons_append] at h ⊢
  simp only [scan, scanFrom, h]
  rw [scanFrom_eq]
  congr 1
  · rw [← List.cons_append, List.length_append]
    rw [show m.length + y.length + 1 - y.length = (a :: m).length by rw [List.length_cons]; omega]
    rw [List.take_left]
  · rw [List.length_append, Nat.add_sub_cancel, List.drop_left]
    rfl

/-- A text in which no match begins is kept. -/
theorem scan_append_of_none {r : Regexp α} {x y : List α}
    (h : ∀ z, z ≠ [] → z <:+ x → first r (z ++ y) = none) :
  scan r (x ++ y) = x.map .kept ++ scan r y
  := by
  induction x with
  | nil => rfl
  | cons a x ih =>
    have hfirst := h (a :: x) (List.cons_ne_nil a x) List.suffix_rfl
    rw [List.cons_append] at hfirst ⊢
    rw [scan_of_none hfirst, ih, List.map_cons, List.cons_append]
    intro z hz hsuffix
    apply h z hz (hsuffix.trans (List.suffix_cons a x))

theorem scan_of_forall_none {r : Regexp α} {x : List α}
    (h : ∀ z, z ≠ [] → z <:+ x → first r z = none) :
  scan r x = x.map .kept
  := by
  have hscan := scan_append_of_none (r := r) (x := x) (y := [])
  simp only [List.append_nil] at hscan
  rw [hscan h, scan_nil, List.append_nil]

/-- What is found is a match. -/
theorem matches_of_found {r : Regexp α} (hr : ¬ Matches r []) {x m : List α}
    (h : .found m ∈ scan r x) :
  Matches r m
  := by
  induction hn : x.length using Nat.strong_induction_on generalizing x with
  | _ n ih =>
    subst hn
    cases x with
    | nil => cases h
    | cons a x =>
      cases hfirst : first r (a :: x) with
      | none =>
        rw [scan_of_none hfirst, List.mem_cons] at h
        obtain h | h := h
        · cases h
        · apply ih x.length (by simp) h rfl
      | some y =>
        obtain ⟨m', hm', heq⟩ := exists_of_first hfirst
        have hne : m' ≠ [] := by
          rintro rfl
          apply hr hm'
        rw [← heq] at hfirst h ih
        rw [scan_of_some hfirst hne, List.mem_cons] at h
        obtain h | h := h
        · obtain rfl := Piece.found.inj h
          apply hm'
        · apply ih y.length _ h rfl
          rw [List.length_append]
          have hpos := List.length_pos_iff.mpr hne
          omega

/-- Before a text that begins with a letter of the run, the remainder that counts is the first one
that is empty or goes on with a letter of the run. -/
theorem first_seq_plus_append {r : Regexp α} {p : α → Bool} {x w : List α}
    (hstay : Stays r x w) (hw : w.head?.any p = true) :
  first (seq r (plus p)) (x ++ w)
    = ((ends r x).find? (fun y => y.isEmpty || y.head?.any p)).map (fun y => (y ++ w).dropWhile p)
  := by
  have hhead : (fun y => y.head?.any p) ∘ (· ++ w)
      = fun y : List α => y.isEmpty || y.head?.any p := by
    funext y
    cases y with
    | nil => apply hw
    | cons a y => rfl
  rw [first_seq_plus, ends_append hstay, List.find?_map, hhead, Option.map_map]
  rfl

/-- For an expression that ends with a repetition of `p`, the pieces `S` of a text `x` before a run
of letters of `p`, and the part `m` of it behind them: whatever the run is and whatever follows it,
either a match that began in `x` is open and swallows the run, or the run is gone over on its
own. -/
structure ScansBefore (r : Regexp α) (p : α → Bool) (x : List α) (S : List (Piece α))
    (m : List α) : Prop where
  text : S.flatMap Piece.text ++ m = x
  scan_append : ∀ v b, v ≠ [] → (∀ a ∈ v, p a = true) →
    (∀ z, z ≠ [] → z <:+ x → Stays r z (v ++ b)) →
    scan (seq r (plus p)) (x ++ (v ++ b))
      = S ++ (if m = [] then scan (seq r (plus p)) (v ++ b)
          else .found (m ++ (v ++ b.takeWhile p)) :: scan (seq r (plus p)) (b.dropWhile p))

section

variable {r : Regexp α} {p : α → Bool} {x y : List α} {S : List (Piece α)} {m : List α}

theorem scansBefore_nil (r : Regexp α) (p : α → Bool) :
  ScansBefore r p [] [] []
  := by
  refine ⟨rfl, ?_⟩
  intro v b _ _ _
  rw [if_pos rfl, List.nil_append, List.nil_append]

/-- The first match in a text before a run of letters of `p`. -/
theorem first_before_run {v b : List α} (hne : v ≠ []) (hv : ∀ a ∈ v, p a = true)
    (hstay : Stays r x (v ++ b)) :
  first (seq r (plus p)) (x ++ (v ++ b))
    = ((ends r x).find? (fun y => y.isEmpty || y.head?.any p)).map
        (fun y => (y ++ (v ++ b)).dropWhile p)
  := by
  apply first_seq_plus_append hstay
  obtain ⟨a, v, rfl⟩ := List.exists_cons_of_ne_nil hne
  apply hv a List.mem_cons_self

/-- No match begins at the first letter. -/
theorem ScansBefore.kept {a : α}
    (hfind : (ends r (a :: x)).find? (fun y => y.isEmpty || y.head?.any p) = none)
    (h : ScansBefore r p x S m) :
  ScansBefore r p (a :: x) (.kept a :: S) m
  := by
  constructor
  · rw [List.flatMap_cons, List.append_assoc, h.text]
    rfl
  · intro v b hne hv hstay
    have hnone := first_before_run hne hv (hstay _ (List.cons_ne_nil a x) List.suffix_rfl)
    rw [hfind, List.cons_append] at hnone
    rw [List.cons_append, scan_of_none hnone, h.scan_append v b hne hv, List.cons_append]
    intro z hz hsuffix
    apply hstay z hz (hsuffix.trans (List.suffix_cons a x))

/-- The first match goes on to the end of the text, and swallows the run. -/
theorem scansBefore_open (hx : x ≠ [])
    (hfind : (ends r x).find? (fun y => y.isEmpty || y.head?.any p) = some y)
    (hall : ∀ a ∈ y, p a = true) :
  ScansBefore r p x [] x
  := by
  refine ⟨rfl, ?_⟩
  intro v b hne hv hstay
  have hsome := first_before_run hne hv (hstay x hx List.suffix_rfl)
  have hdrop : (y ++ (v ++ b)).dropWhile p = b.dropWhile p := by
    rw [List.dropWhile_append_of_pos hall, List.dropWhile_append_of_pos hv]
  have hsplit : x ++ (v ++ b) = (x ++ (v ++ b.takeWhile p)) ++ b.dropWhile p := by
    rw [List.append_assoc, List.append_assoc, List.takeWhile_append_dropWhile]
  rw [hfind, Option.map_some, hdrop, hsplit] at hsome
  rw [if_neg hx, List.nil_append, hsplit, scan_of_some hsome]
  apply List.append_ne_nil_of_left_ne_nil hx

/-- The first match ends in the text, before a letter that is not of a run. -/
theorem ScansBefore.found {h : List α} (hmatch : h ++ y.takeWhile p ≠ [])
    (hfind : (ends r (h ++ y)).find? (fun y => y.isEmpty || y.head?.any p) = some y)
    (hrest : y.dropWhile p ≠ []) (hscans : ScansBefore r p (y.dropWhile p) S m) :
  ScansBefore r p (h ++ y) (.found (h ++ y.takeWhile p) :: S) m
  := by
  have hsplit : h ++ y = (h ++ y.takeWhile p) ++ y.dropWhile p := by
    rw [List.append_assoc, List.takeWhile_append_dropWhile]
  have hne' : h ++ y ≠ [] := by
    rw [hsplit]
    apply List.append_ne_nil_of_left_ne_nil hmatch
  constructor
  · rw [List.flatMap_cons, List.append_assoc, hscans.text]
    apply hsplit.symm
  · intro v b hne hv hstay
    have hsome := first_before_run hne hv (hstay _ hne' List.suffix_rfl)
    have hdrop : (y ++ (v ++ b)).dropWhile p = y.dropWhile p ++ (v ++ b) := by
      rw [List.dropWhile_append, if_neg]
      simpa using hrest
    rw [hfind, Option.map_some, hdrop, hsplit, List.append_assoc] at hsome
    rw [hsplit, List.append_assoc, scan_of_some hsome hmatch, hscans.scan_append v b hne hv,
      List.cons_append]
    intro z hz hsuffix
    apply hstay z hz
    rw [hsplit]
    apply hsuffix.trans (List.suffix_append _ _)

end

theorem exists_scansBefore (r : Regexp α) (p : α → Bool) (x : List α) :
  ∃ S m, ScansBefore r p x S m
  := by
  -- on the length of the text, which is shorter behind a match or a letter that is kept
  induction hn : x.length using Nat.strong_induction_on generalizing x with
  | _ n ih =>
    subst hn
    cases hfind : (ends r x).find? (fun y => y.isEmpty || y.head?.any p) with
    | none =>
      cases x with
      | nil => exact ⟨[], [], scansBefore_nil r p⟩
      | cons a x =>
        obtain ⟨S, m, hscans⟩ := ih x.length (Nat.lt_succ_self _) x rfl
        exact ⟨.kept a :: S, m, hscans.kept hfind⟩
    | some y =>
      obtain ⟨h, -, rfl⟩ := mem_ends_iff.mp (List.mem_of_find?_eq_some hfind)
      by_cases hx : h ++ y = []
      · rw [hx]
        exact ⟨[], [], scansBefore_nil r p⟩
      · by_cases hall : ∀ a ∈ y, p a = true
        · exact ⟨[], h ++ y, scansBefore_open hx hfind hall⟩
        · have hrest : y.dropWhile p ≠ [] := by
            rw [ne_eq, List.dropWhile_eq_nil_iff]
            apply hall
          have hmatch : h ++ y.takeWhile p ≠ [] := by
            intro hnil
            have hfound := List.find?_some hfind
            obtain ⟨-, htake⟩ := List.append_eq_nil_iff.mp hnil
            cases y with
            | nil => apply hall (List.forall_mem_nil _)
            | cons c y =>
              have hc : p c = true := by simpa using hfound
              simp [hc] at htake
          have hshorter : (y.dropWhile p).length < (h ++ y).length := by
            have hpos := List.length_pos_iff.mpr hmatch
            have hlength := congrArg List.length (List.takeWhile_append_dropWhile (p := p) (l := y))
            rw [List.length_append] at hpos hlength ⊢
            omega
          obtain ⟨S, m, hscans⟩ := ih _ hshorter (y.dropWhile p) rfl
          exact ⟨.found (h ++ y.takeWhile p) :: S, m, hscans.found hmatch hfind hrest⟩

end Regexp
