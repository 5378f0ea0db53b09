import VmProxyAuth.Logging.Sanitize

/-!
# Secrets in the log

What is logged for a string with a parameter such as `password=v` does not depend on the value `v`,
whatever stands before and behind the parameter (`sanitizeString_param`).  This is so for the values
that do not end with `bearer` or `authorization:`.  A value that does opens a match of an earlier
pattern, and then what stands behind the parameter is masked as well: of `password=xBearer a.b.c`
the log has `password=[REDACTED]`, and of `password=y a.b.c` it has `password=[REDACTED] a.b.c`.
-/

namespace VmProxyAuth

namespace Logging

open Regexp Utf8

/-! ### Parameters -/

/-- A name of a parameter that is masked, in upper or lower case. -/
def IsParamName (name : GoString) : Prop :=
  name.map lower ∈ [str "password", str "passwd", str "pwd", str "secret", str "token", str "key"]

/-- A byte that ends the value of a parameter. -/
def isBreak (a : UInt8) : Bool := a ∈ [0x09, 0x0a, 0x0c, 0x0d, 0x20, ampersand]

/-- A value of a parameter that is not empty, has none of the bytes that end a value, and does not
end with `bearer` or `authorization:`, in upper or lower case. -/
structure IsClosedValue (v : GoString) : Prop where
  ne_nil : v ≠ []
  not_isBreak : ∀ c ∈ v, isBreak c = false
  not_bearer : ¬ str "bearer" <:+ v.map lower
  not_authorization : ¬ str "authorization:" <:+ v.map lower

/-- A string that is empty or begins with a byte that ends a value. -/
def IsRest (b : GoString) : Prop := ∀ c ∈ b.head?, isBreak c = true

theorem isBreak_lt : ∀ c : UInt8, isBreak c = true → c < 128
  := by
  decide +kernel

theorem isParamChar_ascii : ∀ c : UInt8, c < 128 → isParamChar (.ascii c) = !isBreak c
  := by
  decide +kernel

theorem letter_of_lower : ∀ c : UInt8, 0x61 ≤ lower c ∧ lower c ≤ 0x7a →
  c < 128 ∧ isLetter (Rune.ascii c).char = true
  := by
  decide +kernel

theorem letter_of_isParamName {name : GoString} (h : IsParamName name) :
  ∀ c ∈ name, c < 128 ∧ isLetter (Rune.ascii c).char = true
  := by
  have hnames : ∀ x ∈ [str "password", str "passwd", str "pwd", str "secret", str "token",
      str "key"], ∀ c ∈ x, 0x61 ≤ c ∧ c ≤ 0x7a := by
    decide +kernel
  intro c hc
  apply letter_of_lower c (hnames _ h _ (List.mem_map_of_mem hc))

theorem ne_nil_of_isParamName {name : GoString} (h : IsParamName name) :
  name ≠ []
  := by
  rintro rfl
  revert h
  unfold IsParamName
  decide +kernel

theorem matches_paramNames {name : GoString} (h : IsParamName name) :
  Matches paramNames (name.map .ascii)
  := by
  have hword : ∀ s ∈ ["password", "passwd", "pwd", "secret", "token", "key"],
      name.map lower = str s → Matches (literal s) (name.map .ascii) := by
    have hletters : ∀ s ∈ ["password", "passwd", "pwd", "secret", "token", "key"],
        s.toList.all isWordChar := by
      decide +kernel
    intro s hs heq
    rw [matches_literal_ascii_iff (hletters s hs) (fun c hc => (letter_of_isParamName h c hc).1)]
    apply heq
  simp only [List.forall_mem_cons] at hword
  obtain ⟨hpassword, hpasswd, hpwd, hsecret, htoken, hkey, -⟩ := hword
  simp only [IsParamName, List.mem_cons, List.not_mem_nil, or_false] at h
  simp only [paramNames, Matches]
  apply h.imp hpassword (.imp hpasswd (.imp hpwd (.imp hsecret (.imp htoken hkey))))

theorem solid_of_isClosedValue {v : GoString} (h : ∀ c ∈ v, isBreak c = false) :
  ∀ r ∈ decode v, Solid r
  := by
  apply forall_mem_decode (q := fun c => isParamChar ⟨c, []⟩ = true)
  · intro c hc
    have hamp : c ≠ '&' := by
      rintro rfl
      exact absurd hc (by decide)
    simp only [isParamChar, isSpace, List.mem_cons, List.not_mem_nil, Bool.and_eq_true,
      Bool.not_eq_true', decide_eq_false_iff_not, bne_iff_ne, or_false]
    constructor
    · omega
    · apply hamp
  · intro a ha hlt
    have hchar := isParamChar_ascii a hlt
    rw [h a ha] at hchar
    apply hchar

theorem closed_of_isClosedValue {v : GoString} (h : IsClosedValue v) :
  Closed (decode v)
  := by
  intro z hz
  constructor
  · intro hm
    obtain ⟨x, hx, hascii, rfl⟩ := exists_ascii_of_matches (by decide +kernel) hz hm
    rw [matches_literal_ascii_iff (by decide +kernel) hascii] at hm
    apply h.not_bearer
    rw [← hm]
    apply hx.map lower
  · intro hm
    obtain ⟨x, hx, hascii, rfl⟩ := exists_ascii_of_matches (by decide +kernel) hz hm
    rw [matches_literal_ascii_iff (by decide +kernel) hascii] at hm
    apply h.not_authorization
    rw [← hm]
    apply hx.map lower

theorem decode_append_rest {b : GoString} (hb : IsRest b) (v : GoString) :
  decode (v ++ b) = decode v ++ decode b
  := by
  cases b with
  | nil => simp [decode, decodeFrom]
  | cons c b => apply decode_append (isBreak_lt c (hb c rfl)) v b

theorem breaks_of_isRest {b : GoString} (hb : IsRest b) :
  Breaks (decode b)
  := by
  cases b with
  | nil =>
    intro r hr
    cases hr
  | cons c b =>
    have hc := hb c rfl
    have hlt := isBreak_lt c hc
    intro r hr
    rw [decode_cons_ascii hlt, List.head?_cons, Option.mem_some_iff] at hr
    rw [← hr, Solid, isParamChar_ascii c hlt, hc]
    decide

theorem decode_param {name v b : GoString} (hname : IsParamName name) (hb : IsRest b) :
  decode (name ++ equals :: (v ++ b))
    = (name.map .ascii ++ .ascii equals :: decode v) ++ decode b
  := by
  rw [decode_ascii_append (fun c hc => (letter_of_isParamName hname c hc).1),
    decode_cons_ascii (by decide), decode_append_rest hb, List.append_assoc, List.cons_append]

theorem decode_append_param {name : GoString} (hname : IsParamName name) (a s : GoString) :
  decode (a ++ (name ++ s)) = decode a ++ decode (name ++ s)
  := by
  obtain ⟨c, name, rfl⟩ := List.exists_cons_of_ne_nil (ne_nil_of_isParamName hname)
  apply decode_append (letter_of_isParamName hname c List.mem_cons_self).1 a (name ++ s)

/-! ### The first two passes -/

theorem prefix_of_not_mem {α : Type} {u y n w : List α} {e : α} (h : u ++ y = n ++ e :: w)
    (he : e ∉ u) :
  ∃ t, n = u ++ t
  := by
  obtain ⟨t, rfl, -⟩ | ⟨t, rfl, ht⟩ := List.append_eq_append_iff.mp h
  · use t
  · cases t with
    | nil =>
      use []
      simp
    | cons c t =>
      obtain ⟨rfl, -⟩ := List.cons.inj ht
      exact absurd (by simp) he

theorem suffix_of_not_mem {α : Type} {z n w : List α} {e : α} (h : z <:+ n ++ e :: w)
    (he : e ∉ z) :
  z <:+ w
  := by
  obtain ⟨t, ht⟩ := h
  rw [← List.singleton_append, ← List.append_assoc] at ht
  obtain ⟨u, hu, rfl⟩ | ⟨u, -, rfl⟩ := List.append_eq_append_iff.mp ht
  · cases u using List.reverseRecOn with
    | nil => apply List.suffix_rfl
    | append_singleton u c =>
      rw [← List.append_assoc] at hu
      obtain ⟨-, hc⟩ := List.append_inj' hu rfl
      obtain rfl := List.singleton_inj.mp hc
      exact absurd (by simp) he
  · apply List.suffix_append u z

/-- A parameter is closed if its value is. -/
theorem closed_param {n w : List Rune} (hw : Closed w) :
  Closed (n ++ .ascii equals :: w)
  := by
  have hequals : ∀ s : String, s.toList.all (fun c => c != '=' && c.toUpper != '=') →
      ∀ z, Matches (literal s) z → .ascii equals ∉ z := by
    intro s hs z hm hmem
    have hne := (within_literal (q := fun c => c != '=') hs (by decide) (by decide)).forall_mem hm
      _ hmem
    exact absurd hne (by decide)
  intro z hz
  constructor
  · intro hm
    apply (hw z (suffix_of_not_mem hz (hequals "bearer" (by decide) z hm))).1 hm
  · intro hm
    apply (hw z (suffix_of_not_mem hz (hequals "authorization:" (by decide) z hm))).2 hm

/-- What begins a match has no equals sign and does not end with a letter. -/
def EndsOff (r : Regexp Rune) : Prop :=
  ∀ m, Matches r m → .ascii equals ∉ m ∧ ∀ c ∈ m.getLast?, isLetter c.char = false

theorem within_ne_equals {r : Regexp Rune} (h : Within (fun c => (c.char != '=') = true) r)
    {m : List Rune} (hm : Matches r m) :
  .ascii equals ∉ m
  := by
  intro hmem
  exact absurd (h.forall_mem hm _ hmem) (by decide)

theorem isSpace_ne_equals {c : Rune} (h : isSpace c = true) :
  (c.char != '=') = true
  := by
  rw [bne_iff_ne]
  intro heq
  rw [isSpace, heq] at h
  exact absurd h (by decide)

theorem isTokenChar_ne_equals {c : Rune} (h : isTokenChar c = true) :
  (c.char != '=') = true
  := by
  rw [bne_iff_ne]
  intro heq
  rw [isTokenChar, heq] at h
  exact absurd h (by decide)

theorem within_literal_ne_equals {s : String}
    (hs : s.toList.all (fun c => c != '=' && c.toUpper != '=')) :
  Within (fun c => (c.char != '=') = true) (literal s)
  := within_literal (q := fun c => c != '=') hs (by decide) (by decide)

theorem isLetter_of_isSpace {c : Rune} (h : isSpace c = true) :
  isLetter c.char = false
  := by
  have hspaces : ∀ k ∈ [0x09, 0x0a, 0x0c, 0x0d, 0x20], isLetter (Char.ofNat k) = false := by
    decide
  rw [isSpace, decide_eq_true_eq] at h
  rw [← Char.ofNat_toNat c.char]
  apply hspaces _ h

theorem char_of_folds {c : Char} (hc : c.toUpper = c ∧ c ≠ 'k' ∧ c ≠ 's') {r : Rune}
    (h : folds c r = true) :
  r.char = c
  := by
  obtain ⟨hup, hk, hs⟩ := hc
  simp only [folds, hup, Bool.or_eq_true, Bool.and_eq_true, beq_iff_eq, hk, hs, false_and,
    or_false, or_self] at h
  apply h

theorem exists_dot_of_matches_jwtStart {m : List Rune} (hm : Matches jwtStart m) :
  ∃ m' d, m = m' ++ [d] ∧ d.char = '.'
  := by
  obtain ⟨m₁, _, -, ⟨m₂, _, -, ⟨m₃, _, -, ⟨_, _, ⟨d, hd, rfl⟩, rfl, rfl⟩, rfl⟩, rfl⟩, rfl⟩ := hm
  refine ⟨m₁ ++ (m₂ ++ m₃), d, ?_, char_of_folds (by decide) hd⟩
  simp

theorem endsOff_jwtStart :
  EndsOff jwtStart
  := by
  have htoken : Within (fun c => (c.char != '=') = true) (plus isTokenChar) :=
    ⟨fun _ => isTokenChar_ne_equals, fun _ => isTokenChar_ne_equals⟩
  have hspace : Within (fun c => (c.char != '=') = true) (plus isSpace) :=
    ⟨fun _ => isSpace_ne_equals, fun _ => isSpace_ne_equals⟩
  have hdot : Within (fun c => (c.char != '=') = true) (literal ".") :=
    within_literal_ne_equals (by decide)
  have hwithin : Within (fun c => (c.char != '=') = true) jwtStart :=
    ⟨⟨within_literal_ne_equals (by decide), hspace⟩, ⟨⟨htoken, hdot⟩, ⟨htoken, hdot⟩⟩⟩
  intro m hm
  use within_ne_equals hwithin hm
  obtain ⟨m', d, rfl, hd⟩ := exists_dot_of_matches_jwtStart hm
  intro c hc
  rw [List.getLast?_concat, Option.mem_some_iff] at hc
  rw [← hc, hd]
  decide

theorem isSpace_of_matches_authStart {m : List Rune} (hm : Matches authStart m) :
  ∀ c ∈ m.getLast?, isSpace c = true
  := by
  obtain ⟨m₁, _, -, ⟨m₂, _, -, ⟨m₃, m₄, -, hspaces, rfl⟩, rfl⟩, rfl⟩ := hm
  obtain ⟨a, m', ha, hm', rfl⟩ := matches_plus_iff.mp hspaces
  have hall : ∀ c ∈ a :: m', isSpace c = true := List.forall_mem_cons.mpr ⟨ha, hm'⟩
  intro c hc
  apply hall
  rw [← List.append_assoc, ← List.append_assoc,
    List.getLast?_append_of_ne_nil _ (List.cons_ne_nil a m')] at hc
  apply List.mem_of_getLast? hc

theorem endsOff_authStart :
  EndsOff authStart
  := by
  have hspace : Within (fun c => (c.char != '=') = true) (plus isSpace) :=
    ⟨fun _ => isSpace_ne_equals, fun _ => isSpace_ne_equals⟩
  have hwithin : Within (fun c => (c.char != '=') = true) authStart :=
    ⟨within_literal_ne_equals (by decide), fun _ => isSpace_ne_equals,
      within_literal_ne_equals (by decide), hspace⟩
  intro m hm
  use within_ne_equals hwithin hm
  intro c hc
  apply isLetter_of_isSpace (isSpace_of_matches_authStart hm c hc)

/-- What begins a match does not reach from a text into the name of a parameter behind it. -/
theorem stays_of_endsOff {r : Regexp Rune} (hr : EndsOff r) {n w : List Rune}
    (hn : ∀ c ∈ n, isLetter c.char = true) (z : List Rune) :
  Stays r z (n ++ .ascii equals :: w)
  := by
  intro u y hu heq hm
  obtain ⟨hequals, hlast⟩ := hr _ hm
  obtain ⟨t, rfl⟩ := prefix_of_not_mem heq (fun hmem => hequals (List.mem_append_right z hmem))
  obtain ⟨u, c, rfl⟩ := (List.eq_nil_or_concat u).resolve_left hu
  have hletter := hn c (by simp)
  rw [hlast c (by simp)] at hletter
  cases hletter

section

variable {name : GoString} (hname : IsParamName name)

include hname

theorem letter_of_mem_name :
  ∀ r ∈ name.map Rune.ascii, isLetter r.char = true
  := by
  intro r hr
  obtain ⟨c, hc, rfl⟩ := List.mem_map.mp hr
  apply (letter_of_isParamName hname c hc).2

theorem solid_param {v : GoString} (hv : IsClosedValue v) :
  ∀ r ∈ name.map Rune.ascii ++ .ascii equals :: decode v, Solid r
  := by
  have hletters : ∀ c : UInt8, c < 128 → isLetter (Rune.ascii c).char = true →
      isParamChar (.ascii c) = true := by
    decide +kernel
  intro r hr
  rw [List.mem_append, List.mem_cons] at hr
  obtain hr | rfl | hr := hr
  · obtain ⟨c, hc, rfl⟩ := List.mem_map.mp hr
    obtain ⟨hlt, hletter⟩ := letter_of_isParamName hname c hc
    apply hletters c hlt hletter
  · apply isParamChar_ascii equals (by decide)
  · apply solid_of_isClosedValue hv.not_isBreak r hr

omit hname in
theorem encode_param (v : GoString) :
  encode (name.map .ascii ++ .ascii equals :: decode v) = name ++ equals :: v
  := by
  rw [encode_append, encode_map_ascii, encode, List.flatMap_cons]
  change name ++ ([equals] ++ encode (decode v)) = _
  rw [encode_decode]
  rfl

/-- A pass that opens no match in a parameter keeps it. -/
theorem replaceAll_param {pattern : Regexp Rune} (hopens : Opens pattern) {v b : GoString}
    (hv : IsClosedValue v) (hb : IsRest b) :
  replaceAllStringFunc pattern (name ++ equals :: (v ++ b)) mask
    = name ++ equals :: (v ++ replaceAllStringFunc pattern b mask)
  := by
  rw [replaceAllStringFunc, decode_param hname hb,
    scan_of_closed hopens (solid_param hname hv) (closed_param (closed_of_isClosedValue hv))
      (breaks_of_isRest hb), List.flatMap_append, flatMap_replace_kept, encode_param,
    List.append_assoc, List.cons_append]
  rfl

end

theorem closed_nil :
  Closed []
  := by
  intro z hz
  obtain rfl := List.suffix_nil.mp hz
  simp only [literal, matches_word_iff, List.forall₂_nil_right_iff, List.map_eq_nil_iff]
  decide

/-- A pass that opens no match at a break keeps it. -/
theorem isRest_replaceAll {pattern : Regexp Rune} (hopens : Opens pattern) {b : GoString}
    (hb : IsRest b) :
  IsRest (replaceAllStringFunc pattern b mask)
  := by
  cases b with
  | nil => apply hb
  | cons c b =>
    have hlt := isBreak_lt c (hb c rfl)
    have hnone := first_of_closed hopens (List.forall_mem_nil _) closed_nil (breaks_of_isRest hb)
    rw [List.nil_append, decode_cons_ascii hlt] at hnone
    rw [replaceAllStringFunc, decode_cons_ascii hlt, scan_of_none hnone]
    apply hb

/-! ### The passes before a parameter -/

theorem isBoundary_spec : ∀ c : UInt8, isBoundary c = true →
  isTokenChar (.ascii c) = false ∧ (Rune.ascii c).char ≠ '.' ∧ isLetter (Rune.ascii c).char = false
  := by
  decide +kernel

theorem isTokenChar_of_isLetter {r : Rune} (h : isLetter r.char = true) :
  isTokenChar r = true
  := by
  simp only [isLetter, Bool.or_eq_true] at h
  simp only [isTokenChar, Char.isAlphanum, Bool.or_eq_true]
  tauto

/-- A text that is not empty and ends a string with a boundary ends with the boundary. -/
theorem exists_boundary_of_suffix {a : GoString} (ha : Bounded a) {z : List Rune} (hz : z ≠ [])
    (hsuffix : z <:+ decode a) :
  ∃ x c, isBoundary c = true ∧ z = x ++ [.ascii c]
  := by
  obtain rfl | ⟨x, c, hc, hx⟩ := decode_of_bounded ha
  · exact absurd (List.suffix_nil.mp hsuffix) hz
  · obtain ⟨z, r, rfl⟩ := (List.eq_nil_or_concat z).resolve_left hz
    obtain ⟨t, ht⟩ := hsuffix
    rw [hx, List.concat_eq_append, ← List.append_assoc] at ht
    obtain ⟨-, hr⟩ := List.append_inj' ht rfl
    obtain rfl := List.singleton_inj.mp hr
    use z, c, hc
    apply List.concat_eq_append

/-- A token does not reach over a boundary into a name. -/
theorem not_matches_jwtTokens {x n : List Rune} {c : UInt8} (hc : isBoundary c = true)
    (hn : ∀ r ∈ n, isLetter r.char = true) :
  ¬ Matches jwtTokens (x ++ [.ascii c] ++ n)
  := by
  obtain ⟨htoken, hdot, -⟩ := isBoundary_spec c hc
  rintro ⟨h, t, hh, ht, heq⟩
  obtain ⟨h, d, rfl, hd⟩ := exists_dot_of_matches_jwtStart hh
  obtain ⟨a, t, ha, htail, rfl⟩ := matches_plus_iff.mp ht
  have hall : ∀ r ∈ a :: t, isTokenChar r = true := List.forall_mem_cons.mpr ⟨ha, htail⟩
  have hlast : x ++ [.ascii c] ≠ h ++ [d] := by
    intro hconcat
    obtain ⟨-, hr⟩ := List.append_inj' hconcat rfl
    rw [← List.singleton_inj.mp hr] at hd
    apply hdot hd
  obtain ⟨u, hu, rfl⟩ | ⟨u, hu, hrun⟩ := List.append_eq_append_iff.mp heq
  · -- the last dot stands in the name
    obtain rfl | ⟨u, r, rfl⟩ := List.eq_nil_or_concat u
    · apply hlast (by simpa using hu.symm)
    · rw [List.concat_eq_append, ← List.append_assoc] at hu
      obtain ⟨-, hr⟩ := List.append_inj' hu rfl
      obtain rfl := List.singleton_inj.mp hr
      have hletter := hn d (by simp)
      rw [hd] at hletter
      exact absurd hletter (by decide)
  · -- the boundary stands behind the last dot
    obtain rfl | ⟨u, r, rfl⟩ := List.eq_nil_or_concat u
    · apply hlast (by simpa using hu)
    · rw [List.concat_eq_append, ← List.append_assoc] at hu
      obtain ⟨-, hr⟩ := List.append_inj' hu rfl
      obtain rfl := List.singleton_inj.mp hr
      have hchar := hall (.ascii c) (by rw [hrun]; simp)
      rw [htoken] at hchar
      cases hchar

theorem isHeaderChar_of_solid {r : Rune} (h : Solid r) :
  isHeaderChar r = true
  := by
  rw [Solid, isParamChar, Bool.and_eq_true] at h
  apply h.1

/-- The pass for JWT tokens keeps a parameter behind a boundary. -/
theorem exists_jwtTokens {a name : GoString} (ha : Bounded a) (hname : IsParamName name) :
  ∃ a', Bounded a' ∧ ∀ v b, IsClosedValue v → IsRest b →
    replaceAllStringFunc jwtTokens (a ++ (name ++ equals :: (v ++ b))) mask
      = a' ++ (name ++ equals :: (v ++ replaceAllStringFunc jwtTokens b mask))
  := by
  obtain ⟨a', m, hsuffix, hbounded, hpass⟩ := exists_replaceAll_append jwtStart isTokenChar ha
  have hletter := letter_of_mem_name hname
  have hne : name.map Rune.ascii ≠ [] := by
    rw [ne_eq, List.map_eq_nil_iff]
    apply ne_nil_of_isParamName hname
  have hspec := fun v b (hb : IsRest b) =>
    hpass (name ++ equals :: (v ++ b)) (name.map .ascii) (.ascii equals :: decode v ++ decode b)
      (decode_append_param hname a _) (by rw [decode_param hname hb, List.append_assoc]) hne
      (fun r hr => isTokenChar_of_isLetter (hletter r hr))
      (fun z _ _ => stays_of_endsOff endsOff_jwtStart hletter z)
  by_cases hm : m = []
  · use a', hbounded hm
    intro v b hv hb
    rw [← replaceAll_param hname opens_jwtTokens hv hb]
    have heq := (hspec v b hb).2
    rw [if_pos hm] at heq
    apply heq
  · use [], by simp [Bounded]
    intro v b hv hb
    obtain ⟨x, c, hc, rfl⟩ := exists_boundary_of_suffix ha hm hsuffix
    have hmatch := (hspec v b hb).1 hm
    rw [List.cons_append, List.takeWhile_cons_of_neg (by decide), List.append_nil] at hmatch
    exact absurd hmatch (not_matches_jwtTokens hc hletter)

/-- A match that swallows a parameter is masked without its value. -/
theorem mask_open (m t : List Rune) (name v : GoString) :
  mask (encode m ++ encode (name.map .ascii ++ .ascii equals :: decode v ++ t))
    = masked (encode m ++ name)
  := by
  rw [encode_append, encode_param, List.append_assoc, ← List.append_assoc (encode m),
    List.cons_append, mask_append_equals]

/-- The pass for headers keeps a parameter behind a boundary, or what comes out does not depend on
its value. -/
theorem exists_authHeaders {a name : GoString} (ha : Bounded a) (hname : IsParamName name) :
  (∃ a', Bounded a' ∧ ∀ v b, IsClosedValue v → IsRest b →
    replaceAllStringFunc authHeaders (a ++ (name ++ equals :: (v ++ b))) mask
      = a' ++ (name ++ equals :: (v ++ replaceAllStringFunc authHeaders b mask))) ∨
    ∀ b, IsRest b → ∃ out, ∀ v, IsClosedValue v →
      replaceAllStringFunc authHeaders (a ++ (name ++ equals :: (v ++ b))) mask = out
  := by
  obtain ⟨a', m, -, hbounded, hpass⟩ := exists_replaceAll_append authStart isHeaderChar ha
  have hletter := letter_of_mem_name hname
  have hspec := fun v b (hv : IsClosedValue v) (hb : IsRest b) =>
    (hpass (name ++ equals :: (v ++ b)) (name.map .ascii ++ .ascii equals :: decode v) (decode b)
      (decode_append_param hname a _) (decode_param hname hb) (by simp)
      (fun r hr => isHeaderChar_of_solid (solid_param hname hv r hr))
      (fun z _ _ => by
        rw [List.append_assoc, List.cons_append]
        apply stays_of_endsOff endsOff_authStart hletter z)).2
  by_cases hm : m = []
  · left
    use a', hbounded hm
    intro v b hv hb
    rw [← replaceAll_param hname opens_authHeaders hv hb]
    have heq := hspec v b hv hb
    rw [if_pos hm] at heq
    apply heq
  · right
    intro b hb
    use a' ++ (masked (encode m ++ name) ++
      (scan authHeaders ((decode b).dropWhile isHeaderChar)).flatMap (replace mask))
    intro v hv
    have heq := hspec v b hv hb
    rw [if_neg hm, mask_open] at heq
    apply heq

/-- What begins a match of the pattern for parameters is letters and an equals sign. -/
theorem exists_letters_of_matches {m : List Rune}
    (hm : Matches (.seq paramNames (literal "=")) m) :
  ∃ n, (∀ r ∈ n, isLetter r.char = true) ∧ ∃ e, e.char = '=' ∧ m = n ++ [e]
  := by
  have hwithin : Within (fun r => isLetter r.char = true) paramNames := by
    refine ⟨?_, ?_, ?_, ?_, ?_, ?_⟩ <;>
      apply within_literal (by decide) (by decide) (by decide)
  obtain ⟨n, _, hn, ⟨_, _, ⟨e, he, rfl⟩, rfl, rfl⟩, rfl⟩ := hm
  use n, hwithin.forall_mem hn, e, char_of_folds (by decide) he
  simp

/-- A name and an equals sign do not reach over a boundary. -/
theorem stays_paramNames {a : GoString} (ha : Bounded a) {z : List Rune} (hz : z ≠ [])
    (hsuffix : z <:+ decode a) (y : List Rune) :
  Stays (.seq paramNames (literal "=")) z y
  := by
  intro u w hu _ hm
  obtain ⟨n, hn, e, -, heq⟩ := exists_letters_of_matches hm
  obtain ⟨x, c, hc, rfl⟩ := exists_boundary_of_suffix ha hz hsuffix
  obtain ⟨u, r, rfl⟩ := (List.eq_nil_or_concat u).resolve_left hu
  rw [List.concat_eq_append, ← List.append_assoc] at heq
  obtain ⟨rfl, -⟩ := List.append_inj' heq rfl
  have hletter := hn (.ascii c) (by simp)
  rw [(isBoundary_spec c hc).2.2] at hletter
  cases hletter

theorem eq_of_letters {n₁ n₂ y₁ y₂ : List Rune} {e₁ e₂ : Rune}
    (hn₁ : ∀ r ∈ n₁, isLetter r.char = true) (he₁ : isLetter e₁.char = false)
    (hn₂ : ∀ r ∈ n₂, isLetter r.char = true) (he₂ : isLetter e₂.char = false)
    (heq : n₁ ++ e₁ :: y₁ = n₂ ++ e₂ :: y₂) :
  y₁ = y₂
  := by
  obtain ⟨u, rfl, hu⟩ | ⟨u, rfl, hu⟩ := List.append_eq_append_iff.mp heq
  · cases u with
    | nil => apply (List.cons.inj hu).2
    | cons r u =>
      obtain ⟨rfl, -⟩ := List.cons.inj hu
      rw [hn₂ e₁ (by simp)] at he₁
      cases he₁
  · cases u with
    | nil => apply (List.cons.inj hu).2.symm
    | cons r u =>
      obtain ⟨rfl, -⟩ := List.cons.inj hu
      rw [hn₁ e₂ (by simp)] at he₂
      cases he₂

theorem dropWhile_of_breaks {b : List Rune} (hb : Breaks b) :
  b.dropWhile isParamChar = b
  := by
  cases b with
  | nil => rfl
  | cons r b => apply List.dropWhile_cons_of_neg (hb r rfl)

theorem decode_ne_nil {v : GoString} (h : v ≠ []) :
  decode v ≠ []
  := by
  intro hnil
  apply h
  rw [← encode_decode v, hnil]
  rfl

/-- The pass for parameters takes a parameter as a whole. -/
theorem scan_urlParams {name : GoString} (hname : IsParamName name) {v b : GoString}
    (hv : IsClosedValue v) (hb : IsRest b) :
  scan urlParams ((name.map .ascii ++ .ascii equals :: decode v) ++ decode b)
    = .found (name.map .ascii ++ .ascii equals :: decode v) :: scan urlParams (decode b)
  := by
  obtain ⟨r, w, hw⟩ := List.exists_cons_of_ne_nil (decode_ne_nil hv.ne_nil)
  have hsolid := solid_of_isClosedValue hv.not_isBreak
  have hends : ∀ y, y ∈ ends (.seq paramNames (literal "="))
      (name.map .ascii ++ .ascii equals :: decode v ++ decode b) → y = decode v ++ decode b := by
    intro y hy
    obtain ⟨m, hm, heq⟩ := mem_ends_iff.mp hy
    obtain ⟨n, hn, e, he, rfl⟩ := exists_letters_of_matches hm
    rw [List.append_assoc, List.append_assoc, List.singleton_append, List.cons_append] at heq
    apply eq_of_letters hn (by rw [he]; decide) (letter_of_mem_name hname) (by decide) heq
  have hmem : decode v ++ decode b ∈ ends (.seq paramNames (literal "="))
      (name.map .ascii ++ .ascii equals :: decode v ++ decode b) := by
    rw [mem_ends_iff]
    refine ⟨name.map .ascii ++ [.ascii equals],
      ⟨_, _, matches_paramNames hname, ⟨_, _, ⟨_, by decide, rfl⟩, rfl, rfl⟩, rfl⟩, ?_⟩
    simp
  apply scan_of_some
  · have hdrop : (decode v ++ decode b).dropWhile isParamChar = decode b := by
      rw [List.dropWhile_append_of_pos hsolid]
      apply dropWhile_of_breaks (breaks_of_isRest hb)
    rw [urlParams, first_seq_plus]
    cases hfind : (ends (.seq paramNames (literal "="))
        (name.map .ascii ++ .ascii equals :: decode v ++ decode b)).find?
          (fun y => y.head?.any isParamChar) with
    | none =>
      have hhead := List.find?_eq_none.mp hfind _ hmem
      rw [hw, List.cons_append, List.head?_cons, Option.any_some] at hhead
      exact absurd (hsolid r (by simp [hw])) hhead
    | some y => rw [hends y (List.mem_of_find?_eq_some hfind), Option.map_some, hdrop]
  · simp

/-- The pass for parameters: what comes out does not depend on the value. -/
theorem exists_urlParams {a name : GoString} (ha : Bounded a) (hname : IsParamName name)
    {b : GoString} (hb : IsRest b) :
  ∃ out, ∀ v, IsClosedValue v →
    replaceAllStringFunc urlParams (a ++ (name ++ equals :: (v ++ b))) mask = out
  := by
  obtain ⟨a', m, -, -, hpass⟩ :=
    exists_replaceAll_append (.seq paramNames (literal "=")) isParamChar ha
  have hspec := fun v (hv : IsClosedValue v) =>
    (hpass (name ++ equals :: (v ++ b)) (name.map .ascii ++ .ascii equals :: decode v)
      (decode b) (decode_append_param hname a _) (decode_param hname hb) (by simp)
      (solid_param hname hv) (fun z hz hsuffix => stays_paramNames ha hz hsuffix _)).2
  by_cases hm : m = []
  · use a' ++ (masked name ++ replaceAllStringFunc urlParams b mask)
    intro v hv
    have heq := hspec v hv
    rw [if_pos hm] at heq
    rw [urlParams, heq, ← urlParams, replaceAllStringFunc, decode_param hname hb,
      scan_urlParams hname hv hb, List.flatMap_cons, replace_found, encode_param,
      mask_append_equals]
    rfl
  · use a' ++ (masked (encode m ++ name) ++
      (scan urlParams ((decode b).dropWhile isParamChar)).flatMap (replace mask))
    intro v hv
    have heq := hspec v hv
    rw [if_neg hm, mask_open] at heq
    apply heq

/-! ### The value of a parameter -/

/-- What is logged for a string with a parameter that is masked does not depend on the value of
the parameter, among the values that do not end with `bearer` or `authorization:`. -/
theorem sanitizeString_param {a name v₁ v₂ b : GoString} (ha : Bounded a)
    (hname : IsParamName name) (hv₁ : IsClosedValue v₁) (hv₂ : IsClosedValue v₂) (hb : IsRest b) :
  sanitizeString (a ++ name ++ equals :: v₁ ++ b) = sanitizeString (a ++ name ++ equals :: v₂ ++ b)
  := by
  obtain ⟨a₁, ha₁, hjwt⟩ := exists_jwtTokens ha hname
  have hb₁ := isRest_replaceAll opens_jwtTokens hb
  have hout : ∃ out, ∀ v, IsClosedValue v →
      replaceAllStringFunc urlParams (replaceAllStringFunc authHeaders
        (replaceAllStringFunc jwtTokens (a ++ name ++ equals :: v ++ b) mask) mask) mask = out := by
    obtain ⟨a₂, ha₂, hauth⟩ | hauth := exists_authHeaders ha₁ hname
    · obtain ⟨out, hout⟩ :=
        exists_urlParams ha₂ hname (isRest_replaceAll opens_authHeaders hb₁)
      use out
      intro v hv
      rw [List.append_assoc, List.append_assoc, List.cons_append, hjwt v b hv hb,
        hauth v _ hv hb₁, hout v hv]
    · obtain ⟨out, hout⟩ := hauth _ hb₁
      use replaceAllStringFunc urlParams out mask
      intro v hv
      rw [List.append_assoc, List.append_assoc, List.cons_append, hjwt v b hv hb, hout v hv]
  obtain ⟨out, hout⟩ := hout
  simp only [sanitizeString, sensitivePatterns, List.foldl_cons, List.foldl_nil]
  rw [hout v₁ hv₁, hout v₂ hv₂]

theorem sanitizeString_param_login :
  sanitizeString (str "POST /login?user=bob&" ++ str "PassWord" ++ equals :: str "hunter2" ++
      str "&x=1 ok")
    = sanitizeString (str "POST /login?user=bob&" ++ str "PassWord" ++ equals :: str "s3=cr,t" ++
      str "&x=1 ok")
  := by
  apply sanitizeString_param
  · unfold Bounded
    decide +kernel
  · unfold IsParamName
    decide +kernel
  · constructor <;> decide +kernel
  · constructor <;> decide +kernel
  · unfold IsRest
    decide +kernel

-- a value that ends with `bearer`, and one that does not
example :
    sanitizeString (str "password=xBearer a.b.c") ≠ sanitizeString (str "password=y a.b.c") := by
  decide +kernel

end Logging

end VmProxyAuth
