import VmProxyAuth.Lib.Regexp
import VmProxyAuth.Lib.Runes
import VmProxyAuth.Logging.LogFmt

/-!
# The sanitiser of the log

String values are logged after four passes, each of which replaces the matches of one pattern by a
mask.  The patterns, the passes and the mask are modelled as they are.  A pass works its way through
a string independently of what stands behind a letter that no match can run over
(`exists_replaceAll_append`).
-/

namespace VmProxyAuth

namespace Logging

open Regexp Utf8

abbrev colon : UInt8 := 0x3a
abbrev ampersand : UInt8 := 0x26

/-! ### The sanitiser -/

/-- A letter of a pattern with `(?i)`: the letter in either case, and with `k` the Kelvin sign and
with `s` the long s. -/
def folds (c : Char) (r : Rune) : Bool :=
  r.char == c || r.char == c.toUpper || (c == 'k' && r.char.toNat == 0x212a) ||
    (c == 's' && r.char.toNat == 0x17f)

/-- A word of a pattern with `(?i)`. -/
def literal (s : String) : Regexp Rune := .word (s.toList.map folds)

/-- White space, `\s`. -/
def isSpace (r : Rune) : Bool := r.char.toNat ∈ [0x09, 0x0a, 0x0c, 0x0d, 0x20]

/-- A letter of a token, `[a-zA-Z0-9\-_]` with `(?i)`. -/
def isTokenChar (r : Rune) : Bool :=
  r.char.isAlphanum || r.char == '-' || r.char == '_' || r.char.toNat == 0x212a ||
    r.char.toNat == 0x17f

/-- What may stand between the words of a name, `[_-]`. -/
def isDash (r : Rune) : Bool := r.char == '_' || r.char == '-'

/-- A letter of the value of a header, `[^\s]`. -/
def isHeaderChar (r : Rune) : Bool := !isSpace r

/-- A letter of the value of a parameter, `[^\s&]`. -/
def isParamChar (r : Rune) : Bool := !isSpace r && r.char != '&'

/-- A letter of a value in JSON or YAML, `[^\s,}]`. -/
def isYamlChar (r : Rune) : Bool := !isSpace r && r.char != ',' && r.char.toNat != 0x7d

/-- The part of the pattern for JWT tokens before its last repetition. -/
def jwtStart : Regexp Rune :=
  .seq (.seq (literal "bearer") (plus isSpace))
    (.seq (.seq (plus isTokenChar) (literal ".")) (.seq (plus isTokenChar) (literal ".")))

/-- JWT tokens: `(?i)bearer\s+[a-zA-Z0-9\-_]+\.[a-zA-Z0-9\-_]+\.[a-zA-Z0-9\-_]+`. -/
def jwtTokens : Regexp Rune := .seq jwtStart (plus isTokenChar)

/-- The part of the pattern for headers before its last repetition. -/
def authStart : Regexp Rune :=
  .seq (literal "authorization:") (.seq (many isSpace) (.seq (literal "bearer") (plus isSpace)))

/-- Authorization headers: `(?i)authorization:\s*bearer\s+[^\s]+`. -/
def authHeaders : Regexp Rune := .seq authStart (plus isHeaderChar)

/-- The names of parameters: `password|passwd|pwd|secret|token|key`. -/
def paramNames : Regexp Rune :=
  .alt (literal "password") (.alt (literal "passwd") (.alt (literal "pwd")
    (.alt (literal "secret") (.alt (literal "token") (literal "key")))))

/-- Parameters: `(?i)(password|passwd|pwd|secret|token|key)=[^\s&]+`. -/
def urlParams : Regexp Rune := .seq (.seq paramNames (literal "=")) (plus isParamChar)

/-- The names of keys: `api[_-]?key|access[_-]?token|secret[_-]?key`. -/
def yamlNames : Regexp Rune :=
  .alt (.seq (literal "api") (.seq (.optional (.one isDash)) (literal "key")))
    (.alt (.seq (literal "access") (.seq (.optional (.one isDash)) (literal "token")))
      (.seq (literal "secret") (.seq (.optional (.one isDash)) (literal "key"))))

/-- Keys in JSON or YAML: `(?i)(api[_-]?key|access[_-]?token|secret[_-]?key):\s*[^\s,}]+`. -/
def yamlValues : Regexp Rune :=
  .seq (.seq yamlNames (.seq (literal ":") (many isSpace))) (plus isYamlChar)

/-- `sensitivePatterns`. -/
def sensitivePatterns : List (Regexp Rune) := [jwtTokens, authHeaders, urlParams, yamlValues]

/-- The bytes that come out for a piece of a string. -/
def replace (f : GoString → GoString) : Piece Rune → GoString
  | .kept r => r.bytes
  | .found m => f (encode m)

/-- The string after `pattern.ReplaceAllStringFunc(src, repl)`, for a pattern that does not match
the empty string. -/
def replaceAllStringFunc (pattern : Regexp Rune) (src : GoString) (repl : GoString → GoString) :
    GoString :=
  (scan pattern (decode src)).flatMap (replace repl)

/-- What a match is replaced with: the name of the field and a mask. -/
def mask (m : GoString) : GoString :=
  if equals ∈ m then GoString.before equals m ++ equals :: str "[REDACTED]"
  else if colon ∈ m then GoString.before colon m ++ colon :: str " [REDACTED]"
  else str "[REDACTED]"

/-- `sanitizeString`. -/
def sanitizeString (s : GoString) : GoString :=
  sensitivePatterns.foldl (fun result pattern => replaceAllStringFunc pattern result mask) s

example : sanitizeString (str "login?user=a&PassWord=b.c&x=1 authorization:  bearer x.y.z") =
    str "login?user=a&PassWord=[REDACTED]&x=1 authorization:  [REDACTED]" := by
  decide +kernel

example : sanitizeString (str "api-key: abc, secret_key:d\x7d bearer a.b.token=c") =
    str "api-key: [REDACTED], secret_key: [REDACTED]\x7d [REDACTED]=c" := by
  decide +kernel

/-! ### The letters of the patterns -/

/-- A letter, in the sense of the patterns. -/
def isLetter (c : Char) : Bool := c.isAlpha || c.toNat == 0x212a || c.toNat == 0x17f

theorem folds_char {q : Char → Bool} {c : Char} (hc : q c && q c.toUpper)
    (hk : q (Char.ofNat 0x212a)) (hs : q (Char.ofNat 0x17f)) {r : Rune} (h : folds c r = true) :
  q r.char = true
  := by
  simp only [folds, Bool.or_eq_true, Bool.and_eq_true, beq_iff_eq] at h hc
  obtain ((h | h) | ⟨-, h⟩) | ⟨-, h⟩ := h
  · rw [h]
    apply hc.1
  · rw [h]
    apply hc.2
  · rw [← Char.ofNat_toNat r.char, h]
    apply hk
  · rw [← Char.ofNat_toNat r.char, h]
    apply hs

theorem within_literal {q : Char → Bool} {s : String}
    (h : s.toList.all (fun c => q c && q c.toUpper)) (hk : q (Char.ofNat 0x212a))
    (hs : q (Char.ofNat 0x17f)) :
  Within (fun r => q r.char = true) (literal s)
  := by
  apply within_word
  intro p hp r hr
  obtain ⟨c, hc, rfl⟩ := List.mem_map.mp hp
  apply folds_char (List.all_eq_true.mp h c hc) hk hs hr

/-- The lower case of a byte of ASCII. -/
def lower (a : UInt8) : UInt8 := if 0x41 ≤ a ∧ a ≤ 0x5a then a + 0x20 else a

/-- A letter of a pattern other than the signs. -/
def isWordChar (c : Char) : Bool := c.isLower || c == ':'

theorem toNat_lt_of_isWordChar {c : Char} (hc : isWordChar c = true) :
  c.toNat < 0x80
  := by
  simp only [isWordChar, Char.isLower, Bool.or_eq_true, Bool.and_eq_true, decide_eq_true_eq,
    beq_iff_eq] at hc
  obtain ⟨-, hle⟩ | rfl := hc
  · apply lt_of_le_of_lt (show c.toNat ≤ 122 from hle) (by decide)
  · decide

theorem toUpper_toNat_lt_of_isWordChar {c : Char} (hc : isWordChar c = true) :
  c.toUpper.toNat < 0x80
  := by
  have hall : (List.range 0x80).all (fun k => (Char.ofNat k).toUpper.toNat < 0x80) := by
    decide +kernel
  have hk := List.all_eq_true.mp hall _ (List.mem_range.mpr (toNat_lt_of_isWordChar hc))
  rw [Char.ofNat_toNat, decide_eq_true_eq] at hk
  apply hk

/-- For a byte of ASCII, a letter of a pattern is the letter in either case. -/
theorem folds_ascii_iff {c : Char} (hc : isWordChar c = true) {a : UInt8} (ha : a < 128) :
  folds c (.ascii a) = true ↔ lower a = UInt8.ofNat c.toNat
  := by
  have hall : (List.range 0x80).all (fun k => !isWordChar (Char.ofNat k) ||
      (List.range 0x80).all (fun n => folds (Char.ofNat k) (.ascii (UInt8.ofNat n))
        == (lower (UInt8.ofNat n) == UInt8.ofNat (Char.ofNat k).toNat))) := by
    decide +kernel
  have hk := List.all_eq_true.mp hall _ (List.mem_range.mpr (toNat_lt_of_isWordChar hc))
  rw [Char.ofNat_toNat, hc, Bool.not_true, Bool.false_or] at hk
  have hfolds := List.all_eq_true.mp hk _ (List.mem_range.mpr (UInt8.lt_iff_toNat_lt.mp ha))
  rw [UInt8.ofNat_toNat, beq_iff_eq] at hfolds
  rw [hfolds, beq_iff_eq]

/-- ASCII is matched by a word exactly if it is the word in lower case. -/
theorem matches_literal_ascii_iff {s : String} (hs : s.toList.all isWordChar) {x : GoString}
    (hx : ∀ a ∈ x, a < 128) :
  Matches (literal s) (x.map .ascii) ↔ x.map lower = str s
  := by
  rw [literal, matches_word_iff, List.forall₂_map_left_iff, List.forall₂_map_right_iff, str]
  rw [List.all_eq_true] at hs
  generalize s.toList = l at hs
  induction l generalizing x with
  | nil =>
    cases x with
    | nil => simp
    | cons a x => simp
  | cons c l ih =>
    obtain ⟨hc, hl⟩ := List.forall_mem_cons.mp hs
    rw [List.flatMap_cons, utf8EncodeChar_of_lt (toNat_lt_of_isWordChar hc), List.singleton_append]
    cases x with
    | nil => simp
    | cons a x =>
      obtain ⟨ha, hx⟩ := List.forall_mem_cons.mp hx
      rw [List.forall₂_cons, folds_ascii_iff hc ha, List.map_cons, List.cons.injEq]
      apply and_congr_right (fun _ => ih hx hl)

/-- A word without `k` and `s` is matched by ASCII only. -/
theorem exists_ascii_of_matches {s : String}
    (hs : s.toList.all (fun c => isWordChar c && c != 'k' && c != 's'))
    {v : GoString} {z : List Rune} (hz : z <:+ decode v) (hm : Matches (literal s) z) :
  ∃ x, x <:+ v ∧ (∀ a ∈ x, a < 128) ∧ z = x.map .ascii
  := by
  have hchars : ∀ r ∈ z, r.char.toNat < 0x80 := by
    have hwithin : Within (fun r => r.char.toNat < 0x80) (literal s) := by
      apply within_word
      intro p hp r hr
      obtain ⟨c, hc, rfl⟩ := List.mem_map.mp hp
      have hchar := List.all_eq_true.mp hs c hc
      simp only [Bool.and_eq_true, bne_iff_ne] at hchar
      obtain ⟨⟨hword, hk⟩, hs⟩ := hchar
      simp only [folds, Bool.or_eq_true, Bool.and_eq_true, beq_iff_eq] at hr
      obtain ((hr | hr) | ⟨hr, -⟩) | ⟨hr, -⟩ := hr
      · rw [hr]
        apply toNat_lt_of_isWordChar hword
      · rw [hr]
        apply toUpper_toNat_lt_of_isWordChar hword
      · exact absurd hr hk
      · exact absurd hr hs
    apply hwithin.forall_mem hm
  have hascii : ∀ r ∈ z, ∃ a < 128, r = .ascii a := by
    intro r hr
    obtain ⟨a, -, ha, rfl⟩ := eq_ascii_of_mem_decode (hz.subset hr) (hchars r hr)
    use a, ha
  obtain ⟨x, hx, rfl⟩ : ∃ x : GoString, (∀ a ∈ x, a < 128) ∧ z = x.map .ascii := by
    clear hz hm hchars
    induction z with
    | nil =>
      use [], List.forall_mem_nil _
      rfl
    | cons r z ih =>
      obtain ⟨⟨a, ha, rfl⟩, hz⟩ := List.forall_mem_cons.mp hascii
      obtain ⟨x, hx, rfl⟩ := ih hz
      use a :: x, List.forall_mem_cons.mpr ⟨ha, hx⟩
      rfl
  refine ⟨x, ?_, hx, rfl⟩
  obtain ⟨t, ht⟩ := hz
  use encode t
  rw [← encode_decode v, ← ht, encode_append, encode_map_ascii]

/-! ### What begins a match -/

/-- A rune that is no space and no ampersand. -/
def Solid (r : Rune) : Prop := isParamChar r = true

/-- A match of the first two patterns begins with a word of solid runes, which ends with the word
`bearer` or `authorization:`, and a space. -/
def Opens (pattern : Regexp Rune) : Prop :=
  ∀ m, Matches pattern m → ∃ l s, l ++ [s] <+: m ∧ isSpace s = true ∧ (∀ r ∈ l, Solid r) ∧
    ∃ z, z <:+ l ∧ (Matches (literal "bearer") z ∨ Matches (literal "authorization:") z)

theorem solid_of_matches_literal {s : String}
    (hs : s.toList.all (fun c => isParamChar ⟨c, []⟩ && isParamChar ⟨c.toUpper, []⟩))
    {z : List Rune} (h : Matches (literal s) z) :
  ∀ r ∈ z, Solid r
  := (within_literal (q := fun c => isParamChar ⟨c, []⟩) hs (by decide) (by decide)).forall_mem h

theorem opens_jwtTokens :
  Opens jwtTokens
  := by
  rintro m ⟨_, t₂, ⟨_, t₁, ⟨z, _, hz, hspaces, rfl⟩, -, rfl⟩, -, rfl⟩
  obtain ⟨s, m', hs, -, rfl⟩ := matches_plus_iff.mp hspaces
  refine ⟨z, s, ?_, hs, solid_of_matches_literal (by decide) hz, z, List.suffix_rfl, .inl hz⟩
  use m' ++ t₁ ++ t₂
  simp

theorem opens_authHeaders :
  Opens authHeaders
  := by
  rintro m ⟨_, t₂, ⟨l, _, hl, ⟨spaces, _, hmany, ⟨z, t₁, hz, hspaces, rfl⟩, rfl⟩, rfl⟩, -, rfl⟩
  have hlsolid := solid_of_matches_literal (by decide) hl
  have hzsolid := solid_of_matches_literal (by decide) hz
  cases spaces with
  | nil =>
    obtain ⟨s, m', hs, -, rfl⟩ := matches_plus_iff.mp hspaces
    refine ⟨l ++ z, s, ?_, hs, List.forall_mem_append.mpr ⟨hlsolid, hzsolid⟩, z,
      List.suffix_append l z, .inl hz⟩
    use m' ++ t₂
    simp
  | cons s spaces =>
    refine ⟨l, s, ?_, hmany s List.mem_cons_self, hlsolid, l, List.suffix_rfl, .inr hl⟩
    use spaces ++ (z ++ t₁) ++ t₂
    simp

/-- A text that is empty or begins with a space or an ampersand. -/
def Breaks (b : List Rune) : Prop := ∀ r ∈ b.head?, ¬ Solid r

/-- No word that opens a match ends a text. -/
def Closed (w : List Rune) : Prop :=
  ∀ z, z <:+ w → ¬ Matches (literal "bearer") z ∧ ¬ Matches (literal "authorization:") z

/-- Where solid runes are followed by a break, a match that opens there takes all of them for its
first word. -/
theorem eq_of_opens {l z b y : List Rune} {s : Rune} (hl : ∀ r ∈ l, Solid r)
    (hs : isSpace s = true) (hz : ∀ r ∈ z, Solid r) (hb : Breaks b)
    (heq : l ++ s :: y = z ++ b) :
  z = l
  := by
  have hspace : ¬ Solid s := by simp [Solid, isParamChar, hs]
  obtain ⟨u, rfl, hu⟩ | ⟨u, rfl, hu⟩ := List.append_eq_append_iff.mp heq
  · cases u with
    | nil => rw [List.append_nil]
    | cons r u =>
      obtain ⟨rfl, -⟩ := List.cons.inj hu
      exact absurd (hz s (by simp)) hspace
  · cases u with
    | nil => rw [List.append_nil]
    | cons r u => exact absurd (hl r (by simp)) (hb r (by simp [hu]))

/-- No match opens in a closed text of solid runes, or at the break behind it. -/
theorem first_of_closed {pattern : Regexp Rune} (hopens : Opens pattern) {z b : List Rune}
    (hz : ∀ r ∈ z, Solid r) (hclosed : Closed z) (hb : Breaks b) :
  first pattern (z ++ b) = none
  := by
  rw [first_eq_none_iff]
  intro m y hm heq
  obtain ⟨l, s, ⟨t, rfl⟩, hs, hl, w, hw, hword⟩ := hopens m hm
  rw [List.append_assoc, List.append_assoc, List.singleton_append] at heq
  obtain rfl := eq_of_opens hl hs hz hb heq
  obtain hword | hword := hword
  · apply (hclosed w hw).1 hword
  · apply (hclosed w hw).2 hword

/-- A closed text of solid runes is kept. -/
theorem scan_of_closed {pattern : Regexp Rune} (hopens : Opens pattern) {w b : List Rune}
    (hw : ∀ r ∈ w, Solid r) (hclosed : Closed w) (hb : Breaks b) :
  scan pattern (w ++ b) = w.map .kept ++ scan pattern b
  := by
  apply scan_append_of_none
  intro z _ hz
  apply first_of_closed hopens _ _ hb
  · intro r hr
    apply hw r (hz.subset hr)
  · intro t ht
    apply hclosed t (ht.trans hz)

/-! ### One pass -/

/-- A byte that neither continues a token nor is a dot. -/
def isBoundary (a : UInt8) : Bool := a < 128 && !isTokenChar (.ascii a) && a != 0x2e

/-- A string that is empty or ends with such a byte. -/
def Bounded (a : GoString) : Prop := ∀ c ∈ a.getLast?, isBoundary c = true

theorem mask_eq_concat (m : GoString) :
  ∃ x, mask m = x ++ [0x5d]
  := by
  have hmask : str "[REDACTED]" = str "[REDACTED" ++ [0x5d] := by decide +kernel
  have hspace : str " [REDACTED]" = str " [REDACTED" ++ [0x5d] := by decide +kernel
  rw [mask, hmask, hspace]
  split_ifs
  · use GoString.before equals m ++ equals :: str "[REDACTED"
    simp
  · use GoString.before colon m ++ colon :: str " [REDACTED"
    simp
  · use str "[REDACTED"

/-- The mask of a match with `x` and an equals sign at its beginning. -/
def masked (x : GoString) : GoString :=
  GoString.before equals (x ++ [equals]) ++ equals :: str "[REDACTED]"

/-- What stands behind an equals sign does not change how a match is masked. -/
theorem mask_append_equals (x y : GoString) :
  mask (x ++ equals :: y) = masked x
  := by
  rw [mask, masked, if_pos (by simp)]
  congr 1
  induction x with
  | nil => simp [GoString.before]
  | cons c x ih =>
    simp only [GoString.before, List.cons_append, List.takeWhile_cons] at ih ⊢
    rw [ih]

theorem replace_found (f : GoString → GoString) (m : List Rune) :
  replace f (.found m) = f (encode m)
  := rfl

theorem flatMap_replace_kept (x : List Rune) :
  (x.map .kept).flatMap (replace mask) = encode x
  := by
  rw [List.flatMap_map]
  rfl

theorem decode_of_bounded {a : GoString} (ha : Bounded a) :
  a = [] ∨ ∃ x c, isBoundary c = true ∧ decode a = x ++ [.ascii c]
  := by
  obtain rfl | ⟨x, c, rfl⟩ := List.eq_nil_or_concat a
  · left
    rfl
  · right
    have hc : isBoundary c = true := ha c (by simp)
    have hlt : c < 128 := by
      simp only [isBoundary, Bool.and_eq_true, decide_eq_true_eq] at hc
      apply hc.1.1
    use decode x, c, hc
    rw [List.concat_eq_append, decode_append hlt, decode_cons_ascii hlt]
    rfl

theorem bounded_flatMap_replace {a : GoString} (ha : Bounded a) {S : List (Piece Rune)}
    (hS : S.flatMap Piece.text = decode a) :
  Bounded (S.flatMap (replace mask))
  := by
  obtain rfl | ⟨S, piece, rfl⟩ := List.eq_nil_or_concat S
  · intro c hc
    simp at hc
  · rw [List.concat_eq_append, List.flatMap_append, List.flatMap_singleton] at hS ⊢
    cases piece with
    | kept r =>
      obtain rfl | ⟨x, c, hc, hx⟩ := decode_of_bounded ha
      · simp [Piece.text, decode, decodeFrom] at hS
      · rw [hx] at hS
        obtain ⟨-, hr⟩ := List.append_inj' hS rfl
        obtain rfl := List.singleton_inj.mp hr
        intro c' hc'
        simp only [replace, Rune.ascii, List.getLast?_append, List.getLast?_singleton,
          Option.some_or, Option.mem_some_iff] at hc'
        rw [← hc']
        apply hc
    | found m =>
      obtain ⟨x, hx⟩ := mask_eq_concat (encode m)
      intro c' hc'
      simp only [replace, hx, ← List.append_assoc, List.getLast?_append, List.getLast?_singleton,
          Option.some_or, Option.mem_some_iff] at hc'
      rw [← hc']
      decide

/-- A pass over a string `a` with a boundary, before a run of runes that the last repetition of
the pattern takes: whatever the run is and whatever follows it, either a match that began in `a`
is open and swallows the run, or what comes out for `a` is the same and has a boundary. -/
theorem exists_replaceAll_append (r : Regexp Rune) (p : Rune → Bool) {a : GoString}
    (ha : Bounded a) :
  ∃ a' m, m <:+ decode a ∧ (m = [] → Bounded a') ∧
    ∀ s v b, decode (a ++ s) = decode a ++ decode s → decode s = v ++ b → v ≠ [] →
      (∀ r ∈ v, p r = true) → (∀ z, z ≠ [] → z <:+ decode a → Stays r z (v ++ b)) →
      (m ≠ [] → Matches (.seq r (plus p)) (m ++ (v ++ b.takeWhile p))) ∧
      replaceAllStringFunc (.seq r (plus p)) (a ++ s) mask
        = a' ++ (if m = [] then replaceAllStringFunc (.seq r (plus p)) s mask
          else mask (encode m ++ encode (v ++ b.takeWhile p)) ++
            (scan (.seq r (plus p)) (b.dropWhile p)).flatMap (replace mask))
  := by
  obtain ⟨S, m, hSm, hscan⟩ := exists_scansBefore r p (decode a)
  refine ⟨S.flatMap (replace mask), m, ?_, ?_, ?_⟩
  · use S.flatMap Piece.text
  · rintro rfl
    rw [List.append_nil] at hSm
    apply bounded_flatMap_replace ha hSm
  · intro s v b hcut hs hv hrun hstays
    have heq := hscan v b hv hrun hstays
    rw [← hs, ← hcut] at heq
    constructor
    · intro hm
      rw [if_neg hm] at heq
      apply matches_of_found (x := decode (a ++ s)) (not_matches_seq_plus_nil r p)
      rw [heq]
      simp
    · rw [replaceAllStringFunc, heq, List.flatMap_append]
      congr 1
      split_ifs
      · rfl
      · rw [List.flatMap_cons, replace_found, encode_append]

end Logging

end VmProxyAuth
