import VmProxyAuth.Logging.Secrets

/-!
# Authorization headers in the log

What the sanitiser makes of a header `Authorization: Bearer w` for a token `w` that is not a JWT:
a token without dots and colons.  The value is masked from the first equals sign of the whole
match on, so a token that is padded as in base64 is logged up to its padding
(`sanitizeString_authorization`).
-/

namespace VmProxyAuth

namespace Logging

open Regexp Utf8

/-! ### Passes without a match -/

/-- A pattern whose matches all have a certain byte of ASCII finds nothing where it is missing. -/
theorem scan_of_not_mem {pattern : Regexp Rune} {c : UInt8}
    (hneeds : ∀ m, Matches pattern m → ∃ r ∈ m, r.char.toNat = c.toNat) (hc : c < 128)
    {s : GoString} (hs : c ∉ s) :
  scan pattern (decode s) = (decode s).map .kept
  := by
  apply scan_of_forall_none
  intro z _ hz
  rw [first_eq_none_iff]
  rintro m y hm rfl
  obtain ⟨r, hr, hchar⟩ := hneeds m hm
  apply toNat_ne_of_not_mem hc hs r (hz.subset (List.mem_append_left y hr)) hchar

theorem replaceAll_of_not_mem {pattern : Regexp Rune} {c : UInt8}
    (hneeds : ∀ m, Matches pattern m → ∃ r ∈ m, r.char.toNat = c.toNat) (hc : c < 128)
    {s : GoString} (hs : c ∉ s) :
  replaceAllStringFunc pattern s mask = s
  := by
  rw [replaceAllStringFunc, scan_of_not_mem hneeds hc hs, flatMap_replace_kept, encode_decode]

theorem jwtTokens_needs {m : List Rune} (hm : Matches jwtTokens m) :
  ∃ r ∈ m, r.char.toNat = (0x2e : UInt8).toNat
  := by
  obtain ⟨m₁, m₂, hm₁, -, rfl⟩ := hm
  obtain ⟨m', d, rfl, hd⟩ := exists_dot_of_matches_jwtStart hm₁
  use d, by simp
  rw [hd]
  rfl

theorem urlParams_needs {m : List Rune} (hm : Matches urlParams m) :
  ∃ r ∈ m, r.char.toNat = equals.toNat
  := by
  obtain ⟨m₁, m₂, hm₁, -, rfl⟩ := hm
  obtain ⟨n, -, e, he, rfl⟩ := exists_letters_of_matches hm₁
  use e, by simp
  rw [he]
  rfl

theorem yamlValues_needs {m : List Rune} (hm : Matches yamlValues m) :
  ∃ r ∈ m, r.char.toNat = colon.toNat
  := by
  obtain ⟨_, m₂, ⟨m₁, _, -, ⟨_, m₃, ⟨_, _, ⟨e, he, rfl⟩, rfl, rfl⟩, -, rfl⟩, rfl⟩, -, rfl⟩ := hm
  use e, by simp
  rw [char_of_folds (by decide) he]
  rfl

/-! ### A parameter that is masked -/

/-- In a text with one equals sign, at its end, the pass for parameters finds nothing. -/
theorem not_found_of_concat {y : GoString} (hy : equals ∉ y) {S : List (Piece Rune)}
    {m : List Rune} (hS : S.flatMap Piece.text ++ m = decode y ++ [.ascii equals])
    (hfound : ∀ m', .found m' ∈ S → Matches urlParams m') :
  S = (S.flatMap Piece.text).map .kept
  := by
  have hnot : ∀ m', .found m' ∉ S := by
    intro m' hm'
    obtain ⟨_, m₂, hm₁, hm₂, rfl⟩ := hfound m' hm'
    obtain ⟨n, -, e, he, rfl⟩ := exists_letters_of_matches hm₁
    obtain ⟨r, t, -, -, rfl⟩ := matches_plus_iff.mp hm₂
    obtain ⟨S₁, S₂, rfl⟩ := List.append_of_mem hm'
    have hequals : e ∉ decode y := by
      intro hmem
      apply toNat_ne_of_not_mem (by decide) hy e hmem (by rw [he]; rfl)
    have hsplit : (S₁.flatMap Piece.text ++ n) ++ e :: (r :: (t ++ (S₂.flatMap Piece.text ++ m)))
        = decode y ++ [.ascii equals] := by
      rw [← hS]
      simp [Piece.text]
    obtain ⟨u, hu, htail⟩ | ⟨u, -, htail⟩ := List.append_eq_append_iff.mp hsplit
    · cases u with
      | nil => simp at htail
      | cons c u =>
        obtain ⟨rfl, -⟩ := List.cons.inj htail
        apply hequals (by rw [hu]; simp)
    · have hlength := congrArg List.length htail
      simp only [List.length_append, List.length_cons, List.length_nil] at hlength
      omega
  clear hS hfound
  induction S with
  | nil => rfl
  | cons piece S ih =>
    cases piece with
    | kept r =>
      rw [List.flatMap_cons, List.map_append,
        ← ih (fun m' hm' => hnot m' (List.mem_cons_of_mem _ hm'))]
      rfl
    | found m' =>
      exfalso
      apply hnot m' List.mem_cons_self

/-- The pass for parameters leaves a value that is masked as it is. -/
theorem replaceAll_urlParams_masked {y : GoString} (hy : equals ∉ y) :
  replaceAllStringFunc urlParams (y ++ equals :: str "[REDACTED]") mask
    = y ++ equals :: str "[REDACTED]"
  := by
  have hascii : ∀ c ∈ str "[REDACTED]", c < 128 := by decide +kernel
  have hchars : ∀ r ∈ (str "[REDACTED]").map Rune.ascii, isParamChar r = true ∧ r.char ≠ '=' := by
    decide +kernel
  have hdecode : decode (y ++ equals :: str "[REDACTED]")
      = (decode y ++ [.ascii equals]) ++ ((str "[REDACTED]").map .ascii ++ []) := by
    rw [decode_append (by decide), decode_cons_ascii (by decide),
      ← List.append_nil (str "[REDACTED]"), decode_ascii_append hascii]
    simp [decode, decodeFrom]
  have hstays : ∀ z, Stays (.seq paramNames (literal "=")) z
      ((str "[REDACTED]").map .ascii ++ []) := by
    intro z u w hu heq hm
    obtain ⟨n, -, e, he, hconcat⟩ := exists_letters_of_matches hm
    obtain ⟨u, r, rfl⟩ := (List.eq_nil_or_concat u).resolve_left hu
    rw [List.concat_eq_append, ← List.append_assoc] at hconcat
    obtain ⟨-, hr⟩ := List.append_inj' hconcat rfl
    obtain rfl := List.singleton_inj.mp hr
    rw [List.append_nil] at heq
    apply (hchars r (by rw [← heq]; simp)).2 he
  obtain ⟨S, m, hSm, hscan⟩ := exists_scansBefore (.seq paramNames (literal "=")) isParamChar
    (decode y ++ [.ascii equals])
  have heq := hscan ((str "[REDACTED]").map .ascii) [] (by decide +kernel)
    (fun r hr => (hchars r hr).1) (fun z _ _ => hstays z)
  rw [← hdecode, List.takeWhile_nil, List.dropWhile_nil, List.append_nil] at heq
  have hkept := not_found_of_concat hy hSm (fun m' hm' =>
    matches_of_found (x := decode (y ++ equals :: str "[REDACTED]"))
      (not_matches_seq_plus_nil _ _) (by rw [heq]; exact List.mem_append_left _ hm'))
  rw [replaceAllStringFunc, urlParams, heq, ← urlParams, List.flatMap_append, hkept,
    flatMap_replace_kept]
  split_ifs with hm
  · -- no name stands before the equals sign
    rw [hm, List.append_nil] at hSm
    have hmask : decode (str "[REDACTED]") = (str "[REDACTED]").map .ascii := by decide +kernel
    rw [hSm, ← hmask, scan_of_not_mem (fun m => urlParams_needs) (by decide) (by decide +kernel),
      flatMap_replace_kept, encode_append, encode_decode, encode_decode, List.append_assoc]
    rfl
  · -- the name, the equals sign and the mask are found, and masked again
    obtain ⟨x, r, rfl⟩ := (List.eq_nil_or_concat m).resolve_left hm
    rw [List.concat_eq_append, ← List.append_assoc] at hSm
    obtain ⟨hx, hr⟩ := List.append_inj' hSm rfl
    obtain rfl := List.singleton_inj.mp hr
    have hbytes : encode (S.flatMap Piece.text) ++ encode x = y := by
      rw [← encode_append, hx, encode_decode]
    have hequals : equals ∉ encode x := by
      intro hmem
      apply hy
      rw [← hbytes]
      apply List.mem_append_right _ hmem
    have hencode : encode (x.concat (.ascii equals) ++ (str "[REDACTED]").map .ascii)
        = encode x ++ equals :: str "[REDACTED]" := by
      rw [List.concat_eq_append, encode_append, encode_append, encode_map_ascii, List.append_assoc]
      rfl
    rw [List.flatMap_cons, replace_found, hencode, mask_append_equals, masked,
      GoString.before_append hequals, ← hbytes, List.append_assoc]
    simp

/-! ### The header -/

/-- The text before the token. -/
def bearerText : GoString := str "Authorization: Bearer "

/-- A byte of a token: no space, dot or colon. -/
def isOpaqueByte (c : UInt8) : Bool := c ∉ [0x09, 0x0a, 0x0c, 0x0d, 0x20, 0x2e, colon]

/-- The pass for headers takes the whole header. -/
theorem replaceAll_authHeaders {w : GoString} (hne : w ≠ [])
    (hw : ∀ c ∈ w, isOpaqueByte c = true) :
  replaceAllStringFunc authHeaders (bearerText ++ w) mask = mask (bearerText ++ w)
  := by
  have hascii : ∀ c ∈ bearerText, c < 128 := by decide +kernel
  have hends : ends authStart (bearerText.map .ascii) = [[]] := by decide +kernel
  have hchars : ∀ r ∈ decode w, isHeaderChar r = true := by
    have hbytes : ∀ a : UInt8, a < 128 → isOpaqueByte a = true →
        isHeaderChar (.ascii a) = true := by
      decide +kernel
    apply forall_mem_decode (q := fun c => isHeaderChar ⟨c, []⟩ = true)
    · intro c hc
      simp only [isHeaderChar, isSpace, List.mem_cons, List.not_mem_nil, Bool.not_eq_true',
        decide_eq_false_iff_not, or_false]
      omega
    · intro a ha hlt
      apply hbytes a hlt (hw a ha)
  have hstays : Stays authStart (bearerText.map .ascii) (decode w) := by
    intro u t hu heq hm
    obtain ⟨u, r, rfl⟩ := (List.eq_nil_or_concat u).resolve_left hu
    have hspace := isSpace_of_matches_authStart hm r (by simp)
    have hchar := hchars r (by rw [← heq]; simp)
    rw [isHeaderChar, hspace] at hchar
    cases hchar
  obtain ⟨r, x, hx⟩ := List.exists_cons_of_ne_nil (decode_ne_nil hne)
  have hfirst := first_seq_plus_append (p := isHeaderChar) hstays (by
    rw [hx]
    apply hchars r (by simp [hx]))
  have hdrop : (decode w).dropWhile isHeaderChar = [] := List.dropWhile_eq_nil_iff.mpr hchars
  rw [hends] at hfirst
  change _ = some ((decode w).dropWhile isHeaderChar) at hfirst
  rw [hdrop, ← List.append_nil (_ ++ _)] at hfirst
  have hscan := scan_of_some hfirst (by simp [hx])
  rw [List.append_nil] at hscan
  rw [replaceAllStringFunc, decode_ascii_append hascii, authHeaders, hscan, List.flatMap_cons,
    replace_found, encode_append, encode_map_ascii, encode_decode, scan_nil, List.flatMap_nil,
    List.append_nil]

theorem isTokenChar_of_isDash {r : Rune} (h : isDash r = true) :
  isTokenChar r = true
  := by
  simp only [isDash, Bool.or_eq_true, beq_iff_eq] at h
  simp only [isTokenChar, Bool.or_eq_true, beq_iff_eq]
  tauto

/-- The pass for values in JSON and YAML finds nothing in the header. -/
theorem replaceAll_yamlValues {s : GoString} (hs : colon ∉ s) :
  replaceAllStringFunc yamlValues (bearerText ++ s) mask = bearerText ++ s
  := by
  have hascii : ∀ c ∈ bearerText, c < 128 := by decide +kernel
  have hdecode : decode bearerText = bearerText.map .ascii := by decide +kernel
  have hends : ∀ z ∈ (bearerText.map Rune.ascii).tails, ends yamlNames z = [] := by decide +kernel
  have hbounded : Bounded bearerText := by
    unfold Bounded
    decide +kernel
  have hliteral : ∀ s : String, s.toList.all (fun c => isTokenChar ⟨c, []⟩ &&
      isTokenChar ⟨c.toUpper, []⟩) → Within (fun r => isTokenChar r = true) (literal s) :=
    fun s hs => within_literal (q := fun c => isTokenChar ⟨c, []⟩) hs (by decide) (by decide)
  have hdash : Within (fun r => isTokenChar r = true) (.optional (.one isDash)) :=
    ⟨fun _ => isTokenChar_of_isDash, trivial⟩
  have hwithin : Within (fun r => isTokenChar r = true) yamlNames :=
    ⟨⟨hliteral "api" (by decide), hdash, hliteral "key" (by decide)⟩,
      ⟨hliteral "access" (by decide), hdash, hliteral "token" (by decide)⟩,
      ⟨hliteral "secret" (by decide), hdash, hliteral "key" (by decide)⟩⟩
  have hnone : ∀ z, z ≠ [] → z <:+ bearerText.map .ascii →
      first yamlValues (z ++ decode s) = none := by
    intro z hz hsuffix
    have hstays : Stays yamlNames z (decode s) := by
      intro u _ _ _ hm
      rw [← hdecode] at hsuffix
      obtain ⟨x, c, hc, rfl⟩ := exists_boundary_of_suffix hbounded hz hsuffix
      have htoken := hwithin.forall_mem hm (.ascii c) (by simp)
      rw [(isBoundary_spec c hc).1] at htoken
      cases htoken
    rw [yamlValues, first_seq_plus, ends, ends_append hstays,
      hends z ((List.mem_tails _ _).mpr hsuffix)]
    rfl
  rw [replaceAllStringFunc, decode_ascii_append hascii, scan_append_of_none hnone,
    scan_of_not_mem (fun m => yamlValues_needs) (by decide) hs, ← List.map_append,
    flatMap_replace_kept, encode_append, encode_decode, encode_map_ascii]

/-- What is logged for a header with a token that is not a JWT. -/
theorem sanitizeString_authorization {w : GoString} (hne : w ≠ [])
    (hw : ∀ c ∈ w, isOpaqueByte c = true) :
  sanitizeString (str "Authorization: Bearer " ++ w)
    = if equals ∈ w then
        str "Authorization: Bearer " ++ GoString.before equals w ++ str "=[REDACTED]"
      else str "Authorization: [REDACTED]"
  := by
  have hopaque : 0x2e ∉ w ∧ colon ∉ w := by
    constructor
    · intro hmem
      exact absurd (hw _ hmem) (by decide)
    · intro hmem
      exact absurd (hw _ hmem) (by decide)
  have hdot : 0x2e ∉ bearerText ++ w := by
    rw [List.mem_append, not_or]
    exact ⟨by decide +kernel, hopaque.1⟩
  have htext : equals ∉ bearerText := by decide +kernel
  change sanitizeString (bearerText ++ w) = _
  simp only [sanitizeString, sensitivePatterns, List.foldl_cons, List.foldl_nil]
  rw [replaceAll_of_not_mem (fun m => jwtTokens_needs) (by decide) hdot,
    replaceAll_authHeaders hne hw, mask]
  by_cases hequals : equals ∈ w
  · have hbefore : equals ∉ bearerText ++ GoString.before equals w := by
      rw [List.mem_append, not_or]
      use htext
      intro hmem
      have hne := List.mem_takeWhile_imp hmem
      simp at hne
    have htake : GoString.before equals (bearerText ++ w)
        = bearerText ++ GoString.before equals w := by
      apply List.takeWhile_append_of_pos
      intro c hc
      rw [decide_eq_true_eq]
      rintro rfl
      apply htext hc
    have hcolon : colon ∉ GoString.before equals w ++ equals :: str "[REDACTED]" := by
      rw [List.mem_append, not_or]
      refine ⟨?_, by decide +kernel⟩
      intro hmem
      apply hopaque.2 ((List.takeWhile_prefix _).subset hmem)
    rw [if_pos (List.mem_append_right _ hequals), if_pos hequals, htake,
      replaceAll_urlParams_masked hbefore, List.append_assoc, replaceAll_yamlValues hcolon,
      List.append_assoc]
    rfl
  · have hnot : equals ∉ bearerText ++ w := by
      rw [List.mem_append, not_or]
      exact ⟨htext, hequals⟩
    have hsplit : bearerText ++ w = str "Authorization" ++ colon :: (str " Bearer " ++ w) := by
      rw [← List.cons_append, ← List.append_assoc]
      congr 1
    have hbefore : GoString.before colon (bearerText ++ w) = str "Authorization" := by
      rw [hsplit, GoString.before_append (by decide +kernel)]
    rw [if_neg hnot, if_neg hequals, if_pos (List.mem_append_left _ (by decide +kernel)), hbefore]
    decide +kernel

theorem sanitizeString_authorization_padded :
  sanitizeString (str "Authorization: Bearer " ++ str "c2VjcmV0LXRva2Vu==")
    = str "Authorization: Bearer c2VjcmV0LXRva2Vu=[REDACTED]"
  := by
  rw [sanitizeString_authorization (by decide +kernel) (by decide +kernel)]
  decide +kernel

end Logging

end VmProxyAuth
