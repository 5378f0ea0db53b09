import VmProxyAuth.Lib.Url

/-!
# Paths of URLs

The part of `net/url` that reads and writes paths.  A URL has the path with its escapes decoded
and, if it differs from the standard encoding of that, also the text the path was read from.
`escapedPath` writes this text if it is an encoding of the path, and the standard encoding
otherwise.  A text is the standard encoding of what it decodes to exactly if it escapes no more
and no less than the standard encoding does, in upper case (`standardPath_iff`).
-/

namespace Url

/-! ### Escaping -/

/-- The bytes the standard encoding of a path keeps as they are. -/
def keptInPath (b : UInt8) : Bool := unreserved b || decide (b ∈ str "$&+,/:;=@")

/-- The standard code of one byte of a path. -/
def escapePathByte (b : UInt8) : GoString :=
  if keptInPath b then [b] else [37, upperhex (b / 16), upperhex (b % 16)]

/-- `escape(s, encodePath)`. -/
def escapePath (s : GoString) : GoString := s.flatMap escapePathByte

/-- `unescape(s, encodePath)`: none if a `%` is not followed by two hexadecimal digits. -/
def unescapePath : GoString → Option GoString
  | [] => some []
  | [b] => if b = 37 then none else some [b]
  | [b, c] => if b = 37 then none else (unescapePath [c]).map (b :: ·)
  | b :: c :: d :: rest =>
    if b = 37 then
      match unhex c, unhex d with
      | some h, some l => (unescapePath rest).map ((16 * h + l) :: ·)
      | _, _ => none
    else (unescapePath (c :: d :: rest)).map (b :: ·)

/-- The bytes that can stand in an encoding of a path. -/
def allowedInPath (b : UInt8) : Bool := keptInPath b || decide (b ∈ str "!'()*[]%")

/-- `validEncoded(s, encodePath)`. -/
def validEncodedPath (s : GoString) : Bool := s.all allowedInPath

/-- Whether a text escapes exactly the bytes the standard encoding escapes, in upper case. -/
def standardPath : GoString → Bool
  | [] => true
  | [b] => keptInPath b
  | [b, c] => keptInPath b && standardPath [c]
  | b :: c :: d :: rest =>
    if b = 37 then
      match unhex c, unhex d with
      | some h, some l =>
        !keptInPath (16 * h + l) && c == upperhex h && d == upperhex l && standardPath rest
      | _, _ => false
    else keptInPath b && standardPath (c :: d :: rest)

/-- `setPath`: the path a text stands for, and the text if it is not the standard encoding. -/
def setPath (text : GoString) : Option (GoString × GoString) :=
  (unescapePath text).map (fun path => (path, if text = escapePath path then [] else text))

/-- The part of `url.Parse` that reads the path: `*` stands for itself. -/
def parsePath (text : GoString) : Option (GoString × GoString) :=
  if text = str "*" then some (str "*", []) else setPath text

/-- `EscapedPath` of a URL with a path and the text it was read from. -/
def escapedPath (path rawPath : GoString) : GoString :=
  if rawPath ≠ [] ∧ validEncodedPath rawPath ∧ unescapePath rawPath = some path then rawPath
  else if path = str "*" then str "*"
  else escapePath path

/-! ### Standard encodings -/

theorem escapePath_cons (b : UInt8) (s : GoString) :
  escapePath (b :: s) = escapePathByte b ++ escapePath s
  := List.flatMap_cons

/-- The byte two hexadecimal digits stand for, divided by 16. -/
theorem hex_div_mod {c d h l : UInt8} (hc : unhex c = some h) (hd : unhex d = some l) :
  (16 * h + l) / 16 = h ∧ (16 * h + l) % 16 = l
  := by
  have hlt : ∀ c : UInt8, (unhex c).all (fun h => decide (h.toNat < 16)) = true := by
    decide +kernel
  have hh := hlt c
  have hl := hlt d
  rw [hc, Option.all_some, decide_eq_true_eq] at hh
  rw [hd, Option.all_some, decide_eq_true_eq] at hl
  constructor
  · apply UInt8.toNat_inj.mp
    simp
    omega
  · apply UInt8.toNat_inj.mp
    simp
    omega

/-- The standard code of a byte that stands unescaped. -/
theorem escapePathByte_append_eq_iff {b : UInt8} (hb : b ≠ 37) (s t : GoString) :
  escapePathByte b ++ s = b :: t ↔ keptInPath b = true ∧ s = t
  := by
  rw [escapePathByte]
  split
  · rename_i hkept
    simp [hkept]
  · rename_i hkept
    simp [hkept, Ne.symm hb]

/-- The standard code of a byte that is escaped. -/
theorem escapePathByte_append_eq_hex_iff {c d h l : UInt8} (hc : unhex c = some h)
    (hd : unhex d = some l) (s t : GoString) :
  escapePathByte (16 * h + l) ++ s = 37 :: c :: d :: t ↔
    (keptInPath (16 * h + l) = false ∧ c = upperhex h ∧ d = upperhex l) ∧ s = t
  := by
  have hpercent : keptInPath 37 = false := by decide
  obtain ⟨hdiv, hmod⟩ := hex_div_mod hc hd
  rw [escapePathByte]
  split
  · rename_i hkept
    simp only [hkept, List.singleton_append, List.cons.injEq, Bool.true_eq_false, false_and,
      iff_false]
    rintro ⟨heq, -⟩
    rw [heq, hpercent] at hkept
    cases hkept
  · rename_i hkept
    rw [hdiv, hmod]
    simp [hkept, eq_comm, and_assoc]

theorem unescapePath_cons {b : UInt8} (h : b ≠ 37) (s : GoString) :
  unescapePath (b :: s) = (unescapePath s).map (b :: ·)
  := by
  match s with
  | [] => simp [unescapePath, h]
  | [c] => simp [unescapePath, h]
  | c :: d :: rest => rw [unescapePath, if_neg h]

theorem standardPath_cons {b : UInt8} (h : b ≠ 37) (s : GoString) :
  standardPath (b :: s) = (keptInPath b && standardPath s)
  := by
  match s with
  | [] => simp [standardPath]
  | [c] => simp [standardPath]
  | c :: d :: rest => rw [standardPath, if_neg h]

/-- A text whose first byte is not escaped. -/
theorem standardPath_cons_iff {b : UInt8} (hb : b ≠ 37) {s path : GoString}
    (ih : ∀ path', unescapePath s = some path' → (standardPath s = true ↔ escapePath path' = s))
    (h : unescapePath (b :: s) = some path) :
  standardPath (b :: s) = true ↔ escapePath path = b :: s
  := by
  rw [unescapePath_cons hb] at h
  obtain ⟨path', hpath', rfl⟩ := Option.map_eq_some_iff.mp h
  rw [standardPath_cons hb, escapePath_cons, escapePathByte_append_eq_iff hb, Bool.and_eq_true,
    ih path' hpath']

/-- A text is standard exactly if it is the standard encoding of what it decodes to. -/
theorem standardPath_iff :
  ∀ (text : GoString) {path : GoString}, unescapePath text = some path →
    (standardPath text = true ↔ escapePath path = text)
  | [], _, h => by
      cases h
      simp [standardPath, escapePath]
  | [b], path, h => by
      by_cases hb : b = 37
      · simp [unescapePath, hb] at h
      · apply standardPath_cons_iff hb _ h
        intro path' hpath'
        apply standardPath_iff [] hpath'
  | [b, c], path, h => by
      by_cases hb : b = 37
      · simp [unescapePath, hb] at h
      · apply standardPath_cons_iff hb _ h
        intro path' hpath'
        apply standardPath_iff [c] hpath'
  | b :: c :: d :: rest, path, h => by
      by_cases hb : b = 37
      · subst hb
        rw [unescapePath, if_pos rfl] at h
        rw [standardPath, if_pos rfl]
        cases hc : unhex c with
        | none => simp [hc] at h
        | some x =>
          cases hd : unhex d with
          | none => simp [hc, hd] at h
          | some y =>
            simp only [hc, hd] at h
            obtain ⟨path', hpath', rfl⟩ := Option.map_eq_some_iff.mp h
            rw [escapePath_cons, escapePathByte_append_eq_hex_iff hc hd,
              ← standardPath_iff rest hpath']
            simp [and_assoc]
      · apply standardPath_cons_iff hb _ h
        intro path' hpath'
        apply standardPath_iff (c :: d :: rest) hpath'

/-! ### Escaped paths -/

/-- What is written for a path that has no text of its own. -/
theorem escapedPath_nil (path : GoString) :
  escapedPath path [] = if path = str "*" then str "*" else escapePath path
  := by
  simp [escapedPath]

/-- A path read from a text is written in the same way without the text exactly if the text is
standard, or is not an encoding of a path, or is `*`. -/
theorem escapedPath_parsePath_iff {text path rawPath : GoString}
    (h : parsePath text = some (path, rawPath)) :
  escapedPath path [] = escapedPath path rawPath ↔
    standardPath text = true ∨ validEncodedPath text = false ∨ text = str "*"
  := by
  by_cases hstar : text = str "*"
  · rw [parsePath, if_pos hstar] at h
    cases h
    simp [hstar]
  rw [parsePath, if_neg hstar] at h
  obtain ⟨path', hpath, heq⟩ := Option.map_eq_some_iff.mp h
  obtain ⟨rfl, rfl⟩ := Prod.mk.inj heq
  have hstandard := standardPath_iff text hpath
  by_cases hescape : escapePath path' = text
  · rw [if_pos hescape.symm]
    simp [hstandard.mpr hescape]
  have hne : text ≠ [] := by
    rintro rfl
    cases hpath
    apply hescape rfl
  rw [if_neg (Ne.symm hescape), escapedPath_nil]
  simp only [hstandard, hescape, hstar, false_or, or_false]
  cases hvalid : validEncodedPath text with
  | false => simp [escapedPath, hvalid]
  | true =>
    have hwritten : escapedPath path' text = text := by
      rw [escapedPath, if_pos ⟨hne, hvalid, hpath⟩]
    rw [hwritten]
    split
    · simp [Ne.symm hstar]
    · simp [hescape]

end Url
