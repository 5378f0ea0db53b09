import VmProxyAuth.Lib.JsonText

/-!
# Quoted strings

`strconv.Quote` and `strconv.Unquote`, for double quotes.  A string is taken apart into characters
and bytes that begin none, and each of them is written as it is, behind a backslash, or as its
number.  A quoted string ends at the first quote that is not behind a backslash (`cut_quote`), has
no newline in it (`newline_notMem_quote`), and is read back (`unquote_quote`).
-/

namespace GoQuote

abbrev doubleQuote : UInt8 := 0x22
abbrev backslash : UInt8 := 0x5c
abbrev newline : UInt8 := 0x0a

/-! ### Writing -/

/-- A part of a string: a character, or a byte that does not begin one. -/
inductive Piece where
  | char (c : Char)
  | byte (b : UInt8)

def Piece.bytes : Piece → GoString
  | .char c => String.utf8EncodeChar c
  | .byte b => [b]

/-- The parts of a string, in at most the given number of rounds. -/
def pieces : ℕ → GoString → List Piece
  | 0, _ => []
  | _ + 1, [] => []
  | n + 1, b :: rest =>
    match Utf8.decodeRune (b :: rest) with
    | some c => .char c :: pieces n ((b :: rest).drop c.utf8Size)
    | none => .byte b :: pieces n rest

/-- `strconv.IsPrint(r)`, by a table for the characters beyond Latin-1. -/
def isPrint (table : Char → Bool) (c : Char) : Bool :=
  if c.toNat ≤ 0xff then
    decide (0x20 ≤ c.toNat ∧ c.toNat < 0x7f) || decide (0xa1 ≤ c.toNat ∧ c.toNat ≠ 0xad)
  else table c

/-- The characters that are written as a letter, and the letter. -/
def letters : List (ℕ × UInt8) :=
  [(0x07, 0x61), (0x08, 0x62), (0x0c, 0x66), (0x0a, 0x6e), (0x0d, 0x72), (0x09, 0x74),
    (0x0b, 0x76)]

/-- The last `n` hexadecimal digits of a number. -/
def hexDigits : ℕ → ℕ → GoString
  | 0, _ => []
  | n + 1, v => JsonText.hexDigit (v / 16 ^ n % 16) :: hexDigits n v

/-- A character that is not written as it is, in `appendEscapedRune`. -/
def escapeNonPrint (c : Char) : GoString :=
  match letters.find? (fun e => e.1 == c.toNat) with
  | some e => [backslash, e.2]
  | none =>
    if c.toNat < 0x20 ∨ c.toNat = 0x7f then backslash :: 0x78 :: hexDigits 2 c.toNat
    else if c.toNat < 0x10000 then backslash :: 0x75 :: hexDigits 4 c.toNat
    else backslash :: 0x55 :: hexDigits 8 c.toNat

/-- `appendEscapedRune`. -/
def escapeChar (table : Char → Bool) (c : Char) : GoString :=
  if c.toNat = 0x22 ∨ c.toNat = 0x5c then [backslash, UInt8.ofNat c.toNat]
  else if isPrint table c then String.utf8EncodeChar c
  else escapeNonPrint c

def Piece.escape (table : Char → Bool) : Piece → GoString
  | .char c => escapeChar table c
  | .byte b => backslash :: 0x78 :: hexDigits 2 b.toNat

/-- `strconv.Quote(s)`. -/
def quote (table : Char → Bool) (s : GoString) : GoString :=
  doubleQuote :: ((pieces s.length s).flatMap (Piece.escape table) ++ [doubleQuote])

/-! ### Reading -/

/-- The number that `n` hexadecimal digits add to `v`, and the rest. -/
def readHex : ℕ → ℕ → GoString → Option (ℕ × GoString)
  | 0, v, s => some (v, s)
  | _ + 1, _, [] => none
  | n + 1, v, b :: rest => (JsonText.hexValue b).bind (fun d => readHex n (v * 16 + d) rest)

def isOctal (b : UInt8) : Bool := decide (0x30 ≤ b) && decide (b ≤ 0x37)

/-- The byte of three octal digits, and the rest. -/
def readOctal (b : UInt8) : GoString → Option (GoString × GoString)
  | b₁ :: b₂ :: rest =>
    let v := ((b.toNat - 0x30) * 8 + (b₁.toNat - 0x30)) * 8 + (b₂.toNat - 0x30)
    if isOctal b₁ ∧ isOctal b₂ ∧ v ≤ 255 then some ([UInt8.ofNat v], rest) else none
  | _ => none

/-- The character of a number, if there is one, and the rest. -/
def charOf (r : ℕ × GoString) : Option (GoString × GoString) :=
  if r.1.isValidChar then some (String.utf8EncodeChar (Char.ofNat r.1), r.2) else none

/-- What is behind a backslash, and the rest. -/
def unescape : GoString → Option (GoString × GoString)
  | [] => none
  | b :: rest =>
    match letters.find? (fun e => e.2 == b) with
    | some e => some ([UInt8.ofNat e.1], rest)
    | none =>
      if b = 0x78 then (readHex 2 0 rest).map (fun r => ([UInt8.ofNat r.1], r.2))
      else if b = 0x75 then (readHex 4 0 rest).bind charOf
      else if b = 0x55 then (readHex 8 0 rest).bind charOf
      else if isOctal b then readOctal b rest
      else if b = backslash ∨ b = doubleQuote then some ([b], rest)
      else none

/-- `strconv.UnquoteChar(s)`: the bytes of the first character, and the rest. -/
def unquoteChar : GoString → Option (GoString × GoString)
  | [] => none
  | b :: rest =>
    if b = doubleQuote then none
    else if 0x80 ≤ b then
      match Utf8.decodeRune (b :: rest) with
      | some c => some (String.utf8EncodeChar c, (b :: rest).drop c.utf8Size)
      | none => some (String.utf8EncodeChar Utf8.replacement, rest)
    else if b = backslash then unescape rest
    else some ([b], rest)

/-- What is before the closing quote, in at most the given number of rounds, and what is behind
it. -/
def unquoteChars : ℕ → GoString → Option (GoString × GoString)
  | 0, _ => none
  | _ + 1, [] => none
  | n + 1, b :: rest =>
    if b = doubleQuote then some ([], rest)
    else if b = newline then none
    else
      (unquoteChar (b :: rest)).bind (fun r =>
        (unquoteChars n r.2).map (fun r' => (r.1 ++ r'.1, r'.2)))

/-- `strconv.Unquote(s)`, of a string in double quotes. -/
def unquote : GoString → Option GoString
  | [] => none
  | b :: rest =>
    if b = doubleQuote then
      match unquoteChars rest.length rest with
      | some (s, []) => some s
      | _ => none
    else none

/-- The part up to the first quote that is not behind a backslash, and the rest, behind a backslash
or not. -/
def cutInside : Bool → GoString → Option (GoString × GoString)
  | _, [] => none
  | true, b :: rest => (cutInside false rest).map (fun r => (b :: r.1, r.2))
  | false, b :: rest =>
    if b = doubleQuote then some ([b], rest)
    else (cutInside (b == backslash) rest).map (fun r => (b :: r.1, r.2))

/-- The quoted string that a string begins with, and the rest. -/
def cut : GoString → Option (GoString × GoString)
  | [] => none
  | b :: rest =>
    if b = doubleQuote then (cutInside false rest).map (fun r => (b :: r.1, r.2)) else none

/-! ### What is written -/

/-- A byte that neither ends a quoted string nor the line, and is no backslash. -/
def Plain (b : UInt8) : Prop := b ≠ doubleQuote ∧ b ≠ backslash ∧ b ≠ newline

instance (b : UInt8) : Decidable (Plain b) := inferInstanceAs (Decidable (_ ∧ _ ∧ _))

theorem plain_hexDigits (n v : ℕ) :
  ∀ b ∈ hexDigits n v, Plain b
  := by
  have hdigit : ∀ d < 16, Plain (JsonText.hexDigit d) := by decide
  induction n with
  | zero => exact List.forall_mem_nil _
  | succ n ih => exact List.forall_mem_cons.mpr ⟨hdigit _ (Nat.mod_lt _ (by decide)), ih⟩

/-- The bytes of a character that is written as it is. -/
theorem plain_of_isPrint {table : Char → Bool} {c : Char}
    (hne : ¬ (c.toNat = 0x22 ∨ c.toNat = 0x5c)) (hprint : isPrint table c = true) :
  ∀ b ∈ String.utf8EncodeChar c, Plain b
  := by
  intro b hb
  obtain ⟨hascii, hbytes⟩ | hbytes := Utf8.utf8EncodeChar_cases c
  · have htable : ∀ n < 0x80, ¬ (n = 0x22 ∨ n = 0x5c) → 0x20 ≤ n → Plain (UInt8.ofNat n) := by
      decide +kernel
    have hle : 0x20 ≤ c.toNat := by
      rw [isPrint, if_pos (by omega), Bool.or_eq_true, decide_eq_true_eq, decide_eq_true_eq]
        at hprint
      omega
    rw [hbytes, List.mem_singleton] at hb
    rw [hb]
    apply htable c.toNat hascii hne hle
  · have htable : ∀ b : UInt8, 0x80 ≤ b → Plain b := by
      decide +kernel
    apply htable b (hbytes b hb)

/-- What is not written as it is begins with a backslash. -/
theorem escapeNonPrint_cases (c : Char) :
  ∃ b bs, escapeNonPrint c = backslash :: b :: bs ∧ b ≠ newline ∧ ∀ b ∈ bs, Plain b
  := by
  have hletters : ∀ e ∈ letters, e.2 ≠ newline := by decide
  rw [escapeNonPrint]
  split
  · rename_i e he
    exact ⟨e.2, [], rfl, hletters e (List.mem_of_find?_eq_some he), List.forall_mem_nil _⟩
  · split_ifs
    · exact ⟨_, _, rfl, by decide, plain_hexDigits _ _⟩
    · exact ⟨_, _, rfl, by decide, plain_hexDigits _ _⟩
    · exact ⟨_, _, rfl, by decide, plain_hexDigits _ _⟩

/-- A part is written as plain bytes, or as a backslash, a byte and plain bytes. -/
theorem escape_cases (table : Char → Bool) (p : Piece) :
  (p.escape table ≠ [] ∧ ∀ b ∈ p.escape table, Plain b) ∨
    ∃ b bs, p.escape table = backslash :: b :: bs ∧ b ≠ newline ∧ ∀ b ∈ bs, Plain b
  := by
  cases p with
  | char c =>
    rw [Piece.escape, escapeChar]
    split_ifs with hquote hprint
    · right
      refine ⟨UInt8.ofNat c.toNat, [], rfl, ?_, List.forall_mem_nil _⟩
      obtain h | h := hquote <;> rw [h] <;> decide
    · left
      exact ⟨String.utf8EncodeChar_ne_nil, plain_of_isPrint hquote hprint⟩
    · right
      apply escapeNonPrint_cases
  | byte b =>
    right
    exact ⟨_, _, rfl, by decide, plain_hexDigits _ _⟩

section

variable {table : Char → Bool}

theorem newline_notMem_escape (p : Piece) :
  newline ∉ p.escape table
  := by
  obtain ⟨-, hplain⟩ | ⟨b, bs, hescape, hb, hbs⟩ := escape_cases table p
  · intro h
    apply (hplain newline h).2.2 rfl
  · rw [hescape, List.mem_cons, List.mem_cons]
    rintro (h | h | h)
    · cases h
    · apply hb h.symm
    · apply (hbs newline h).2.2 rfl

/-- No newline is in a quoted string. -/
theorem newline_notMem_quote (table : Char → Bool) (s : GoString) :
  newline ∉ quote table s
  := by
  rw [quote, List.mem_cons, List.mem_append, List.mem_flatMap]
  rintro (h | ⟨p, -, h⟩ | h)
  · cases h
  · apply newline_notMem_escape p h
  · cases List.mem_singleton.mp h

/-! ### Where a quoted string ends -/

theorem cutInside_plain {bytes : GoString} (h : ∀ b ∈ bytes, Plain b) (rest : GoString) :
  cutInside false (bytes ++ rest) = (cutInside false rest).map (fun r => (bytes ++ r.1, r.2))
  := by
  induction bytes with
  | nil => simp
  | cons b bytes ih =>
    obtain ⟨⟨hquote, hslash, -⟩, hbytes⟩ := List.forall_mem_cons.mp h
    rw [List.cons_append, cutInside, if_neg hquote, beq_false_of_ne hslash, ih hbytes,
      Option.map_map]
    rfl

theorem cutInside_backslash (b : UInt8) (rest : GoString) :
  cutInside false (backslash :: b :: rest)
    = (cutInside false rest).map (fun r => (backslash :: b :: r.1, r.2))
  := by
  change ((cutInside false rest).map _).map _ = _
  rw [Option.map_map]
  rfl

theorem cutInside_escape (p : Piece) (rest : GoString) :
  cutInside false (p.escape table ++ rest)
    = (cutInside false rest).map (fun r => (p.escape table ++ r.1, r.2))
  := by
  obtain ⟨-, hplain⟩ | ⟨b, bs, hescape, -, hbs⟩ := escape_cases table p
  · apply cutInside_plain hplain
  · rw [hescape, List.cons_append, List.cons_append, cutInside_backslash, cutInside_plain hbs,
      Option.map_map]
    rfl

theorem cutInside_flatMap (ps : List Piece) (rest : GoString) :
  cutInside false (ps.flatMap (Piece.escape table) ++ doubleQuote :: rest)
    = some (ps.flatMap (Piece.escape table) ++ [doubleQuote], rest)
  := by
  induction ps with
  | nil => rfl
  | cons p ps ih =>
    rw [List.flatMap_cons, List.append_assoc, cutInside_escape, ih, Option.map_some,
      List.append_assoc]

/-- A quoted string is cut off at its end. -/
theorem cut_quote (s rest : GoString) :
  cut (quote table s ++ rest) = some (quote table s, rest)
  := by
  rw [quote, List.cons_append, List.append_assoc, List.singleton_append, cut, if_pos rfl,
    cutInside_flatMap, Option.map_some]

/-! ### What is read back -/

theorem readHex_hexDigits (n a v : ℕ) (rest : GoString) :
  readHex n a (hexDigits n v ++ rest) = some (a * 16 ^ n + v % 16 ^ n, rest)
  := by
  induction n generalizing a with
  | zero => simp [readHex, hexDigits, Nat.mod_one]
  | succ n ih =>
    have hlt : v / 16 ^ n % 16 < 16 := Nat.mod_lt _ (by decide)
    rw [hexDigits, List.cons_append, readHex, JsonText.hexValue_hexDigit hlt, Option.bind_some, ih,
      Nat.mod_pow_succ]
    congr 2
    ring

/-- Digits enough for a number give the number. -/
theorem readHex_of_lt {n v : ℕ} (h : v < 16 ^ n) (rest : GoString) :
  readHex n 0 (hexDigits n v ++ rest) = some (v, rest)
  := by
  rw [readHex_hexDigits, Nat.mod_eq_of_lt h, Nat.zero_mul, Nat.zero_add]

theorem unescape_x {v : ℕ} (h : v < 0x100) (rest : GoString) :
  unescape (0x78 :: (hexDigits 2 v ++ rest)) = some ([UInt8.ofNat v], rest)
  := by
  have hread := readHex_of_lt (n := 2) h rest
  change (readHex 2 0 (hexDigits 2 v ++ rest)).map _ = _
  rw [hread, Option.map_some]

/-- Digits enough for a character give the character. -/
theorem readHex_bind_charOf {c : Char} {n : ℕ} (h : c.toNat < 16 ^ n) (rest : GoString) :
  (readHex n 0 (hexDigits n c.toNat ++ rest)).bind charOf = some (String.utf8EncodeChar c, rest)
  := by
  have hvalid : c.toNat.isValidChar := c.valid
  rw [readHex_of_lt h, Option.bind_some, charOf, if_pos hvalid, Char.ofNat_toNat]

/-- The letters are told apart. -/
theorem unescape_letter {e : ℕ × UInt8} (h : e ∈ letters) (rest : GoString) :
  unescape (e.2 :: rest) = some ([UInt8.ofNat e.1], rest)
  := by
  have hfind : ∀ e ∈ letters, letters.find? (fun e' => e'.2 == e.2) = some e := by decide
  rw [unescape, hfind e h]

/-- A character that is not written as it is is read back. -/
theorem unquoteChar_escapeNonPrint (c : Char) (rest : GoString) :
  unquoteChar (escapeNonPrint c ++ rest) = some (String.utf8EncodeChar c, rest)
  := by
  have hslash : ∀ s, unquoteChar (backslash :: s) = unescape s := fun _ => rfl
  have hletters : ∀ e ∈ letters, e.1 < 0x80 := by decide
  rw [escapeNonPrint]
  split
  · rename_i e he
    have hmem := List.mem_of_find?_eq_some he
    have hcode : e.1 = c.toNat := by simpa using List.find?_some he
    have hascii := hletters e hmem
    rw [List.cons_append, List.cons_append, hslash, unescape_letter hmem, hcode,
      Utf8.utf8EncodeChar_of_lt (hcode ▸ hascii), List.nil_append]
  · split_ifs with hx hu
    · rw [List.cons_append, List.cons_append, hslash, unescape_x (by omega),
        Utf8.utf8EncodeChar_of_lt (by omega)]
    · rw [List.cons_append, List.cons_append, hslash]
      apply readHex_bind_charOf (n := 4) hu
    · have hlt : c.toNat < 16 ^ 8 := by
        have hvalid : c.toNat.isValidChar := c.valid
        rw [Nat.isValidChar] at hvalid
        omega
      rw [List.cons_append, List.cons_append, hslash]
      apply readHex_bind_charOf hlt

/-- A character that is written as it is is read back. -/
theorem unquoteChar_utf8EncodeChar {c : Char} (h : ∀ b ∈ String.utf8EncodeChar c, Plain b)
    (rest : GoString) :
  unquoteChar (String.utf8EncodeChar c ++ rest) = some (String.utf8EncodeChar c, rest)
  := by
  have hdecode := Utf8.decodeRune_append c rest
  have hdrop : (String.utf8EncodeChar c ++ rest).drop c.utf8Size = rest := by
    rw [← String.length_utf8EncodeChar, List.drop_left]
  obtain ⟨hascii, hbytes⟩ | hbytes := Utf8.utf8EncodeChar_cases c
  · rw [hbytes] at h ⊢
    obtain ⟨hquote, hslash, -⟩ := h _ List.mem_cons_self
    have hlow : ¬ 0x80 ≤ UInt8.ofNat c.toNat := by
      have htable : ∀ n < 0x80, ¬ 0x80 ≤ UInt8.ofNat n := by decide
      apply htable c.toNat hascii
    rw [List.singleton_append, unquoteChar, if_neg hquote, if_neg hlow, if_neg hslash]
  · obtain ⟨b, bs, hcons⟩ := List.exists_cons_of_ne_nil (String.utf8EncodeChar_ne_nil (c := c))
    rw [hcons] at h hbytes hdecode hdrop ⊢
    rw [List.cons_append] at hdecode hdrop ⊢
    rw [unquoteChar, if_neg (h b List.mem_cons_self).1, if_pos (hbytes b List.mem_cons_self),
      hdecode]
    simp only
    rw [hdrop, hcons]

/-- A part of a string is read back. -/
theorem unquoteChar_escape (p : Piece) (rest : GoString) :
  unquoteChar (p.escape table ++ rest) = some (p.bytes, rest)
  := by
  cases p with
  | char c =>
    rw [Piece.escape, Piece.bytes, escapeChar]
    split_ifs with hquote hprint
    · obtain h | h := hquote
      · obtain rfl : c = Char.ofNat 0x22 := by rw [← h, Char.ofNat_toNat]
        rfl
      · obtain rfl : c = Char.ofNat 0x5c := by rw [← h, Char.ofNat_toNat]
        rfl
    · apply unquoteChar_utf8EncodeChar (plain_of_isPrint hquote hprint)
    · apply unquoteChar_escapeNonPrint
  | byte b =>
    have hread := unescape_x b.toNat_lt rest
    rw [UInt8.ofNat_toNat] at hread
    apply hread

/-- A part does not begin with the closing quote, nor with a newline. -/
theorem unquoteChars_escape (n : ℕ) (p : Piece) (rest : GoString) :
  unquoteChars (n + 1) (p.escape table ++ rest)
    = (unquoteChars n rest).map (fun r => (p.bytes ++ r.1, r.2))
  := by
  have hread : unquoteChar (p.escape table ++ rest) = some (p.bytes, rest) :=
    unquoteChar_escape p rest
  obtain ⟨b, bs, hcons, hquote, hnewline⟩ : ∃ b bs, p.escape table = b :: bs ∧
      b ≠ doubleQuote ∧ b ≠ newline := by
    obtain ⟨hne, hplain⟩ | ⟨b, bs, hescape, -⟩ := escape_cases table p
    · obtain ⟨b, bs, hcons⟩ := List.exists_cons_of_ne_nil hne
      rw [hcons] at hplain
      obtain ⟨hquote, -, hnewline⟩ := hplain b List.mem_cons_self
      exact ⟨b, bs, hcons, hquote, hnewline⟩
    · exact ⟨backslash, b :: bs, hescape, by decide, by decide⟩
  rw [hcons, List.cons_append] at hread ⊢
  rw [unquoteChars, if_neg hquote, if_neg hnewline, hread, Option.bind_some]

/-- The parts of a string are read back, up to the closing quote. -/
theorem unquoteChars_flatMap (ps : List Piece) (rest : GoString) {n : ℕ} (h : ps.length < n) :
  unquoteChars n (ps.flatMap (Piece.escape table) ++ doubleQuote :: rest)
    = some (ps.flatMap Piece.bytes, rest)
  := by
  obtain ⟨n, rfl⟩ := Nat.exists_eq_succ_of_ne_zero (Nat.ne_zero_of_lt h)
  induction ps generalizing n with
  | nil => rfl
  | cons p ps ih =>
    rw [List.length_cons, Nat.succ_lt_succ_iff] at h
    obtain ⟨n, rfl⟩ := Nat.exists_eq_succ_of_ne_zero (Nat.ne_zero_of_lt h)
    rw [List.flatMap_cons, List.append_assoc, unquoteChars_escape, ih n h, Option.map_some]
    rfl

theorem length_le_flatMap_escape (ps : List Piece) :
  ps.length ≤ (ps.flatMap (Piece.escape table)).length
  := by
  induction ps with
  | nil => apply le_rfl
  | cons p ps ih =>
    have hpos : 0 < (p.escape table).length := by
      obtain ⟨hne, -⟩ | ⟨b, bs, hescape, -⟩ := escape_cases table p
      · apply List.length_pos_iff.mpr hne
      · rw [hescape]
        apply Nat.succ_pos
    rw [List.flatMap_cons, List.length_append, List.length_cons]
    omega

/-- The parts of a string make it up. -/
theorem flatMap_pieces {n : ℕ} {s : GoString} (h : s.length ≤ n) :
  (pieces n s).flatMap Piece.bytes = s
  := by
  induction n generalizing s with
  | zero =>
    rw [List.length_eq_zero_iff.mp (Nat.le_zero.mp h)]
    rfl
  | succ n ih =>
    cases s with
    | nil => rfl
    | cons b rest =>
      rw [List.length_cons, Nat.add_le_add_iff_right] at h
      rw [pieces]
      split
      · rename_i c hc
        rw [List.flatMap_cons, ih (Utf8.length_drop_utf8Size_le c h)]
        apply Utf8.append_of_decodeRune hc
      · rw [List.flatMap_cons, ih h]
        rfl

/-- A quoted string is read back. -/
theorem unquote_quote (table : Char → Bool) (s : GoString) :
  unquote (quote table s) = some s
  := by
  rw [quote, unquote, if_pos rfl, unquoteChars_flatMap, flatMap_pieces le_rfl]
  rw [List.length_append, List.length_singleton]
  apply Nat.lt_succ_of_le (length_le_flatMap_escape _)

end

end GoQuote
