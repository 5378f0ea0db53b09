import VmProxyAuth.Lib.Machine
import VmProxyAuth.Lib.Utf8

/-!
# JSON as text

The text that `encoding/json` writes for strings and objects, and how it reads text.  The scanner
goes over the text byte by byte, with a stack of the objects and arrays it is in, and puts the
value together.  What is written for an object is read as that object (`Reads.object`), and an
object cut short is not read at all (`parse_take_encodeObject`).
-/

namespace JsonText

abbrev quote : UInt8 := 0x22
abbrev backslash : UInt8 := 0x5c
abbrev leftBrace : UInt8 := 0x7b
abbrev rightBrace : UInt8 := 0x7d
abbrev leftBracket : UInt8 := 0x5b
abbrev rightBracket : UInt8 := 0x5d
abbrev colon : UInt8 := 0x3a
abbrev comma : UInt8 := 0x2c
abbrev space : UInt8 := 0x20

/-- A JSON value.  A number is kept as it is written. -/
inductive Value where
  | null
  | bool (b : Bool)
  | number (text : GoString)
  | string (s : String)
  | array (elements : List Value)
  | object (members : List (String × Value))

/-! ### Writing -/

/-- The characters that are written with a backslash, and the byte behind it. -/
def shortEscapes : List (ℕ × UInt8) :=
  [(0x22, 0x22), (0x5c, 0x5c), (0x08, 0x62), (0x0c, 0x66), (0x0a, 0x6e), (0x0d, 0x72),
    (0x09, 0x74)]

/-- The byte that stands for a character behind a backslash, if there is one. -/
def shortEscape (c : Char) : Option UInt8 :=
  (shortEscapes.find? (fun e => e.1 == c.toNat)).map Prod.snd

/-- Whether a character is written as its number: the other control characters, those that are
special in HTML, and two line separators. -/
def isEscaped (c : Char) : Bool :=
  decide (c.toNat < 0x20) || c.toNat == 0x3c || c.toNat == 0x3e || c.toNat == 0x26 ||
    c.toNat == 0x2028 || c.toNat == 0x2029

/-- A hexadecimal digit. -/
def hexDigit (n : ℕ) : UInt8 := if n < 10 then (0x30 + n).toUInt8 else (0x57 + n).toUInt8

/-- A number with four hexadecimal digits. -/
def hex4 (n : ℕ) : GoString :=
  [hexDigit (n / 0x1000 % 16), hexDigit (n / 0x100 % 16), hexDigit (n / 0x10 % 16),
    hexDigit (n % 16)]

/-- A character inside a string. -/
def escapeChar (c : Char) : GoString :=
  match shortEscape c with
  | some b => [backslash, b]
  | none => if isEscaped c then backslash :: 0x75 :: hex4 c.toNat else String.utf8EncodeChar c

/-- A string. -/
def encodeString (s : String) : GoString := quote :: (s.toList.flatMap escapeChar ++ [quote])

/-- An object, by its keys and the texts of its values. -/
def encodeObject (members : List (String × GoString)) : GoString :=
  leftBrace ::
    (((members.map (fun m => encodeString m.1 ++ colon :: m.2)).intersperse [comma]).flatten ++
      [rightBrace])

/-- The number of bytes of a character inside a string. -/
def charSize (c : Char) : ℕ :=
  if (shortEscape c).isSome then 2 else if isEscaped c then 6 else c.utf8Size

/-- The number of bytes of a string. -/
def stringSize (s : String) : ℕ := (s.toList.map charSize).sum + 2

theorem length_escapeChar (c : Char) :
  (escapeChar c).length = charSize c
  := by
  rw [escapeChar, charSize]
  cases shortEscape c with
  | some b => rfl
  | none =>
    cases isEscaped c with
    | true => rfl
    | false => apply String.length_utf8EncodeChar

theorem length_encodeString (s : String) :
  (encodeString s).length = stringSize s
  := by
  rw [encodeString, List.length_cons, List.length_append, List.length_flatMap, stringSize]
  simp only [length_escapeChar, List.length_singleton]

/-! ### Reading strings -/

/-- The value of a hexadecimal digit. -/
def hexValue (b : UInt8) : Option ℕ :=
  if 0x30 ≤ b ∧ b ≤ 0x39 then some (b.toNat - 0x30)
  else if 0x61 ≤ b ∧ b ≤ 0x66 then some (b.toNat - 0x57)
  else if 0x41 ≤ b ∧ b ≤ 0x46 then some (b.toNat - 0x37)
  else none

/-- The number that a string begins with behind a backslash and a `u`, and the rest. -/
def getu4 : GoString → Option (ℕ × GoString)
  | b₁ :: b₂ :: d₁ :: d₂ :: d₃ :: d₄ :: rest =>
    if b₁ = backslash ∧ b₂ = 0x75 then do
      let n₁ ← hexValue d₁
      let n₂ ← hexValue d₂
      let n₃ ← hexValue d₃
      let n₄ ← hexValue d₄
      some (((n₁ * 16 + n₂) * 16 + n₃) * 16 + n₄, rest)
    else none
  | _ => none

/-- The character that a byte behind a backslash stands for. -/
def unescape (b : UInt8) : Option Char :=
  if b = 0x62 then some (Char.ofNat 0x08)
  else if b = 0x66 then some (Char.ofNat 0x0c)
  else if b = 0x6e then some (Char.ofNat 0x0a)
  else if b = 0x72 then some (Char.ofNat 0x0d)
  else if b = 0x74 then some (Char.ofNat 0x09)
  else if b = 0x22 ∨ b = 0x5c ∨ b = 0x2f ∨ b = 0x27 then some (Char.ofNat b.toNat)
  else none

/-- The characters of a string, in at most the given number of rounds.  The scanner lets no other
escapes through than those handled here. -/
def unquoteChars : ℕ → GoString → List Char
  | 0, _ => []
  | _ + 1, [] => []
  | n + 1, b :: rest =>
    if b = backslash then
      match getu4 (b :: rest) with
      | some (r, rest₁) =>
        if 0xd800 ≤ r ∧ r < 0xe000 then
          match getu4 rest₁ with
          | some (r₁, rest₂) =>
            if r < 0xdc00 ∧ 0xdc00 ≤ r₁ ∧ r₁ < 0xe000 then
              Char.ofNat (0x10000 + (r - 0xd800) * 0x400 + (r₁ - 0xdc00)) :: unquoteChars n rest₂
            else Utf8.replacement :: unquoteChars n rest₁
          | none => Utf8.replacement :: unquoteChars n rest₁
        else Char.ofNat r :: unquoteChars n rest₁
      | none =>
        match rest with
        | [] => []
        | b₁ :: rest₁ =>
          match unescape b₁ with
          | some c => c :: unquoteChars n rest₁
          | none => []
    else
      match Utf8.decodeRune (b :: rest) with
      | some c => c :: unquoteChars n ((b :: rest).drop c.utf8Size)
      | none => Utf8.replacement :: unquoteChars n rest

/-- The string between two quotes. -/
def unquote (raw : GoString) : String := String.ofList (unquoteChars raw.length raw)

/-! ### The scanner -/

/-- Inside a string: in the open, behind a backslash, or with some hexadecimal digits to come. -/
inductive Escape where
  | plain
  | slash
  | hex (n : ℕ)

/-- Inside a number: behind the minus sign, behind a leading zero, in the integer part, behind the
point, in the fraction, behind the `e`, behind the sign of the exponent, in the exponent. -/
inductive NumberPart where
  | minus
  | zero
  | integer
  | point
  | fraction
  | e
  | sign
  | exponent

/-- What a byte is to a number. -/
inductive NumberStep where
  | goes (part : NumberPart)
  | ends
  | fails

/-- An object before a key, an object before the value of a key, or an array. -/
inductive Frame where
  | object (members : List (String × Value))
  | member (members : List (String × Value)) (key : String)
  | array (elements : List Value)

/-- What the scanner is at: it expects a value, a value or the end of the array, a key, a key or
the end of the object, or a colon; a value inside an object or an array has ended; the whole value
has ended; or it is in a string, in a number or in a literal. -/
inductive Mode where
  | value
  | valueOrEnd
  | key
  | keyOrEnd
  | colon
  | after
  | done (v : Value)
  | string (raw : GoString) (escape : Escape)
  | number (raw : GoString) (part : NumberPart)
  | literal (todo : GoString) (v : Value)

/-- The objects and arrays the scanner is in, and what it is at. -/
structure Scanner where
  stack : List Frame
  mode : Mode

/-- `maxNestingDepth`. -/
def maxNestingDepth : ℕ := 10000

def isSpace (c : UInt8) : Bool := c == 0x20 || c == 0x09 || c == 0x0a || c == 0x0d

def isDigit (c : UInt8) : Bool := decide (0x30 ≤ c) && decide (c ≤ 0x39)

/-- A number goes on with a byte, or ends before it. -/
def NumberPart.step (part : NumberPart) (c : UInt8) : NumberStep :=
  match part with
  | .minus =>
    if c = 0x30 then .goes .zero else if isDigit c then .goes .integer else .fails
  | .zero =>
    if c = 0x2e then .goes .point else if c = 0x65 ∨ c = 0x45 then .goes .e else .ends
  | .integer =>
    if isDigit c then .goes .integer
    else if c = 0x2e then .goes .point
    else if c = 0x65 ∨ c = 0x45 then .goes .e
    else .ends
  | .point => if isDigit c then .goes .fraction else .fails
  | .fraction =>
    if isDigit c then .goes .fraction else if c = 0x65 ∨ c = 0x45 then .goes .e else .ends
  | .e =>
    if c = 0x2b ∨ c = 0x2d then .goes .sign else if isDigit c then .goes .exponent else .fails
  | .sign => if isDigit c then .goes .exponent else .fails
  | .exponent => if isDigit c then .goes .exponent else .ends

/-- A value has ended. -/
def give : List Frame → Value → Option Scanner
  | [], v => some ⟨[], .done v⟩
  | .member members key :: stack, v => some ⟨.object (members ++ [(key, v)]) :: stack, .after⟩
  | .array elements :: stack, v => some ⟨.array (elements ++ [v]) :: stack, .after⟩
  | .object members :: stack, .string key => some ⟨.member members key :: stack, .colon⟩
  | .object _ :: _, _ => none

/-- An object or array begins. -/
def push (f : Frame) (stack : List Frame) (mode : Mode) : Option Scanner :=
  if stack.length < maxNestingDepth then some ⟨f :: stack, mode⟩ else none

/-- A value begins with a byte. -/
def startValue (stack : List Frame) (c : UInt8) : Option Scanner :=
  if c = leftBrace then push (.object []) stack .keyOrEnd
  else if c = leftBracket then push (.array []) stack .valueOrEnd
  else if c = quote then some ⟨stack, .string [] .plain⟩
  else if c = 0x2d then some ⟨stack, .number [c] .minus⟩
  else if c = 0x30 then some ⟨stack, .number [c] .zero⟩
  else if isDigit c then some ⟨stack, .number [c] .integer⟩
  else if c = 0x74 then some ⟨stack, .literal (str "rue") (.bool true)⟩
  else if c = 0x66 then some ⟨stack, .literal (str "alse") (.bool false)⟩
  else if c = 0x6e then some ⟨stack, .literal (str "ull") .null⟩
  else none

/-- A byte behind a value. -/
def endValue (s : Scanner) (c : UInt8) : Option Scanner :=
  if isSpace c then some s
  else
    match s.mode, s.stack with
    | .after, .object members :: stack =>
      if c = comma then some ⟨s.stack, .key⟩
      else if c = rightBrace then give stack (.object members)
      else none
    | .after, .array elements :: stack =>
      if c = comma then some ⟨s.stack, .value⟩
      else if c = rightBracket then give stack (.array elements)
      else none
    | _, _ => none

/-- A byte inside a string. -/
def inString (stack : List Frame) (raw : GoString) (escape : Escape) (c : UInt8) :
    Option Scanner :=
  match escape with
  | .plain =>
    if c = quote then give stack (.string (unquote raw))
    else if c = backslash then some ⟨stack, .string (raw ++ [c]) .slash⟩
    else if c < 0x20 then none
    else some ⟨stack, .string (raw ++ [c]) .plain⟩
  | .slash =>
    if c = 0x62 ∨ c = 0x66 ∨ c = 0x6e ∨ c = 0x72 ∨ c = 0x74 ∨ c = 0x5c ∨ c = 0x2f ∨ c = 0x22 then
      some ⟨stack, .string (raw ++ [c]) .plain⟩
    else if c = 0x75 then some ⟨stack, .string (raw ++ [c]) (.hex 3)⟩
    else none
  | .hex n =>
    if (hexValue c).isSome then
      some ⟨stack, .string (raw ++ [c]) (match n with | 0 => .plain | n + 1 => .hex n)⟩
    else none

/-- One byte. -/
def step (s : Scanner) (c : UInt8) : Option Scanner :=
  match s.mode with
  | .value => if isSpace c then some s else startValue s.stack c
  | .valueOrEnd =>
    if isSpace c then some s
    else if c = rightBracket then endValue ⟨s.stack, .after⟩ c
    else startValue s.stack c
  | .key =>
    if isSpace c then some s
    else if c = quote then some ⟨s.stack, .string [] .plain⟩
    else none
  | .keyOrEnd =>
    if isSpace c then some s
    else if c = rightBrace then endValue ⟨s.stack, .after⟩ c
    else if c = quote then some ⟨s.stack, .string [] .plain⟩
    else none
  | .colon =>
    if isSpace c then some s else if c = colon then some ⟨s.stack, .value⟩ else none
  | .after => endValue s c
  | .done _ => endValue s c
  | .string raw escape => inString s.stack raw escape c
  | .number raw part =>
    match part.step c with
    | .goes part => some ⟨s.stack, .number (raw ++ [c]) part⟩
    | .ends => (give s.stack (.number raw)).bind (fun t => endValue t c)
    | .fails => none
  | .literal todo v =>
    match todo with
    | [] => none
    | [b] => if c = b then give s.stack v else none
    | b :: todo => if c = b then some ⟨s.stack, .literal todo v⟩ else none

/-- The scanner. -/
def scanner : Machine Scanner UInt8 := ⟨step⟩

/-- The value that has ended. -/
def Scanner.result (s : Scanner) : Option Value :=
  match s.mode with
  | .done v => some v
  | _ => none

/-- The value of a text.  At the end of the text, the scanner is given a space. -/
def parse (text : GoString) : Option Value :=
  ((scanner.run ⟨[], .value⟩ text).bind (fun s => step s space)).bind Scanner.result

/-! ### Strings are read as they were written -/

/-- A byte that stands for itself inside a string. -/
def IsPlain (b : UInt8) : Prop := b ≠ quote ∧ b ≠ backslash ∧ ¬ b < 0x20

instance (b : UInt8) : Decidable (IsPlain b) := inferInstanceAs (Decidable (_ ∧ _ ∧ _))

theorem isPlain_of_mem {c : Char} (hshort : shortEscape c = none) (hescaped : isEscaped c = false)
    {b : UInt8} (hb : b ∈ String.utf8EncodeChar c) :
  IsPlain b
  := by
  rcases Utf8.utf8EncodeChar_cases c with ⟨hascii, hbytes⟩ | hbytes
  · rw [hbytes, List.mem_singleton] at hb
    have htable : ∀ n < 0x80, shortEscapes.find? (fun e => e.1 == n) = none → 0x20 ≤ n →
        IsPlain (UInt8.ofNat n) := by
      decide +kernel
    rw [shortEscape, Option.map_eq_none_iff] at hshort
    have hcontrol : 0x20 ≤ c.toNat := by
      simp only [isEscaped, Bool.or_eq_false_iff, decide_eq_false_iff_not, not_lt] at hescaped
      omega
    rw [hb]
    apply htable _ hascii hshort hcontrol
  · have htable : ∀ b : UInt8, 0x80 ≤ b → IsPlain b := by
      decide +kernel
    apply htable b (hbytes b hb)

theorem hexValue_hexDigit {n : ℕ} (h : n < 16) :
  hexValue (hexDigit n) = some n
  := by
  revert h
  revert n
  decide

theorem getu4_hex4 {n : ℕ} (h : n < 0x10000) (rest : GoString) :
  getu4 (backslash :: 0x75 :: (hex4 n ++ rest)) = some (n, rest)
  := by
  have hdigit : ∀ k, hexValue (hexDigit (k % 16)) = some (k % 16) := by
    intro k
    apply hexValue_hexDigit (Nat.mod_lt _ (by decide))
  simp only [hex4, List.cons_append, List.nil_append, getu4, true_and, if_true, hdigit,
    Option.bind_eq_bind, Option.bind_some]
  congr 2
  omega

theorem getu4_of_ne {b : UInt8} (h : b ≠ 0x75) (rest : GoString) :
  getu4 (backslash :: b :: rest) = none
  := by
  rcases rest with _ | ⟨d₁, _ | ⟨d₂, _ | ⟨d₃, _ | ⟨d₄, rest⟩⟩⟩⟩
  · rfl
  · rfl
  · rfl
  · rfl
  · simp [getu4, h]

/-- What stands for a character behind a backslash is read as that character. -/
theorem unescape_of_shortEscape {c : Char} {b : UInt8} (h : shortEscape c = some b) :
  unescape b = some c ∧ b ≠ 0x75 ∧
    (b = 0x62 ∨ b = 0x66 ∨ b = 0x6e ∨ b = 0x72 ∨ b = 0x74 ∨ b = 0x5c ∨ b = 0x2f ∨ b = 0x22)
  := by
  have htable : ∀ e ∈ shortEscapes, unescape e.2 = some (Char.ofNat e.1) ∧ e.2 ≠ 0x75 ∧
      (e.2 = 0x62 ∨ e.2 = 0x66 ∨ e.2 = 0x6e ∨ e.2 = 0x72 ∨ e.2 = 0x74 ∨ e.2 = 0x5c ∨ e.2 = 0x2f ∨
        e.2 = 0x22) := by
    decide
  obtain ⟨e, hfind, rfl⟩ := Option.map_eq_some_iff.mp h
  have hnumber : e.1 = c.toNat := by
    simpa using List.find?_some hfind
  have hc : Char.ofNat e.1 = c := by
    rw [hnumber, Char.ofNat_toNat]
  rw [← hc]
  apply htable e (List.mem_of_find?_eq_some hfind)

/-- The characters written as their number are below the surrogates. -/
theorem toNat_lt_of_isEscaped {c : Char} (h : isEscaped c = true) :
  c.toNat < 0xd800
  := by
  simp only [isEscaped, Bool.or_eq_true, decide_eq_true_eq, beq_iff_eq] at h
  omega

theorem unquoteChars_escapeChar (c : Char) (rest : GoString) (n : ℕ) :
  unquoteChars (n + 1) (escapeChar c ++ rest) = c :: unquoteChars n rest
  := by
  rw [escapeChar]
  cases hshort : shortEscape c with
  | some b =>
    obtain ⟨hunescape, hne, -⟩ := unescape_of_shortEscape hshort
    simp only [List.cons_append, List.nil_append, unquoteChars, if_true, getu4_of_ne hne, hunescape]
  | none =>
    cases hescaped : isEscaped c with
    | true =>
      have hlt := toNat_lt_of_isEscaped hescaped
      have hget := getu4_hex4 (n := c.toNat) (by omega) rest
      simp only [if_true, List.cons_append, unquoteChars, hget]
      rw [if_neg (by omega), Char.ofNat_toNat]
    | false =>
      obtain ⟨b, bs, hbytes⟩ : ∃ b bs, String.utf8EncodeChar c = b :: bs := by
        apply List.exists_cons_of_length_pos
        rw [String.length_utf8EncodeChar]
        apply c.utf8Size_pos
      have hplain : IsPlain b := isPlain_of_mem hshort hescaped (by simp [hbytes])
      have hrune := Utf8.decodeRune_append c rest
      have hdrop : (String.utf8EncodeChar c ++ rest).drop c.utf8Size = rest := by
        rw [← String.length_utf8EncodeChar, List.drop_left]
      rw [hbytes, List.cons_append] at hrune hdrop
      simp only [Bool.false_eq_true, if_false, hbytes, List.cons_append, unquoteChars,
        if_neg hplain.2.1, hrune, hdrop]

theorem length_escapeChar_pos (c : Char) :
  0 < (escapeChar c).length
  := by
  rw [length_escapeChar, charSize]
  split_ifs
  · decide
  · decide
  · apply c.utf8Size_pos

/-- What is written for a string is read as that string. -/
theorem unquote_flatMap (s : String) :
  unquote (s.toList.flatMap escapeChar) = s
  := by
  have hchars : ∀ (cs : List Char) n, (cs.flatMap escapeChar).length ≤ n →
      unquoteChars n (cs.flatMap escapeChar) = cs := by
    intro cs
    induction cs with
    | nil =>
      intro n _
      cases n <;> rfl
    | cons c cs ih =>
      intro n hn
      rw [List.flatMap_cons, List.length_append] at hn
      have hpos := length_escapeChar_pos c
      obtain ⟨n, rfl⟩ : ∃ m, n = m + 1 := ⟨n - 1, by omega⟩
      rw [List.flatMap_cons, unquoteChars_escapeChar, ih n (by omega)]
  rw [unquote, hchars _ _ le_rfl, String.ofList_toList]

/-! ### Objects are read as they were written -/

theorem run_append (s : Scanner) (a b : GoString) :
  scanner.run s (a ++ b) = (scanner.run s a).bind (fun t => scanner.run t b)
  := by
  induction a generalizing s with
  | nil => rfl
  | cons c a ih =>
    rw [List.cons_append, Machine.run, Machine.run, Option.bind_assoc]
    congr 1
    funext t
    apply ih

theorem run_of_step {s t : Scanner} {c : UInt8} (h : step s c = some t) (rest : GoString) :
  scanner.run s (c :: rest) = scanner.run t rest
  := by
  rw [Machine.run]
  exact congrArg (fun u => u.bind (fun t => scanner.run t rest)) h

theorem run_singleton (s : Scanner) (c : UInt8) :
  scanner.run s [c] = step s c
  := by
  cases h : step s c with
  | none => exact congrArg (fun u => u.bind (fun t => scanner.run t [])) h
  | some t => apply run_of_step h

section

variable {stack : List Frame}

/-- Plain bytes are taken into a string. -/
theorem run_plain {bytes : GoString} (h : ∀ b ∈ bytes, IsPlain b) (raw : GoString) :
  scanner.run ⟨stack, .string raw .plain⟩ bytes = some ⟨stack, .string (raw ++ bytes) .plain⟩
  := by
  induction bytes generalizing raw with
  | nil => rw [List.append_nil, Machine.run]
  | cons b bytes ih =>
    obtain ⟨⟨hquote, hbackslash, hcontrol⟩, hbytes⟩ := List.forall_mem_cons.mp h
    have hstep : step ⟨stack, .string raw .plain⟩ b
        = some ⟨stack, .string (raw ++ [b]) .plain⟩ := by
      simp only [step, inString, if_neg hquote, if_neg hbackslash, if_neg hcontrol]
    rw [run_of_step hstep, ih hbytes, List.append_assoc, List.singleton_append]

theorem step_backslash (raw : GoString) :
  step ⟨stack, .string raw .plain⟩ backslash
    = some ⟨stack, .string (raw ++ [backslash]) .slash⟩
  := rfl

/-- A character is taken into a string. -/
theorem run_escapeChar (c : Char) (raw : GoString) :
  scanner.run ⟨stack, .string raw .plain⟩ (escapeChar c)
    = some ⟨stack, .string (raw ++ escapeChar c) .plain⟩
  := by
  rw [escapeChar]
  cases hshort : shortEscape c with
  | some b =>
    obtain ⟨-, -, hallowed⟩ := unescape_of_shortEscape hshort
    have hstep : step ⟨stack, .string (raw ++ [backslash]) .slash⟩ b
        = some ⟨stack, .string (raw ++ [backslash] ++ [b]) .plain⟩ := by
      simp only [step, inString, if_pos hallowed]
    rw [run_of_step (step_backslash raw), run_of_step hstep, List.append_assoc,
      List.singleton_append, Machine.run]
  | none =>
    cases hescaped : isEscaped c with
    | true =>
      have hhex : ∀ k, (hexValue (hexDigit (k % 16))).isSome = true := by
        intro k
        rw [hexValue_hexDigit (Nat.mod_lt _ (by decide))]
        rfl
      have hdigit : ∀ raw k n, step ⟨stack, .string raw (.hex n)⟩ (hexDigit (k % 16))
          = some ⟨stack, .string (raw ++ [hexDigit (k % 16)])
            (match n with | 0 => .plain | n + 1 => .hex n)⟩ := by
        intro raw k n
        simp only [step, inString, if_pos (hhex k)]
      have hu : ∀ raw, step ⟨stack, .string raw .slash⟩ 0x75
          = some ⟨stack, .string (raw ++ [0x75]) (.hex 3)⟩ := fun _ => rfl
      rw [if_pos rfl, run_of_step (step_backslash raw), run_of_step (hu _), hex4,
        run_of_step (hdigit _ _ 3), run_of_step (hdigit _ _ 2), run_of_step (hdigit _ _ 1),
        run_of_step (hdigit _ _ 0), Machine.run]
      simp
    | false =>
      rw [if_neg Bool.false_ne_true]
      apply run_plain
      intro b hb
      apply isPlain_of_mem hshort hescaped hb

theorem run_flatMap (cs : List Char) (raw : GoString) :
  scanner.run ⟨stack, .string raw .plain⟩ (cs.flatMap escapeChar)
    = some ⟨stack, .string (raw ++ cs.flatMap escapeChar) .plain⟩
  := by
  induction cs generalizing raw with
  | nil => rw [List.flatMap_nil, List.append_nil, Machine.run]
  | cons c cs ih =>
    rw [List.flatMap_cons, run_append, run_escapeChar, Option.bind_some, ih, List.append_assoc]

/-- Where a quote begins a string, what is written for a string is read as that string. -/
theorem run_encodeString {mode : Mode}
    (h : step ⟨stack, mode⟩ quote = some ⟨stack, .string [] .plain⟩) (s : String) :
  scanner.run ⟨stack, mode⟩ (encodeString s) = give stack (.string s)
  := by
  have hquote : step ⟨stack, .string (s.toList.flatMap escapeChar) .plain⟩ quote
      = give stack (.string s) := by
    simp only [step, inString, if_true, unquote_flatMap]
  rw [encodeString, run_of_step h, run_append, run_flatMap, List.nil_append, Option.bind_some,
    run_singleton, hquote]

/-- Where a value is expected that is nested at most so deep, the text is read as the value. -/
def Reads (depth : ℕ) (text : GoString) (v : Value) : Prop :=
  ∀ stack : List Frame, stack.length + depth ≤ maxNestingDepth →
    scanner.run ⟨stack, .value⟩ text = give stack v

theorem Reads.mono {depth depth' : ℕ} {text : GoString} {v : Value} (h : Reads depth text v)
    (hle : depth ≤ depth') :
  Reads depth' text v
  := by
  intro stack hdepth
  apply h stack (by omega)

theorem Reads.string (s : String) :
  Reads 0 (encodeString s) (.string s)
  := by
  intro stack _
  apply run_encodeString rfl

/-- A member of an object is read. -/
theorem run_member {depth : ℕ} {text : GoString} {v : Value} (h : Reads depth text v)
    (hdepth : stack.length + 1 + depth ≤ maxNestingDepth) (members : List (String × Value))
    (key : String) {mode : Mode} (hmode : mode = .key ∨ mode = .keyOrEnd) :
  scanner.run ⟨.object members :: stack, mode⟩ (encodeString key ++ colon :: text)
    = some ⟨.object (members ++ [(key, v)]) :: stack, .after⟩
  := by
  have hquote : step ⟨.object members :: stack, mode⟩ quote
      = some ⟨.object members :: stack, .string [] .plain⟩ := by
    rcases hmode with rfl | rfl
    · rfl
    · rfl
  have hcolon : step ⟨.member members key :: stack, .colon⟩ colon
      = some ⟨.member members key :: stack, .value⟩ := rfl
  rw [run_append, run_encodeString hquote, give, Option.bind_some, run_of_step hcolon,
    h (.member members key :: stack) hdepth, give]

/-- The members of an object are read. -/
theorem run_members {depth : ℕ} (members : List (String × GoString × Value))
    (h : ∀ m ∈ members, Reads depth m.2.1 m.2.2)
    (hdepth : stack.length + 1 + depth ≤ maxNestingDepth) (hne : members ≠ [])
    (done : List (String × Value)) {mode : Mode} (hmode : mode = .key ∨ mode = .keyOrEnd) :
  scanner.run ⟨.object done :: stack, mode⟩
      ((members.map (fun m => encodeString m.1 ++ colon :: m.2.1)).intersperse [comma]).flatten
    = some ⟨.object (done ++ members.map (fun m => (m.1, m.2.2))) :: stack, .after⟩
  := by
  induction members generalizing done mode with
  | nil => apply absurd rfl hne
  | cons m members ih =>
    obtain ⟨hm, hmembers⟩ := List.forall_mem_cons.mp h
    have hmember := run_member hm hdepth done m.1 hmode
    cases members with
    | nil => simpa using hmember
    | cons m' members =>
      have hcomma : step ⟨.object (done ++ [(m.1, m.2.2)]) :: stack, .after⟩ comma
          = some ⟨.object (done ++ [(m.1, m.2.2)]) :: stack, .key⟩ := rfl
      have hrest := ih hmembers (List.cons_ne_nil _ _) (done ++ [(m.1, m.2.2)]) (.inl rfl)
      rw [List.append_assoc, List.singleton_append] at hrest
      rw [List.map_cons, List.map_cons, List.intersperse_cons_cons, List.flatten_cons, run_append,
        hmember, Option.bind_some]
      exact (run_of_step hcomma _).trans hrest

/-- What is written for an object is read as that object, if its members are. -/
theorem Reads.object {depth : ℕ} {members : List (String × GoString × Value)}
    (h : ∀ m ∈ members, Reads depth m.2.1 m.2.2) :
  Reads (depth + 1) (encodeObject (members.map (fun m => (m.1, m.2.1))))
    (.object (members.map (fun m => (m.1, m.2.2))))
  := by
  intro stack hdepth
  have hlt : stack.length < maxNestingDepth := by omega
  have hbrace : step ⟨stack, .value⟩ leftBrace = some ⟨.object [] :: stack, .keyOrEnd⟩ :=
    if_pos hlt
  rw [encodeObject, run_of_step hbrace, List.map_map]
  by_cases hne : members = []
  · subst hne
    apply run_singleton
  · have hend : ∀ ms, step ⟨.object ms :: stack, .after⟩ rightBrace = give stack (.object ms) :=
      fun _ => rfl
    have hnested : stack.length + 1 + depth ≤ maxNestingDepth := by omega
    have hmembers := run_members members h hnested hne [] (.inr rfl)
    rw [List.nil_append] at hmembers
    rw [run_append, Function.comp_def, hmembers, Option.bind_some, run_singleton, hend]

/-- A text is read as the value it is read as where a value is expected. -/
theorem parse_of_reads {depth : ℕ} {text : GoString} {v : Value} (h : Reads depth text v)
    (hdepth : depth ≤ maxNestingDepth) :
  parse text = some v
  := by
  rw [parse, h [] (by simpa using hdepth)]
  rfl

end

/-! ### Objects cut short are not read -/

/-- Nothing can come but the rest of a number or of a literal. -/
inductive Closed : Scanner → Prop where
  | done (stack : List Frame) (v : Value) : Closed ⟨stack, .done v⟩
  | number (raw : GoString) (part : NumberPart) : Closed ⟨[], .number raw part⟩
  | literal (v : Value) {b : UInt8} (h : b ≠ rightBrace) : Closed ⟨[], .literal [b] v⟩

/-- A number does not go on with a brace. -/
theorem NumberPart.step_rightBrace (part part' : NumberPart) :
  part.step rightBrace ≠ .goes part'
  := by
  cases part <;> exact NumberStep.noConfusion

theorem endValue_done {stack : List Frame} {v : Value} {c : UInt8} {t : Scanner}
    (h : endValue ⟨stack, .done v⟩ c = some t) :
  t = ⟨stack, .done v⟩ ∧ c ≠ rightBrace
  := by
  rw [endValue] at h
  split_ifs at h with hspace
  refine ⟨(Option.some.inj h).symm, ?_⟩
  rintro rfl
  cases hspace

theorem step_number (stack : List Frame) (raw : GoString) (part : NumberPart) (c : UInt8) :
  step ⟨stack, .number raw part⟩ c =
    match part.step c with
    | .goes part => some ⟨stack, .number (raw ++ [c]) part⟩
    | .ends => (give stack (.number raw)).bind (fun t => endValue t c)
    | .fails => none
  := rfl

theorem step_literal_singleton (stack : List Frame) (b : UInt8) (v : Value) (c : UInt8) :
  step ⟨stack, .literal [b] v⟩ c = if c = b then give stack v else none
  := rfl

theorem step_literal_cons_cons (stack : List Frame) (b b' : UInt8) (todo : GoString) (v : Value)
    (c : UInt8) :
  step ⟨stack, .literal (b :: b' :: todo) v⟩ c
    = if c = b then some ⟨stack, .literal (b' :: todo) v⟩ else none
  := rfl

/-- A closed state stays closed, and takes no brace. -/
theorem Closed.step {s t : Scanner} {c : UInt8} (hs : Closed s) (h : step s c = some t) :
  Closed t ∧ c ≠ rightBrace
  := by
  cases hs with
  | done stack v =>
    obtain ⟨rfl, hc⟩ := endValue_done h
    exact ⟨.done stack v, hc⟩
  | number raw part =>
    rw [step_number] at h
    cases hpart : part.step c with
    | goes part' =>
      rw [hpart] at h
      obtain rfl := Option.some.inj h
      refine ⟨.number _ _, ?_⟩
      rintro rfl
      apply part.step_rightBrace part' hpart
    | ends =>
      rw [hpart] at h
      obtain ⟨rfl, hc⟩ := endValue_done h
      exact ⟨.done _ _, hc⟩
    | fails =>
      rw [hpart] at h
      cases h
  | literal v hb =>
    rw [step_literal_singleton] at h
    split_ifs at h with hc
    obtain rfl := Option.some.inj h
    exact ⟨.done _ _, hc ▸ hb⟩

/-- A value inside an object or an array is not the value of the whole text. -/
theorem stack_eq_nil_of_give {stack : List Frame} {v w : Value} {t : Scanner}
    (h : give stack v = some t) (hresult : t.result = some w) :
  stack = []
  := by
  cases stack with
  | nil => rfl
  | cons f stack =>
    cases f with
    | object members =>
      cases v with
      | string key =>
        obtain rfl := Option.some.inj h
        cases hresult
      | _ => cases h
    | member members key =>
      obtain rfl := Option.some.inj h
      cases hresult
    | array elements =>
      obtain rfl := Option.some.inj h
      cases hresult

/-- At the end of a text that is read, the state is closed. -/
theorem closed_of_result {s t : Scanner} {v : Value} (h : step s space = some t)
    (hresult : t.result = some v) :
  Closed s
  := by
  obtain ⟨stack, mode⟩ := s
  cases mode with
  | done w => exact .done stack w
  | number raw part =>
    rw [step_number] at h
    cases hpart : part.step space with
    | goes part' =>
      rw [hpart] at h
      obtain rfl := Option.some.inj h
      cases hresult
    | ends =>
      rw [hpart] at h
      obtain ⟨u, hgive, hspace⟩ := Option.bind_eq_some_iff.mp h
      obtain rfl : u = t := Option.some.inj hspace
      obtain rfl := stack_eq_nil_of_give hgive hresult
      exact .number raw part
    | fails =>
      rw [hpart] at h
      cases h
  | literal todo w =>
    match todo with
    | [] => cases h
    | [b] =>
      rw [step_literal_singleton] at h
      split_ifs at h with hb
      obtain rfl := stack_eq_nil_of_give h hresult
      refine .literal w ?_
      rw [← hb]
      decide
    | b :: b' :: todo =>
      rw [step_literal_cons_cons] at h
      split_ifs at h
      obtain rfl := Option.some.inj h
      cases hresult
  | string raw escape =>
    cases escape with
    | plain =>
      obtain rfl := Option.some.inj h
      cases hresult
    | slash => cases h
    | hex n => cases h
  | value | valueOrEnd | key | keyOrEnd | colon | after =>
    obtain rfl := Option.some.inj h
    cases hresult

theorem Closed.run {s t : Scanner} {text : GoString} (hs : Closed s)
    (h : scanner.run s text = some t) :
  rightBrace ∉ text
  := by
  induction text generalizing s with
  | nil => apply List.not_mem_nil
  | cons c text ih =>
    obtain ⟨u, hu, hrest⟩ := scanner.run_cons.mp h
    obtain ⟨hclosed, hc⟩ := hs.step hu
    rw [List.mem_cons, not_or]
    exact ⟨hc.symm, ih hclosed hrest⟩

/-- A text that is read is not read without an end that has a brace. -/
theorem parse_eq_none_of_append {text rest : GoString} {v : Value}
    (h : parse (text ++ rest) = some v) (hrest : rightBrace ∈ rest) :
  parse text = none
  := by
  cases htext : parse text with
  | none => rfl
  | some w =>
    obtain ⟨t, ht, hresult⟩ := Option.bind_eq_some_iff.mp htext
    obtain ⟨s, hs, hstep⟩ := Option.bind_eq_some_iff.mp ht
    have hclosed := closed_of_result hstep hresult
    rw [parse, run_append, hs, Option.bind_some] at h
    cases hrun : scanner.run s rest with
    | none =>
      rw [hrun] at h
      cases h
    | some u => apply absurd hrest (hclosed.run hrun)

theorem rightBrace_mem_drop (members : List (String × GoString)) {n : ℕ}
    (hn : n < (encodeObject members).length) :
  rightBrace ∈ (encodeObject members).drop n
  := by
  rw [encodeObject, ← List.cons_append, List.length_append, List.length_singleton] at hn
  rw [encodeObject, ← List.cons_append, List.drop_append_of_le_length (by omega)]
  apply List.mem_append_right
  apply List.mem_singleton_self

/-- An object cut short is not read. -/
theorem parse_take_encodeObject {members : List (String × GoString)} {v : Value}
    (h : parse (encodeObject members) = some v) {n : ℕ} (hn : n < (encodeObject members).length) :
  parse ((encodeObject members).take n) = none
  := by
  rw [← List.take_append_drop n (encodeObject members)] at h
  apply parse_eq_none_of_append h (rightBrace_mem_drop members hn)

/-! ### Sizes -/

theorem length_flatten_intersperse {a : UInt8} {texts : List GoString} (h : texts ≠ []) :
  (texts.intersperse [a]).flatten.length + 1 = (texts.map (fun text => text.length + 1)).sum
  := by
  induction texts with
  | nil => apply absurd rfl h
  | cons text texts ih =>
    cases texts with
    | nil => simp
    | cons text' texts =>
      have hrest := ih (List.cons_ne_nil _ _)
      rw [List.intersperse_cons_cons, List.map_cons, List.sum_cons, ← hrest]
      simp only [List.flatten_cons, List.length_append, List.length_singleton]
      omega

/-- The size of an object: each member has a colon, and a comma or the brace behind it. -/
theorem length_encodeObject {members : List (String × GoString)} (h : members ≠ []) :
  (encodeObject members).length
    = (members.map (fun m => stringSize m.1 + m.2.length + 2)).sum + 1
  := by
  have hne : members.map (fun m => encodeString m.1 ++ colon :: m.2) ≠ [] := by
    simpa using h
  have hlength := length_flatten_intersperse (a := comma) hne
  have hsizes : (members.map (fun m => encodeString m.1 ++ colon :: m.2)).map
      (fun text => text.length + 1) = members.map (fun m => stringSize m.1 + m.2.length + 2) := by
    rw [List.map_map]
    apply List.map_congr_left
    intro m _
    simp only [Function.comp_apply, List.length_append, List.length_cons, length_encodeString]
    omega
  rw [hsizes] at hlength
  rw [encodeObject, List.length_cons, List.length_append, List.length_singleton, hlength]

end JsonText
