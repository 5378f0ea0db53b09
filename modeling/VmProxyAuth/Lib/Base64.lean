import VmProxyAuth.Lib.GoString

/-!
# Base64

The encodings of `encoding/base64`.  Three bytes are written as four characters of six bits
each; a last group of one or two bytes is written as two or three characters, and filled up with
`=` if the encoding has padding.  The decoder leaves out line ends and does not look at the
bits of the last character that stand for no byte.  Decoding inverts encoding
(`decode_encode`).
-/

namespace Base64

/-- The encodings: with the alphabet for texts and padding, or with that for URLs and none. -/
inductive Encoding where
  | std
  | rawURL
  deriving DecidableEq, Repr

namespace Encoding

/-- The last two characters of the alphabet. -/
def last : Encoding → UInt8 × UInt8
  | std => (43, 47)
  | rawURL => (45, 95)

/-- Whether a last group is filled up. -/
def padded : Encoding → Bool
  | std => true
  | rawURL => false

/-- The character for a number below 64. -/
def char (enc : Encoding) (v : ℕ) : UInt8 :=
  if v < 26 then UInt8.ofNat (65 + v)
  else if v < 52 then UInt8.ofNat (71 + v)
  else if v < 62 then UInt8.ofNat (v - 4)
  else if v = 62 then enc.last.1
  else enc.last.2

/-- The number a character stands for. -/
def value (enc : Encoding) (c : UInt8) : Option ℕ :=
  if 65 ≤ c && c ≤ 90 then some (c.toNat - 65)
  else if 97 ≤ c && c ≤ 122 then some (c.toNat - 71)
  else if 48 ≤ c && c ≤ 57 then some (c.toNat + 4)
  else if c = enc.last.1 then some 62
  else if c = enc.last.2 then some 63
  else none

/-- The padding of a last group. -/
def padding (enc : Encoding) (n : ℕ) : GoString := if enc.padded then List.replicate n 61 else []

/-- `EncodeToString`. -/
def encode (enc : Encoding) : GoString → GoString
  | [] => []
  | [a] => [enc.char (a.toNat / 4), enc.char (a.toNat % 4 * 16)] ++ enc.padding 2
  | [a, b] =>
    [enc.char (a.toNat / 4), enc.char (a.toNat % 4 * 16 + b.toNat / 16),
      enc.char (b.toNat % 16 * 4)] ++ enc.padding 1
  | a :: b :: c :: rest =>
    enc.char (a.toNat / 4) :: enc.char (a.toNat % 4 * 16 + b.toNat / 16) ::
      enc.char (b.toNat % 16 * 4 + c.toNat / 64) :: enc.char (c.toNat % 64) :: encode enc rest

/-- The byte two characters begin, and the ones further characters complete. -/
def firstByte (x y : ℕ) : UInt8 := UInt8.ofNat (x * 4 + y / 16)

@[inherit_doc firstByte]
def secondByte (y z : ℕ) : UInt8 := UInt8.ofNat (y % 16 * 16 + z / 4)

@[inherit_doc firstByte]
def thirdByte (z w : ℕ) : UInt8 := UInt8.ofNat (z % 4 * 64 + w)

/-- The decoder, without line ends: none if a character is not of the alphabet, if the last
group has one character only, or if it is not filled up as the encoding has it. -/
def decodeGroups (enc : Encoding) : GoString → Option GoString
  | [] => some []
  | [_] => none
  | [a, b] =>
    match enc.padded, enc.value a, enc.value b with
    | false, some x, some y => some [firstByte x y]
    | _, _, _ => none
  | [a, b, c] =>
    match enc.padded, enc.value a, enc.value b, enc.value c with
    | false, some x, some y, some z => some [firstByte x y, secondByte y z]
    | _, _, _, _ => none
  | a :: b :: c :: d :: rest =>
    match enc.value a, enc.value b, enc.value c, enc.value d with
    | some x, some y, some z, some w =>
      (decodeGroups enc rest).map ([firstByte x y, secondByte y z, thirdByte z w] ++ ·)
    | some x, some y, some z, none =>
      if enc.padded ∧ d = 61 ∧ rest = [] then some [firstByte x y, secondByte y z] else none
    | some x, some y, none, none =>
      if enc.padded ∧ c = 61 ∧ d = 61 ∧ rest = [] then some [firstByte x y] else none
    | _, _, _, _ => none

/-- Whether a byte is not part of a line end. -/
def notLineEnd (c : UInt8) : Bool := c ≠ 10 && c ≠ 13

/-- `DecodeString`. -/
def decode (enc : Encoding) (s : GoString) : Option GoString :=
  enc.decodeGroups (s.filter notLineEnd)

/-! ### Decoding what was encoded -/

theorem value_char (enc : Encoding) {v : ℕ} (h : v < 64) :
  enc.value (enc.char v) = some v
  := by
  revert v
  cases enc with
  | std => decide
  | rawURL => decide

theorem value_pad (enc : Encoding) :
  enc.value 61 = none
  := by
  cases enc with
  | std => rfl
  | rawURL => rfl

theorem firstByte_eq (a b : UInt8) :
  firstByte (a.toNat / 4) (a.toNat % 4 * 16 + b.toNat / 16) = a
  := by
  have hb := b.toNat_lt
  have hsum : a.toNat / 4 * 4 + (a.toNat % 4 * 16 + b.toNat / 16) / 16 = a.toNat := by omega
  rw [firstByte, hsum, UInt8.ofNat_toNat]

theorem secondByte_eq (a b c : UInt8) :
  secondByte (a.toNat % 4 * 16 + b.toNat / 16) (b.toNat % 16 * 4 + c.toNat / 64) = b
  := by
  have hb := b.toNat_lt
  have hc := c.toNat_lt
  have hsum : (a.toNat % 4 * 16 + b.toNat / 16) % 16 * 16 + (b.toNat % 16 * 4 + c.toNat / 64) / 4
      = b.toNat := by omega
  rw [secondByte, hsum, UInt8.ofNat_toNat]

theorem thirdByte_eq (b c : UInt8) :
  thirdByte (b.toNat % 16 * 4 + c.toNat / 64) (c.toNat % 64) = c
  := by
  have hc := c.toNat_lt
  have hsum : (b.toNat % 16 * 4 + c.toNat / 64) % 4 * 64 + c.toNat % 64 = c.toNat := by omega
  rw [thirdByte, hsum, UInt8.ofNat_toNat]

/-- The numbers of the characters for three bytes. -/
theorem sextets_lt (a b c : UInt8) :
  a.toNat / 4 < 64 ∧ a.toNat % 4 * 16 + b.toNat / 16 < 64 ∧
    b.toNat % 16 * 4 + c.toNat / 64 < 64 ∧ c.toNat % 64 < 64
  := by
  have ha := a.toNat_lt
  have hb := b.toNat_lt
  have hc := c.toNat_lt
  omega

theorem decodeGroups_encode (enc : Encoding) (s : GoString) :
  enc.decodeGroups (enc.encode s) = some s
  := by
  induction s using encode.induct with
  | case1 => rfl
  | case2 a =>
    obtain ⟨ha, hlow, -, -⟩ := sextets_lt a 0 0
    have hfirst := firstByte_eq a 0
    rw [UInt8.toNat_zero, Nat.zero_div, Nat.add_zero] at hlow hfirst
    cases enc with
    | std => simp [encode, padding, padded, decodeGroups, value_char, value_pad, ha, hlow, hfirst]
    | rawURL => simp [encode, padding, padded, decodeGroups, value_char, ha, hlow, hfirst]
  | case3 a b =>
    obtain ⟨ha, hb, hlow, -⟩ := sextets_lt a b 0
    have hsecond := secondByte_eq a b 0
    rw [UInt8.toNat_zero, Nat.zero_div, Nat.add_zero] at hlow hsecond
    cases enc with
    | std =>
      simp [encode, padding, padded, decodeGroups, value_char, value_pad, ha, hb, hlow,
        firstByte_eq, hsecond]
    | rawURL =>
      simp [encode, padding, padded, decodeGroups, value_char, ha, hb, hlow, firstByte_eq, hsecond]
  | case4 a b c rest ih =>
    obtain ⟨ha, hb, hc, hd⟩ := sextets_lt a b c
    simp [encode, decodeGroups, value_char, ha, hb, hc, hd, firstByte_eq, secondByte_eq,
      thirdByte_eq, ih]

/-- What is encoded is made of the characters of the alphabet and of the padding. -/
theorem mem_encode (enc : Encoding) {s : GoString} {x : UInt8} (h : x ∈ enc.encode s) :
  (∃ v < 64, x = enc.char v) ∨ x = 61
  := by
  have hpad : ∀ n, x ∈ enc.padding n → x = 61 := by
    intro n hx
    rw [padding] at hx
    split at hx
    · apply List.eq_of_mem_replicate hx
    · cases hx
  induction s using encode.induct with
  | case1 => cases h
  | case2 a =>
    obtain ⟨ha, hlow, -, -⟩ := sextets_lt a 0 0
    simp only [encode, List.cons_append, List.mem_cons, List.nil_append] at h
    obtain rfl | rfl | hx := h
    · apply Or.inl ⟨_, ha, rfl⟩
    · apply Or.inl ⟨_, hlow, rfl⟩
    · apply Or.inr (hpad 2 hx)
  | case3 a b =>
    obtain ⟨ha, hb, hlow, -⟩ := sextets_lt a b 0
    simp only [encode, List.cons_append, List.mem_cons, List.nil_append] at h
    obtain rfl | rfl | rfl | hx := h
    · apply Or.inl ⟨_, ha, rfl⟩
    · apply Or.inl ⟨_, hb, rfl⟩
    · apply Or.inl ⟨_, hlow, rfl⟩
    · apply Or.inr (hpad 1 hx)
  | case4 a b c rest ih =>
    obtain ⟨ha, hb, hc, hd⟩ := sextets_lt a b c
    simp only [encode, List.mem_cons] at h
    obtain rfl | rfl | rfl | rfl | hx := h
    · apply Or.inl ⟨_, ha, rfl⟩
    · apply Or.inl ⟨_, hb, rfl⟩
    · apply Or.inl ⟨_, hc, rfl⟩
    · apply Or.inl ⟨_, hd, rfl⟩
    · apply ih hx

theorem char_ascii (enc : Encoding) {v : ℕ} (h : v < 64) :
  notLineEnd (enc.char v) = true ∧ enc.char v < 128
  := by
  revert v
  cases enc with
  | std => decide
  | rawURL => decide

/-- What is encoded is ASCII, without line ends. -/
theorem encode_ascii (enc : Encoding) {s : GoString} {x : UInt8} (h : x ∈ enc.encode s) :
  notLineEnd x = true ∧ x < 128
  := by
  obtain ⟨v, hv, rfl⟩ | rfl := mem_encode enc h
  · apply char_ascii enc hv
  · decide

/-- Decoding inverts encoding. -/
theorem decode_encode (enc : Encoding) (s : GoString) :
  enc.decode (enc.encode s) = some s
  := by
  rw [decode, List.filter_eq_self.mpr (fun x hx => (encode_ascii enc hx).1),
    decodeGroups_encode]

end Encoding

end Base64
