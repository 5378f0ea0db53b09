import VmProxyAuth.Lib.Utf8

/-!
# Strings as runes

A string of bytes cut into runes that keep their bytes: a byte that does not begin a character is
a rune of its own, with the replacement character.  No byte is lost (`encode_decode`), and a string
is cut before every byte of ASCII (`decode_append`), whatever the bytes before it are.
-/

namespace Utf8

/-- A character with the bytes that it was read from. -/
structure Rune where
  char : Char
  bytes : GoString
deriving DecidableEq

/-- The rune of a byte of ASCII. -/
def Rune.ascii (b : UInt8) : Rune := ⟨Char.ofNat b.toNat, [b]⟩

/-- The runes of a string without its first `n` bytes. -/
def decodeFrom : ℕ → GoString → List Rune
  | _, [] => []
  | n + 1, _ :: s => decodeFrom n s
  | 0, b :: s =>
    match decodeRune (b :: s) with
    | some c => ⟨c, (b :: s).take c.utf8Size⟩ :: decodeFrom (c.utf8Size - 1) s
    | none => ⟨replacement, [b]⟩ :: decodeFrom 0 s

/-- The runes of a string. -/
def decode (s : GoString) : List Rune := decodeFrom 0 s

/-- The bytes of runes. -/
def encode (x : List Rune) : GoString := x.flatMap Rune.bytes

@[simp]
theorem encode_append (x y : List Rune) :
  encode (x ++ y) = encode x ++ encode y
  := List.flatMap_append

theorem decodeFrom_eq (n : ℕ) (s : GoString) :
  decodeFrom n s = decode (s.drop n)
  := by
  induction n generalizing s with
  | zero => rfl
  | succ n ih =>
    cases s with
    | nil => rfl
    | cons b s => apply ih s

theorem decode_encodeChar_append (c : Char) (s : GoString) :
  decode (String.utf8EncodeChar c ++ s) = ⟨c, String.utf8EncodeChar c⟩ :: decode s
  := by
  have hsize := String.length_utf8EncodeChar c
  have hpos := c.utf8Size_pos
  obtain ⟨b, bs, hbytes⟩ : ∃ b bs, String.utf8EncodeChar c = b :: bs := by
    apply List.exists_cons_of_length_pos
    omega
  have hrune := decodeRune_append c s
  rw [hbytes, List.length_cons] at hsize
  rw [hbytes, List.cons_append] at hrune ⊢
  simp only [decode, decodeFrom, hrune]
  rw [decodeFrom_eq, ← hsize, Nat.add_sub_cancel, List.drop_left, List.take_succ_cons,
    List.take_left]
  rfl

theorem decode_cons_of_none {b : UInt8} {s : GoString} (h : decodeRune (b :: s) = none) :
  decode (b :: s) = ⟨replacement, [b]⟩ :: decode s
  := by
  simp only [decode, decodeFrom, h]

/-- A string is empty, begins with a character, or begins with a byte that begins none. -/
theorem decode_cases (s : GoString) :
  s = [] ∨ (∃ c rest, s = String.utf8EncodeChar c ++ rest) ∨
    ∃ b rest, s = b :: rest ∧ decodeRune (b :: rest) = none
  := by
  cases s with
  | nil =>
    left
    rfl
  | cons b rest =>
    right
    cases h : decodeRune (b :: rest) with
    | some c =>
      left
      exact ⟨c, _, (append_of_decodeRune h).symm⟩
    | none =>
      right
      exact ⟨b, rest, rfl, h⟩

/-- What holds of the empty string, and of a string if it holds behind its first rune, holds of
every string. -/
theorem decode_induction {P : GoString → Prop} (nil : P [])
    (char : ∀ c s, P s → P (String.utf8EncodeChar c ++ s))
    (invalid : ∀ b s, decodeRune (b :: s) = none → P s → P (b :: s)) (s : GoString) :
  P s
  := by
  induction hn : s.length using Nat.strong_induction_on generalizing s with
  | _ n ih =>
    subst hn
    obtain rfl | ⟨c, rest, rfl⟩ | ⟨b, rest, rfl, h⟩ := decode_cases s
    · apply nil
    · have hpos := c.utf8Size_pos
      apply char
      apply ih rest.length _ rest rfl
      rw [List.length_append, String.length_utf8EncodeChar]
      omega
    · apply invalid b rest h
      apply ih rest.length _ rest rfl
      rw [List.length_cons]
      omega

theorem encode_decode (s : GoString) :
  encode (decode s) = s
  := by
  induction s using decode_induction with
  | nil => rfl
  | char c s ih =>
    rw [decode_encodeChar_append, encode, List.flatMap_cons]
    apply congrArg _ ih
  | invalid b s h ih =>
    rw [decode_cons_of_none h, encode, List.flatMap_cons]
    apply congrArg _ ih

/-- A byte that begins no character begins none when the string is cut before a byte of ASCII. -/
theorem decodeRune_append_ascii {b : UInt8} {s : GoString} (h : decodeRune (b :: s) = none)
    {a : UInt8} (ha : a < 128) (t : GoString) :
  decodeRune (b :: (s ++ a :: t)) = none
  := by
  cases hsome : decodeRune (b :: (s ++ a :: t)) with
  | none => rfl
  | some c =>
    exfalso
    have heq := append_of_decodeRune hsome
    rw [← List.cons_append] at heq
    obtain ⟨u, hu, -⟩ | ⟨u, hu, hrest⟩ := List.append_eq_append_iff.mp heq
    · -- the character ends before the cut
      rw [hu, decodeRune_append] at h
      cases h
    · cases u with
      | nil =>
        rw [List.append_nil] at hu
        rw [← hu, ← List.append_nil (String.utf8EncodeChar c), decodeRune_append] at h
        cases h
      | cons a' u =>
        obtain ⟨rfl, -⟩ := List.cons.inj hrest
        obtain ⟨-, hbyte⟩ | hbytes := utf8EncodeChar_cases c
        · rw [hbyte] at hu
          simp at hu
        · have hhigh := hbytes a (by rw [hu]; simp)
          exact absurd ha (UInt8.not_lt.mpr hhigh)

/-- A string is cut into runes before a byte of ASCII. -/
theorem decode_append {a : UInt8} (ha : a < 128) (s t : GoString) :
  decode (s ++ a :: t) = decode s ++ decode (a :: t)
  := by
  induction s using decode_induction with
  | nil => rfl
  | char c s ih =>
    rw [List.append_assoc, decode_encodeChar_append, decode_encodeChar_append, ih,
      List.cons_append]
  | invalid b s h ih =>
    rw [List.cons_append, decode_cons_of_none (decodeRune_append_ascii h ha t),
      decode_cons_of_none h, ih, List.cons_append]

theorem decode_cons_ascii {a : UInt8} (ha : a < 128) (s : GoString) :
  decode (a :: s) = .ascii a :: decode s
  := by
  have h := decode_encodeChar_append (Char.ofNat a.toNat) s
  rw [utf8EncodeChar_ascii a ha] at h
  apply h

/-- ASCII is cut into its bytes, whatever follows it. -/
theorem decode_ascii_append {x : GoString} (hx : ∀ a ∈ x, a < 128) (s : GoString) :
  decode (x ++ s) = x.map .ascii ++ decode s
  := by
  induction x with
  | nil => rfl
  | cons a x ih =>
    obtain ⟨ha, hx⟩ := List.forall_mem_cons.mp hx
    rw [List.cons_append, decode_cons_ascii ha, ih hx, List.map_cons, List.cons_append]

/-- A rune with a character of ASCII is a byte of the string. -/
theorem eq_ascii_of_mem_decode {s : GoString} {r : Rune} (hr : r ∈ decode s)
    (h : r.char.toNat < 0x80) :
  ∃ a ∈ s, a < 128 ∧ r = .ascii a
  := by
  induction s using decode_induction with
  | nil => cases hr
  | char c s ih =>
    rw [decode_encodeChar_append] at hr
    obtain rfl | hr := List.mem_cons.mp hr
    · have hbytes := utf8EncodeChar_of_lt h
      have hnat : (UInt8.ofNat c.toNat).toNat = c.toNat :=
        UInt8.toNat_ofNat_of_lt' (lt_trans h (by decide))
      refine ⟨UInt8.ofNat c.toNat, ?_, ?_, ?_⟩
      · rw [hbytes]
        simp
      · rw [UInt8.lt_iff_toNat_lt, hnat]
        apply h
      · rw [Rune.ascii, hnat, Char.ofNat_toNat, hbytes]
    · obtain ⟨a, ha, hlt, rfl⟩ := ih hr
      exact ⟨a, List.mem_append_right _ ha, hlt, rfl⟩
  | invalid b s hnone ih =>
    rw [decode_cons_of_none hnone] at hr
    obtain rfl | hr := List.mem_cons.mp hr
    · exact absurd h (show ¬ replacement.toNat < 0x80 by decide)
    · obtain ⟨a, ha, hlt, rfl⟩ := ih hr
      exact ⟨a, List.mem_cons_of_mem _ ha, hlt, rfl⟩

/-- What holds of the characters beyond ASCII and of the bytes of ASCII in a string holds of the
characters of its runes. -/
theorem forall_mem_decode {q : Char → Prop} {s : GoString} (hhigh : ∀ c, 0x80 ≤ c.toNat → q c)
    (hlow : ∀ a ∈ s, a < 128 → q (Rune.ascii a).char) :
  ∀ r ∈ decode s, q r.char
  := by
  intro r hr
  obtain h | h := lt_or_ge r.char.toNat 0x80
  · obtain ⟨a, ha, hlt, rfl⟩ := eq_ascii_of_mem_decode hr h
    apply hlow a ha hlt
  · apply hhigh r.char h

theorem toNat_ascii : ∀ a : UInt8, a < 128 → (Rune.ascii a).char.toNat = a.toNat
  := by
  decide +kernel

/-- A byte of ASCII that a string does not have is not among its characters. -/
theorem toNat_ne_of_not_mem {a : UInt8} (ha : a < 128) {s : GoString} (hs : a ∉ s) :
  ∀ r ∈ decode s, r.char.toNat ≠ a.toNat
  := by
  apply forall_mem_decode (q := fun c => c.toNat ≠ a.toNat)
  · intro c hc
    have hlt := UInt8.lt_iff_toNat_lt.mp ha
    rw [show (128 : UInt8).toNat = 0x80 from rfl] at hlt
    omega
  · intro b hb hlt heq
    rw [toNat_ascii b hlt, UInt8.toNat_inj] at heq
    rw [heq] at hb
    apply hs hb

theorem encode_map_ascii (x : GoString) :
  encode (x.map .ascii) = x
  := by
  rw [encode, List.flatMap_map]
  simp [Rune.ascii]

end Utf8
