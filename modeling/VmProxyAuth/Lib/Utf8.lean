import VmProxyAuth.Lib.GoString

/-!
# Text in UTF-8

A Go string need not be text.  `toText` reads one as text, as a loop over its runes does: a byte
that does not begin a character is read as the replacement character.  Text is read as it is
(`toText_str`), and the strings that are text are those that can be read back (`valid_iff`).
-/

namespace Utf8

/-- `utf8.DecodeRuneInString(s)`: the character a string begins with, if it does. -/
def decodeRune (s : GoString) : Option Char := s.toByteArray.utf8DecodeChar? 0

/-- The character that stands for a byte that does not begin a character. -/
def replacement : Char := '�'

/-- A loop over the runes of a string, of at most the given number of rounds. -/
def runes : ℕ → GoString → List Char
  | 0, _ => []
  | _ + 1, [] => []
  | n + 1, b :: rest =>
    match decodeRune (b :: rest) with
    | some c => c :: runes n ((b :: rest).drop c.utf8Size)
    | none => replacement :: runes n rest

/-- A string read as text. -/
def toText (s : GoString) : String := String.ofList (runes s.length s)

/-- A string is text. -/
def Valid (s : GoString) : Prop := ∃ t, str t = s

theorem decodeRune_append (c : Char) (rest : GoString) :
  decodeRune (String.utf8EncodeChar c ++ rest) = some c
  := by
  rw [decodeRune, List.toByteArray_append]
  apply ByteArray.utf8DecodeChar?_utf8EncodeChar_append

/-- A string that begins with a character begins with the bytes of that character. -/
theorem append_of_decodeRune {s : GoString} {c : Char} (h : decodeRune s = some c) :
  String.utf8EncodeChar c ++ s.drop c.utf8Size = s
  := by
  have hsome : (s.toByteArray.utf8DecodeChar? 0).isSome := Option.isSome_of_eq_some h
  have hc : s.toByteArray.utf8DecodeChar 0 hsome = c := Option.get_of_eq_some hsome h
  have hbytes := ByteArray.utf8EncodeChar_utf8DecodeChar (h := hsome)
  rw [hc] at hbytes
  have htake : String.utf8EncodeChar c = s.take c.utf8Size := by
    simpa using congrArg (fun b => b.data.toList) hbytes
  rw [htake, List.take_append_drop]

/-- A character takes at least one byte off. -/
theorem length_drop_utf8Size_le (c : Char) {b : UInt8} {rest : GoString} {n : ℕ}
    (h : rest.length ≤ n) :
  ((b :: rest).drop c.utf8Size).length ≤ n
  := by
  have hpos := c.utf8Size_pos
  rw [List.length_drop, List.length_cons]
  omega

/-- A character of ASCII is one byte. -/
theorem utf8EncodeChar_of_lt {c : Char} (h : c.toNat < 0x80) :
  String.utf8EncodeChar c = [UInt8.ofNat c.toNat]
  := by
  rw [String.utf8EncodeChar]
  apply if_pos (Nat.le_of_lt_succ h)

/-- A character is one byte of ASCII, or bytes beyond ASCII. -/
theorem utf8EncodeChar_cases (c : Char) :
  (c.toNat < 0x80 ∧ String.utf8EncodeChar c = [UInt8.ofNat c.toNat]) ∨
    ∀ b ∈ String.utf8EncodeChar c, 0x80 ≤ b
  := by
  have hhigh : ∀ n < 0x100, 0x80 ≤ n → 0x80 ≤ UInt8.ofNat n := by decide +kernel
  rw [String.utf8EncodeChar]
  split_ifs with h₁ h₂ h₃
  · left
    exact ⟨Nat.lt_succ_of_le h₁, rfl⟩
  · right
    simp only [List.forall_mem_cons]
    exact ⟨hhigh _ (by omega) (by omega), hhigh _ (by omega) (by omega), List.forall_mem_nil _⟩
  · right
    simp only [List.forall_mem_cons]
    exact ⟨hhigh _ (by omega) (by omega), hhigh _ (by omega) (by omega),
      hhigh _ (by omega) (by omega), List.forall_mem_nil _⟩
  · right
    simp only [List.forall_mem_cons]
    exact ⟨hhigh _ (by omega) (by omega), hhigh _ (by omega) (by omega),
      hhigh _ (by omega) (by omega), hhigh _ (by omega) (by omega), List.forall_mem_nil _⟩

/-- The runes of text are its characters. -/
theorem runes_flatMap (cs : List Char) (n : ℕ)
    (h : (cs.flatMap String.utf8EncodeChar).length ≤ n) :
  runes n (cs.flatMap String.utf8EncodeChar) = cs
  := by
  induction cs generalizing n with
  | nil =>
    cases n with
    | zero => rfl
    | succ n => rfl
  | cons c cs ih =>
    have hsize := String.length_utf8EncodeChar c
    have hpos := c.utf8Size_pos
    rw [List.flatMap_cons, List.length_append] at h
    obtain ⟨n, rfl⟩ : ∃ m, n = m + 1 := ⟨n - 1, by omega⟩
    obtain ⟨b, bs, hbytes⟩ : ∃ b bs, String.utf8EncodeChar c = b :: bs := by
      apply List.exists_cons_of_length_pos
      omega
    have hrune := decodeRune_append c (cs.flatMap String.utf8EncodeChar)
    rw [List.flatMap_cons]
    rw [hbytes, List.cons_append] at hrune ⊢
    simp only [runes, hrune]
    rw [← List.cons_append, ← hbytes, ← hsize, List.drop_left, ih]
    omega

/-- Text is read as it is. -/
theorem toText_str (t : String) :
  toText (str t) = t
  := by
  rw [toText, str, runes_flatMap t.toList _ le_rfl, String.ofList_toList]

/-- A string is text exactly if it can be read back. -/
theorem valid_iff {s : GoString} :
  Valid s ↔ str (toText s) = s
  := by
  constructor
  · rintro ⟨t, rfl⟩
    rw [toText_str]
  · intro h
    use toText s

instance (s : GoString) : Decidable (Valid s) := decidable_of_iff _ valid_iff.symm

theorem str_injective :
  Function.Injective str
  := Function.LeftInverse.injective toText_str

theorem utf8EncodeChar_ascii : ∀ b : UInt8, b < 128 →
  String.utf8EncodeChar (Char.ofNat b.toNat) = [b]
  := by
  decide +kernel

/-- ASCII is text. -/
theorem valid_of_ascii {s : GoString} (h : ∀ b ∈ s, b < 128) :
  Valid s
  := by
  use String.ofList (s.map (fun b => Char.ofNat b.toNat))
  rw [str, String.toList_ofList]
  induction s with
  | nil => rfl
  | cons b s ih =>
    obtain ⟨hb, hs⟩ := List.forall_mem_cons.mp h
    rw [List.map_cons, List.flatMap_cons, utf8EncodeChar_ascii b hb, ih hs, List.singleton_append]

/-- A loop over the runes of a string comes to every byte that is ASCII. -/
theorem mem_runes_of_ascii {b : UInt8} (hascii : b < 128) {s : GoString} (hb : b ∈ s) {n : ℕ}
    (h : s.length ≤ n) :
  Char.ofNat b.toNat ∈ runes n s
  := by
  induction n generalizing s with
  | zero =>
    rw [List.length_eq_zero_iff.mp (Nat.le_zero.mp h)] at hb
    cases hb
  | succ n ih =>
    cases s with
    | nil => cases hb
    | cons b' rest =>
      rw [List.length_cons, Nat.add_le_add_iff_right] at h
      rw [runes]
      split
      · rename_i c hc
        rw [← append_of_decodeRune hc, List.mem_append] at hb
        obtain hfirst | hrest := hb
        · obtain ⟨hlt, hbytes⟩ | hbytes := utf8EncodeChar_cases c
          · rw [hbytes, List.mem_singleton] at hfirst
            have hnat : b.toNat = c.toNat := by
              rw [hfirst, UInt8.toNat_ofNat_of_lt' (hlt.trans (by decide))]
            rw [hnat, Char.ofNat_toNat]
            apply List.mem_cons_self
          · have hhigh := hbytes b hfirst
            exact absurd hascii (UInt8.not_lt.mpr hhigh)
        · apply List.mem_cons_of_mem _ (ih hrest (length_drop_utf8Size_le c h))
      · rename_i hnone
        obtain rfl | hrest := List.mem_cons.mp hb
        · have hdecode := decodeRune_append (Char.ofNat b.toNat) rest
          rw [utf8EncodeChar_ascii b hascii, List.singleton_append, hnone] at hdecode
          cases hdecode
        · apply List.mem_cons_of_mem _ (ih hrest h)

end Utf8
