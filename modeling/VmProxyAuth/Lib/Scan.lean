import Mathlib

/-!
# Scanners

A scanner takes a value off the front of a text and leaves the rest, or fails.  `Reads p F text a`
says that `p` takes `a` off `text` whatever follows, provided that what follows satisfies `F`: a
word ends only where no letter follows.  Scanners in sequence read texts in sequence
(`Reads.bind`), and a scanner of items behind a separator reads their texts one after the other
(`reads_items`).
-/

/-- A scanner of texts over an alphabet. -/
abbrev Scan (β α : Type) : Type := StateT (List β) Option α

namespace Scan

variable {β α γ : Type}

/-- Takes off a given text. -/
def literal [DecidableEq β] (text : List β) : Scan β Unit := fun s =>
  if text <+: s then some ((), s.drop text.length) else none

/-- Takes off all letters, of which there is at least one. -/
def word (letter : β → Bool) : Scan β (List β) := fun s =>
  if s.takeWhile letter = [] then none else some (s.takeWhile letter, s.dropWhile letter)

/-- Takes off a value if it has a property. -/
def guarded (p : α → Bool) (item : Scan β α) : Scan β α := do
  let a ← item
  if p a then pure a else failure

/-- One scanner if the text begins with a given one, and another one if not. -/
def branch [DecidableEq β] (text : List β) (yes no : Scan β α) : Scan β α := fun s =>
  if text <+: s then yes (s.drop text.length) else no s

/-- Takes off items as long as the separator comes before them, up to a number of times. -/
def itemsUpTo [DecidableEq β] (separator : List β) (item : Scan β α) : ℕ → Scan β (List α)
  | 0 => pure []
  | n + 1 => branch separator
      (do
        let a ← item
        let as ← itemsUpTo separator item n
        pure (a :: as))
      (pure [])

/-- Takes off items as long as the separator comes before them. -/
def items [DecidableEq β] (separator : List β) (item : Scan β α) : Scan β (List α) := fun s =>
  itemsUpTo separator item s.length s

/-- Takes off a list of items with the separator between them, which may be empty if the text that
ends it follows at once. -/
def list [DecidableEq β] (separator stop : List β) (item : Scan β α) : Scan β (List α) :=
  branch stop (pure []) (do
    let a ← item
    let as ← items separator item
    literal stop
    pure (a :: as))

/-! ### What a scanner reads -/

/-- A scanner takes a value off a text whatever follows it, provided that this satisfies `F`. -/
def Reads (p : Scan β α) (F : List β → Prop) (text : List β) (a : α) : Prop :=
  ∀ rest, F rest → p (text ++ rest) = some (a, rest)

variable {F G : List β → Prop} {s t : List β}

theorem Reads.mono {p : Scan β α} {a : α} (h : Reads p F s a) (hFG : ∀ rest, G rest → F rest) :
  Reads p G s a
  := by
  intro rest hrest
  apply h rest (hFG rest hrest)

theorem reads_pure (a : α) :
  Reads (pure a) F [] a
  := by
  intro rest _
  rfl

/-- One scanner after another. -/
theorem Reads.bind {p : Scan β α} {f : α → Scan β γ} {a : α} {b : γ} (hp : Reads p F s a)
    (hf : Reads (f a) G t b) (hfollows : ∀ rest, G rest → F (t ++ rest)) :
  Reads (p >>= f) G (s ++ t) b
  := by
  intro rest hrest
  have hbind : (p >>= f) (s ++ t ++ rest) = (p (s ++ t ++ rest)).bind (fun r => f r.1 r.2) := rfl
  rw [hbind, List.append_assoc, hp _ (hfollows rest hrest), Option.bind_some, hf rest hrest]

theorem Reads.map {p : Scan β α} {f : α → γ} {a : α} (hp : Reads p F s a) :
  Reads (do let a ← p; pure (f a)) F s (f a)
  := by
  have h := hp.bind (f := fun a => pure (f a)) (G := F) (reads_pure (f a)) (fun _ => id)
  rwa [List.append_nil] at h

theorem Reads.guarded {p : α → Bool} {item : Scan β α} {a : α} (h : Reads item F s a)
    (ha : p a = true) :
  Reads (Scan.guarded p item) F s a
  := by
  have hpure : Reads (if p a then pure a else failure) F [] a := by
    rw [if_pos ha]
    apply reads_pure
  have hbind := h.bind (f := fun a => if p a then pure a else failure) hpure (fun _ => id)
  rwa [List.append_nil] at hbind

/-- What follows a word does not begin with a letter. -/
def Ends (letter : β → Bool) (rest : List β) : Prop := ∀ b ∈ rest.head?, letter b = false

section

variable {letter : β → Bool} {rest : List β}

theorem takeWhile_append_of_ends (hall : ∀ b ∈ s, letter b = true) (hrest : Ends letter rest) :
  (s ++ rest).takeWhile letter = s
  := by
  have hnil : rest.takeWhile letter = [] := by
    cases rest with
    | nil => rfl
    | cons b rest =>
      rw [List.takeWhile_cons, hrest b rfl]
      rfl
  rw [List.takeWhile_append_of_pos hall, hnil, List.append_nil]

theorem dropWhile_append_of_ends (hall : ∀ b ∈ s, letter b = true) (hrest : Ends letter rest) :
  (s ++ rest).dropWhile letter = rest
  := by
  rw [List.dropWhile_append_of_pos hall]
  cases rest with
  | nil => rfl
  | cons b rest =>
    rw [List.dropWhile_cons, hrest b rfl]
    rfl

theorem reads_word (hne : s ≠ []) (hall : ∀ b ∈ s, letter b = true) :
  Reads (word letter) (Ends letter) s s
  := by
  intro rest hrest
  rw [word, takeWhile_append_of_ends hall hrest, if_neg hne, dropWhile_append_of_ends hall hrest]

/-- A text that begins with one word does not begin with another one. -/
theorem not_prefix_of_word_ne {other text : List β} {b : β} (hother : ∀ b ∈ other, letter b = true)
    (hb : letter b = false) (hall : ∀ b ∈ s, letter b = true) (hrest : Ends letter rest)
    (hne : other ≠ s) :
  ¬ other ++ b :: text <+: s ++ rest
  := by
  rintro ⟨tail, heq⟩
  have hends : Ends letter (b :: text ++ tail) := by
    rintro _ ⟨⟩
    apply hb
  apply hne
  rw [← takeWhile_append_of_ends hall hrest, ← heq, List.append_assoc,
    takeWhile_append_of_ends hother hends]

end

/-- The texts of items, each behind the separator. -/
def itemsText (separator : List β) (write : α → List β) (as : List α) : List β :=
  as.flatMap (fun a => separator ++ write a)

theorem itemsText_cons (separator : List β) (write : α → List β) (a : α) (as : List α) :
  itemsText separator write (a :: as)
    = separator ++ (write a ++ itemsText separator write as)
  := by
  rw [itemsText, List.flatMap_cons, List.append_assoc]
  rfl

theorem itemsText_append (separator : List β) (write : α → List β) (as bs : List α) :
  itemsText separator write (as ++ bs)
    = itemsText separator write as ++ itemsText separator write bs
  := List.flatMap_append

/-- Items with a separator between them. -/
theorem intercalate_map_cons (separator : List β) (write : α → List β) (a : α) (as : List α) :
  separator.intercalate ((a :: as).map write) = write a ++ itemsText separator write as
  := by
  induction as generalizing a with
  | nil => simp [itemsText]
  | cons b as ih =>
    rw [itemsText_cons, ← ih b]
    simp [List.intercalate]

/-- After an item the next one follows, or what may follow all of them. -/
def Next (separator : List β) (F : List β → Prop) (rest : List β) : Prop :=
  separator <+: rest ∨ F rest

theorem next_itemsText {separator : List β} (write : α → List β) (as : List α) {rest : List β}
    (hrest : F rest) :
  Next separator F (itemsText separator write as ++ rest)
  := by
  cases as with
  | nil => apply Or.inr hrest
  | cons a as =>
    left
    rw [itemsText_cons, List.append_assoc]
    apply List.prefix_append

theorem length_le_itemsText {separator : List β} (hne : separator ≠ []) (write : α → List β)
    (as : List α) :
  as.length ≤ (itemsText separator write as).length
  := by
  induction as with
  | nil => apply Nat.zero_le
  | cons a as ih =>
    have hpos := List.length_pos_iff.mpr hne
    rw [itemsText_cons, List.length_append, List.length_append, List.length_cons]
    omega

theorem not_prefix_of_head? {text : List β} (hne : text ≠ []) (h : text.head? ≠ s.head?) :
  ¬ text <+: s
  := by
  rintro ⟨rest, rfl⟩
  cases text with
  | nil => apply hne rfl
  | cons b text => apply h rfl

section

variable [DecidableEq β]

theorem reads_literal (text : List β) :
  Reads (literal text) (fun _ => True) text ()
  := by
  intro rest _
  rw [literal, if_pos (List.prefix_append text rest), List.drop_left]

/-- The text a branch depends on, and what the first scanner reads. -/
theorem Reads.branch_yes {yes no : Scan β α} {a : α} (text : List β) (h : Reads yes F s a) :
  Reads (branch text yes no) F (text ++ s) a
  := by
  intro rest hrest
  rw [branch, List.append_assoc, if_pos (List.prefix_append _ _), List.drop_left, h rest hrest]

/-- What the second scanner reads, if it does not begin with the text a branch depends on. -/
theorem Reads.branch_no {yes no : Scan β α} {a : α} {text : List β} (h : Reads no F s a)
    (hnot : ∀ rest, F rest → ¬ text <+: s ++ rest) :
  Reads (branch text yes no) F s a
  := by
  intro rest hrest
  rw [branch, if_neg (hnot rest hrest), h rest hrest]

theorem reads_itemsUpTo {separator : List β} {item : Scan β γ} {write : α → List β} {g : α → γ}
    (hstop : ∀ rest, F rest → ¬ separator <+: rest) (as : List α)
    (h : ∀ a ∈ as, Reads item (Next separator F) (write a) (g a)) {n : ℕ} (hn : as.length ≤ n) :
  Reads (itemsUpTo separator item n) F (itemsText separator write as) (as.map g)
  := by
  induction as generalizing n with
  | nil =>
    cases n with
    | zero => apply reads_pure
    | succ n => apply (reads_pure []).branch_no hstop
  | cons a as ih =>
    rw [List.forall_mem_cons] at h
    cases n with
    | zero => cases hn
    | succ n =>
      have hrest := ih h.2 (Nat.le_of_succ_le_succ hn)
      rw [itemsText_cons]
      apply Reads.branch_yes
      apply h.1.bind hrest.map
      intro rest hF
      apply next_itemsText write as hF

/-- Items behind a separator are read from their texts, if what follows all of them does not begin
with the separator. -/
theorem reads_items {separator : List β} {item : Scan β γ} {write : α → List β} {g : α → γ}
    (hne : separator ≠ []) (hstop : ∀ rest, F rest → ¬ separator <+: rest) (as : List α)
    (h : ∀ a ∈ as, Reads item (Next separator F) (write a) (g a)) :
  Reads (items separator item) F (itemsText separator write as) (as.map g)
  := by
  intro rest hrest
  apply reads_itemsUpTo hstop as h _ rest hrest
  rw [List.length_append]
  apply (length_le_itemsText hne write as).trans (Nat.le_add_right _ _)

/-- A list of items is read from their texts with the separator between them. -/
theorem reads_list {separator stop : List β} {item : Scan β α} {write : α → List β}
    (hne : separator ≠ []) (hstop : ∀ rest, ¬ separator <+: stop ++ rest) (as : List α)
    (h : ∀ a ∈ as, Reads item (Next separator (stop <+: ·)) (write a) a)
    (hfirst : ∀ a ∈ as, ∀ rest, ¬ stop <+: write a ++ rest) :
  Reads (list separator stop item) F (separator.intercalate (as.map write) ++ stop) as
  := by
  cases as with
  | nil =>
    have hread : Reads (list separator stop item) F (stop ++ []) [] :=
      (reads_pure ([] : List α)).branch_yes stop
    rwa [List.append_nil] at hread
  | cons a as =>
    rw [List.forall_mem_cons] at h hfirst
    have hitems : Reads (items separator item) (stop <+: ·) (itemsText separator write as) as := by
      have hread := reads_items (g := id) hne (F := (stop <+: ·)) (by
        rintro _ ⟨rest, rfl⟩
        apply hstop) as h.2
      rwa [List.map_id] at hread
    have hlast : Reads (do literal stop; pure (a :: as)) F (stop ++ []) (a :: as) :=
      (reads_literal stop).bind (f := fun _ => pure (a :: as)) (reads_pure _) (fun _ _ => trivial)
    rw [List.append_nil] at hlast
    have hstops : ∀ rest, F rest → stop <+: stop ++ rest :=
      fun rest _ => List.prefix_append stop rest
    have htail := hitems.bind
      (f := fun as => do
        literal stop
        pure (a :: as)) hlast hstops
    have hread := h.1.bind
      (f := fun a => do
        let as ← items separator item
        literal stop
        pure (a :: as)) htail (by
          intro rest hrest
          rw [List.append_assoc]
          apply next_itemsText write as (hstops rest hrest))
    rw [← List.append_assoc] at hread
    rw [intercalate_map_cons]
    apply hread.branch_no
    intro rest _
    rw [List.append_assoc, List.append_assoc]
    apply hfirst.1

end

end Scan
