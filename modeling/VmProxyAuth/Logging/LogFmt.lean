import VmProxyAuth.Lib.ExchangeSort
import VmProxyAuth.Lib.GoMap
import VmProxyAuth.Lib.GoQuote

/-!
# The logfmt formatter

A log entry is written as one line of pairs `key=value`: its level, its time and its message, and
then the fields of its data in the order of their keys.  A value that is empty or has a space, an
equals sign, a quote, a tab or a line break in it is quoted.  The line is read back pair by pair,
where a value that begins with a quote goes up to the closing quote, and any other value up to the
next space.  For keys that are words this gives the fields of the entry, whatever their values are
(`readLine_format`).
-/

namespace VmProxyAuth

namespace Logging

abbrev space : UInt8 := 0x20
abbrev equals : UInt8 := 0x3d

/-! ### The formatter -/

/-- A value of a field: none, a string, or a value of another type. -/
inductive Value (V : Type) where
  | nil
  | string (s : GoString)
  | other (v : V)

/-- A log entry, with levels `L`, times `T` and values `V`. -/
structure Entry (L T V : Type) where
  level : L
  time : T
  message : GoString
  data : GoMap GoString (Value V)

/-- What the libraries print: levels, times in UTC by a layout, values with `%v`, and which
characters beyond Latin-1 are printed as they are in a quoted string. -/
structure Printer (L T V : Type) where
  level : L → GoString
  time : T → GoString → GoString
  value : V → GoString
  table : Char → Bool

/-- `LogFmtFormatter`. -/
structure LogFmtFormatter where
  timestampFormat : GoString

/-- `NewLogFmtFormatter`. -/
def newLogFmtFormatter : LogFmtFormatter := ⟨str "2006-01-02T15:04:05.000Z"⟩

/-- `needsQuoting`. -/
def needsQuoting (s : GoString) : Bool :=
  if s = [] then true
  else
    (Utf8.runes s.length s).any (fun r =>
      r.toNat == 0x20 || r.toNat == 0x3d || r.toNat == 0x22 || r.toNat == 0x09 ||
        r.toNat == 0x0a || r.toNat == 0x0d)

section

variable {L T V : Type} (P : Printer L T V)

/-- `fmt.Sprintf("%v", value)`. -/
def Printer.sprintf : Value V → GoString
  | .nil => str "<nil>"
  | .string s => s
  | .other v => P.value v

/-- `formatValue`. -/
def formatValue (value : Value V) : GoString :=
  match value with
  | .nil => str "<nil>"
  | value =>
    if needsQuoting (P.sprintf value) then GoQuote.quote P.table (P.sprintf value)
    else P.sprintf value

/-- `appendKeyValue`. -/
def appendKeyValue (b : GoString) (key : GoString) (value : Value V) : GoString :=
  (if b.length > 0 then b ++ [space] else b) ++ key ++ [equals] ++ formatValue P value

/-- `Format`, for an order in which `range` goes over the data. -/
def LogFmtFormatter.format (f : LogFmtFormatter) (order : List GoString) (entry : Entry L T V) :
    GoString :=
  let b := appendKeyValue P [] (str "level") (.string (P.level entry.level))
  let b := appendKeyValue P b (str "time") (.string (P.time entry.time f.timestampFormat))
  let b := appendKeyValue P b (str "msg") (.string entry.message)
  let keys := ExchangeSort.exchangeSort order
  let b := keys.foldl (fun b key =>
    appendKeyValue P b key ((entry.data.lookup key).getD .nil)) b
  b ++ [GoQuote.newline]

end

/-! ### Reading a line -/

section

variable (unquote : GoString → Option GoString)

/-- The value that a string begins with, and the rest. -/
def readValue (s : GoString) : Option (GoString × GoString) :=
  if s.head? = some GoQuote.doubleQuote then
    (GoQuote.cut s).bind (fun r => (unquote r.1).map (fun value => (value, r.2)))
  else some (GoString.before space s, s.drop (GoString.before space s).length)

/-- The pair that a string begins with, and the rest. -/
def readPair (s : GoString) : Option ((GoString × GoString) × GoString) :=
  let key := GoString.before equals s
  if equals ∈ s ∧ key ≠ [] ∧ space ∉ key then
    (readValue unquote (GoString.after equals s)).map (fun r => ((key, r.1), r.2))
  else none

/-- Pairs with single spaces between them, in at most the given number of rounds. -/
def readPairs : ℕ → GoString → Option (List (GoString × GoString))
  | 0, _ => none
  | n + 1, s =>
    (readPair unquote s).bind (fun r =>
      match r.2 with
      | [] => some [r.1]
      | b :: rest => if b = space then (readPairs n rest).map (fun l => r.1 :: l) else none)

/-- The pairs of a line. -/
def readLine (line : GoString) : Option (List (GoString × GoString)) :=
  readPairs unquote line.length line

end

/-- A key that is not empty and has no spaces, equals signs, quotes or control characters in
it. -/
def ValidKey (k : GoString) : Prop :=
  k ≠ [] ∧
    ∀ b ∈ k, b ≠ space ∧ b ≠ equals ∧ b ≠ GoQuote.doubleQuote ∧ ¬ (b < 0x20 ∨ b = 0x7f)

instance (k : GoString) : Decidable (ValidKey k) := inferInstanceAs (Decidable (_ ∧ ∀ b ∈ k, _))

/-! ### Values -/

section

variable {L T V : Type} (P : Printer L T V)

/-- A value that is not quoted is not empty, and has none of the bytes that end it. -/
theorem ne_of_needsQuoting {s : GoString} (h : needsQuoting s = false) :
  s ≠ [] ∧ ∀ b ∈ s, b ≠ space ∧ b ≠ GoQuote.doubleQuote ∧ b ≠ GoQuote.newline
  := by
  rw [needsQuoting] at h
  split_ifs at h with hnil
  use hnil
  rw [List.any_eq_false] at h
  intro b hb
  -- A byte of ASCII is a rune of its own.
  have hrune : ∀ b ∈ s, b < 128 → b ≠ 0x20 ∧ b ≠ 0x22 ∧ b ≠ 0x0a := by
    intro b hb hascii
    have hnot := h _ (Utf8.mem_runes_of_ascii hascii hb le_rfl)
    refine ⟨?_, ?_, ?_⟩
    all_goals
      rintro rfl
      apply hnot
      decide
  by_cases hascii : b < 128
  · apply hrune b hb hascii
  · have htable : ∀ b : UInt8, ¬ b < 128 →
        b ≠ space ∧ b ≠ GoQuote.doubleQuote ∧ b ≠ GoQuote.newline := by
      decide +kernel
    apply htable b hascii

/-- A value is quoted, or written as it is. -/
theorem formatValue_eq (value : Value V) :
  formatValue P value
    = if needsQuoting (P.sprintf value) then GoQuote.quote P.table (P.sprintf value)
      else P.sprintf value
  := by
  cases value with
  | nil =>
    have hbare : needsQuoting (str "<nil>") = false := by decide +kernel
    rw [Printer.sprintf, hbare]
    rfl
  | string s => rfl
  | other v => rfl

theorem newline_notMem_formatValue (value : Value V) :
  GoQuote.newline ∉ formatValue P value
  := by
  rw [formatValue_eq]
  split_ifs with hquoting
  · apply GoQuote.newline_notMem_quote
  · intro h
    have hbare := ne_of_needsQuoting (Bool.eq_false_iff.mpr hquoting)
    apply (hbare.2 _ h).2.2 rfl

/-- What may follow a pair: nothing, or a space. -/
def Follows (rest : GoString) : Prop := rest = [] ∨ ∃ t, rest = space :: t

theorem before_space {s rest : GoString} (hs : space ∉ s) (hrest : Follows rest) :
  GoString.before space (s ++ rest) = s
  := by
  obtain rfl | ⟨t, rfl⟩ := hrest
  · rw [List.append_nil, GoString.before_eq_self hs]
  · apply GoString.before_append hs

variable {P} {unquote : GoString → Option GoString}

/-- A value is read back. -/
theorem readValue_formatValue (hunquote : ∀ s, unquote (GoQuote.quote P.table s) = some s)
    (value : Value V) {rest : GoString} (hrest : Follows rest) :
  readValue unquote (formatValue P value ++ rest) = some (P.sprintf value, rest)
  := by
  rw [formatValue_eq]
  split_ifs with hquoting
  · have hhead : (GoQuote.quote P.table (P.sprintf value) ++ rest).head?
        = some GoQuote.doubleQuote := rfl
    rw [readValue, if_pos hhead, GoQuote.cut_quote, Option.bind_some, hunquote, Option.map_some]
  · obtain ⟨hne, hbytes⟩ := ne_of_needsQuoting (Bool.eq_false_iff.mpr hquoting)
    have hspace : space ∉ P.sprintf value := fun h => (hbytes _ h).1 rfl
    have hhead : (P.sprintf value ++ rest).head? ≠ some GoQuote.doubleQuote := by
      obtain ⟨b, bs, hcons⟩ := List.exists_cons_of_ne_nil hne
      rw [hcons] at hbytes ⊢
      intro h
      apply (hbytes b List.mem_cons_self).2.1 (Option.some.inj h)
    rw [readValue, if_neg hhead, before_space hspace hrest, List.drop_left]

/-! ### Pairs -/

variable (P) in
/-- A pair. -/
def pairText (p : GoString × Value V) : GoString := p.1 ++ equals :: formatValue P p.2

theorem readPair_pairText (hunquote : ∀ s, unquote (GoQuote.quote P.table s) = some s)
    {p : GoString × Value V} (hkey : ValidKey p.1) {rest : GoString} (hrest : Follows rest) :
  readPair unquote (pairText P p ++ rest) = some ((p.1, P.sprintf p.2), rest)
  := by
  have hequals : equals ∉ p.1 := fun h => (hkey.2 _ h).2.1 rfl
  have hspace : space ∉ p.1 := fun h => (hkey.2 _ h).1 rfl
  have hmem : equals ∈ p.1 ++ equals :: (formatValue P p.2 ++ rest) :=
    List.mem_append_right _ List.mem_cons_self
  rw [pairText, List.append_assoc, List.cons_append, readPair, GoString.before_append hequals,
    GoString.after_append hequals, if_pos ⟨hmem, hkey.1, hspace⟩,
    readValue_formatValue hunquote p.2 hrest, Option.map_some]

theorem follows_flatMap (ps : List (GoString × Value V)) :
  Follows (ps.flatMap (fun p => space :: pairText P p))
  := by
  cases ps with
  | nil => apply Or.inl rfl
  | cons p ps => apply Or.inr ⟨_, rfl⟩

/-- Pairs are read back. -/
theorem readPairs_flatMap (hunquote : ∀ s, unquote (GoQuote.quote P.table s) = some s)
    (p : GoString × Value V) (ps : List (GoString × Value V)) (hp : ValidKey p.1)
    (hps : ∀ p ∈ ps, ValidKey p.1) {n : ℕ} (hn : ps.length < n) :
  readPairs unquote n (pairText P p ++ ps.flatMap (fun p => space :: pairText P p))
    = some ((p :: ps).map (fun p => (p.1, P.sprintf p.2)))
  := by
  obtain ⟨n, rfl⟩ := Nat.exists_eq_succ_of_ne_zero (Nat.ne_zero_of_lt hn)
  induction ps generalizing p n with
  | nil =>
    rw [readPairs, readPair_pairText hunquote hp (follows_flatMap []), Option.bind_some]
    rfl
  | cons q qs ih =>
    obtain ⟨hq, hqs⟩ := List.forall_mem_cons.mp hps
    rw [List.length_cons, Nat.succ_lt_succ_iff] at hn
    obtain ⟨n, rfl⟩ := Nat.exists_eq_succ_of_ne_zero (Nat.ne_zero_of_lt hn)
    rw [readPairs, readPair_pairText hunquote hp (follows_flatMap (q :: qs)), Option.bind_some,
      List.flatMap_cons, List.cons_append]
    dsimp only
    rw [if_pos rfl, ih q hq hqs n hn]
    rfl

/-! ### Lines -/

theorem appendKeyValue_of_ne_nil {b : GoString} (h : b ≠ []) (p : GoString × Value V) :
  appendKeyValue P b p.1 p.2 = b ++ space :: pairText P p
  := by
  rw [appendKeyValue, if_pos (List.length_pos_iff.mpr h), pairText]
  simp only [List.append_assoc, List.cons_append, List.nil_append]

theorem foldl_appendKeyValue {b : GoString} (h : b ≠ []) (ps : List (GoString × Value V)) :
  ps.foldl (fun b p => appendKeyValue P b p.1 p.2) b
    = b ++ ps.flatMap (fun p => space :: pairText P p)
  := by
  induction ps generalizing b with
  | nil => rw [List.foldl_nil, List.flatMap_nil, List.append_nil]
  | cons p ps ih =>
    rw [List.foldl_cons, appendKeyValue_of_ne_nil h, ih (by simp), List.flatMap_cons,
      List.append_assoc]

variable (P) in
/-- The pairs of a line behind the level. -/
def LogFmtFormatter.pairs (f : LogFmtFormatter) (order : List GoString) (entry : Entry L T V) :
    List (GoString × Value V) :=
  (str "time", .string (P.time entry.time f.timestampFormat)) ::
    (str "msg", .string entry.message) ::
      (ExchangeSort.exchangeSort order).map (fun k => (k, (entry.data.lookup k).getD .nil))

/-- The line of an entry. -/
theorem LogFmtFormatter.format_eq (f : LogFmtFormatter) (order : List GoString)
    (entry : Entry L T V) :
  f.format P order entry
    = pairText P (str "level", .string (P.level entry.level)) ++
        (f.pairs P order entry).flatMap (fun p => space :: pairText P p) ++ [GoQuote.newline]
  := by
  have hne : pairText P (str "level", .string (P.level entry.level)) ≠ [] := by
    simp [pairText]
  rw [← foldl_appendKeyValue hne, pairs, List.foldl_cons, List.foldl_cons, List.foldl_map]
  rfl

theorem newline_notMem_pairText {p : GoString × Value V} (h : ValidKey p.1) :
  GoQuote.newline ∉ pairText P p
  := by
  rw [pairText, List.mem_append, List.mem_cons]
  rintro (hkey | hequals | hvalue)
  · apply (h.2 _ hkey).2.2.2
    decide
  · cases hequals
  · apply newline_notMem_formatValue P p.2 hvalue

/-- No newline is in pairs whose keys are words. -/
theorem newline_notMem_flatMap {ps : List (GoString × Value V)} (h : ∀ p ∈ ps, ValidKey p.1) :
  GoQuote.newline ∉ ps.flatMap (fun p => space :: pairText P p)
  := by
  rw [List.mem_flatMap]
  rintro ⟨p, hp, hmem⟩
  obtain hspace | htext := List.mem_cons.mp hmem
  · cases hspace
  · apply newline_notMem_pairText (h p hp) htext

theorem length_le_flatMap (ps : List (GoString × Value V)) :
  ps.length ≤ (ps.flatMap (fun p => space :: pairText P p)).length
  := by
  induction ps with
  | nil => apply le_rfl
  | cons p ps ih =>
    rw [List.flatMap_cons, List.length_append, List.length_cons, List.length_cons]
    omega

/-- The pairs of a line are read back. -/
theorem readLine_pairs (hunquote : ∀ s, unquote (GoQuote.quote P.table s) = some s)
    {p : GoString × Value V} {ps : List (GoString × Value V)} (hp : ValidKey p.1)
    (hps : ∀ p ∈ ps, ValidKey p.1) :
  readLine unquote (pairText P p ++ ps.flatMap (fun p => space :: pairText P p))
    = some ((p :: ps).map (fun p => (p.1, P.sprintf p.2)))
  := by
  apply readPairs_flatMap hunquote p ps hp hps
  have hle : ps.length ≤ (ps.flatMap (fun p => space :: pairText P p)).length :=
    length_le_flatMap ps
  have hpos : 0 < (pairText P p).length := by
    simp [pairText]
  rw [List.length_append]
  omega

theorem validKey_level :
  ValidKey (str "level")
  := by
  decide +kernel

/-- The keys of the pairs behind the level are words. -/
theorem validKey_pairs {f : LogFmtFormatter} {order : List GoString} {entry : Entry L T V}
    (horder : order.Perm entry.data.keys) (hkeys : ∀ k ∈ entry.data.keys, ValidKey k) :
  ∀ p ∈ f.pairs P order entry, ValidKey p.1
  := by
  have htime : ValidKey (str "time") := by decide +kernel
  have hmsg : ValidKey (str "msg") := by decide +kernel
  refine List.forall_mem_cons.mpr ⟨htime, List.forall_mem_cons.mpr ⟨hmsg, ?_⟩⟩
  intro p hp
  obtain ⟨k, hk, rfl⟩ := List.mem_map.mp hp
  apply hkeys k
  apply ((ExchangeSort.perm_exchangeSort order).trans horder).mem_iff.mp hk

/-- The keys of a map are sorted strictly. -/
theorem pairwise_keys {order : List GoString} {entry : Entry L T V}
    (horder : order.Perm entry.data.keys) :
  (ExchangeSort.exchangeSort order).Pairwise (· < ·)
  := by
  have hnodup : (ExchangeSort.exchangeSort order).Nodup :=
    ((ExchangeSort.perm_exchangeSort order).trans horder).nodup_iff.mpr entry.data.nodupKeys
  apply GoString.pairwise_lt_of_nodup id (ExchangeSort.pairwise_exchangeSort order)
  rw [List.map_id]
  apply hnodup

/-- The keys of the data in their order, with their values, are the data. -/
theorem perm_fields {order : List GoString} {entry : Entry L T V}
    (horder : order.Perm entry.data.keys) :
  ((ExchangeSort.exchangeSort order).map (fun k =>
      (k, P.sprintf ((entry.data.lookup k).getD .nil)))).Perm
    (entry.data.items.map (fun e => (e.1, P.sprintf e.2)))
  := by
  have hkeys : entry.data.keys = entry.data.items.map Prod.fst := by
    rw [GoMap.items, List.map_map]
    rfl
  have hitems : entry.data.items.map (fun e => (e.1, P.sprintf e.2))
      = entry.data.keys.map (fun k => (k, P.sprintf ((entry.data.lookup k).getD .nil))) := by
    rw [hkeys, List.map_map]
    apply List.map_congr_left
    rintro ⟨k, v⟩ hkv
    rw [Function.comp_apply, GoMap.mem_items.mp hkv]
    rfl
  rw [hitems]
  apply ((ExchangeSort.perm_exchangeSort order).trans horder).map

/-- An entry whose keys are words is written as one line, and the line is read back as its level,
its time, its message and its data in the order of the keys, whatever the values are. -/
theorem readLine_format (P : Printer L T V) (f : LogFmtFormatter)
    (unquote : GoString → Option GoString)
    (hunquote : ∀ s, unquote (GoQuote.quote P.table s) = some s) (entry : Entry L T V)
    (hkeys : ∀ k ∈ entry.data.keys, ValidKey k) (order : List GoString)
    (horder : order.Perm entry.data.keys) :
  ∃ line fields, f.format P order entry = line ++ [GoQuote.newline] ∧
    GoQuote.newline ∉ line ∧
    readLine unquote line
      = some ((str "level", P.level entry.level) ::
          (str "time", P.time entry.time f.timestampFormat) ::
          (str "msg", entry.message) :: fields) ∧
    (fields.map Prod.fst).Pairwise (· < ·) ∧
    fields.Perm (entry.data.items.map (fun e => (e.1, P.sprintf e.2)))
  := by
  have hpairs : ∀ p ∈ f.pairs P order entry, ValidKey p.1 := validKey_pairs horder hkeys
  refine ⟨_, _, f.format_eq order entry, ?_, readLine_pairs hunquote validKey_level hpairs, ?_, ?_⟩
  · rw [List.mem_append]
    rintro (hlevel | hrest)
    · apply newline_notMem_pairText validKey_level hlevel
    · apply newline_notMem_flatMap hpairs hrest
  · rw [List.map_map, List.map_map, List.pairwise_map]
    apply pairwise_keys horder
  · rw [List.map_map]
    apply perm_fields horder

end

/-- A message and a field that would add a line and a field if they were not quoted. -/
theorem readLine_format_forged :
  let P : Printer GoString GoString GoString := ⟨id, fun t _ => t, id, fun _ => true⟩
  let entry : Entry GoString GoString GoString :=
    ⟨str "info", str "now", str "done\nlevel=error",
      ((∅ : GoMap GoString (Value GoString)).insert (str "query")
        (.other (str "up admin=true"))).insert (str "err") .nil⟩
  ∃ line fields,
    newLogFmtFormatter.format P [str "query", str "err"] entry = line ++ [GoQuote.newline] ∧
    GoQuote.newline ∉ line ∧
    readLine GoQuote.unquote line
      = some ((str "level", str "info") :: (str "time", str "now") ::
          (str "msg", str "done\nlevel=error") :: fields) ∧
    (fields.map Prod.fst).Pairwise (· < ·) ∧
    fields.Perm (entry.data.items.map (fun e => (e.1, P.sprintf e.2)))
  := by
  intro P entry
  apply readLine_format P newLogFmtFormatter GoQuote.unquote (GoQuote.unquote_quote P.table) entry
  · decide +kernel
  · decide +kernel

end Logging

end VmProxyAuth
