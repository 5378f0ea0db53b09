import VmProxyAuth.Lib.GoMap

/-!
# Query strings

The part of `net/url` that reads and writes query strings.  `queryEscape` and
`queryUnescape` code one key or value, `parseQuery` reads a query string into its
parameters, skipping the settings it cannot read, and `encode` writes parameters as a
query string, sorted by key.  Reading back what `encode` wrote gives, under every key,
the values written (`values_parseQuery_encode`).
-/

namespace Url

/-! ### Escaping -/

/-- The bytes a query component keeps as they are: letters, digits, `-`, `.`, `_` and
`~`. -/
def unreserved (b : UInt8) : Bool :=
  (48 ≤ b && b ≤ 57) || (65 ≤ b && b ≤ 90) || (97 ≤ b && b ≤ 122) || b == 45 || b == 46 ||
    b == 95 || b == 126

/-- The upper-case hexadecimal digit of a number below 16. -/
def upperhex (n : UInt8) : UInt8 := if n < 10 then 48 + n else 55 + n

/-- The number a hexadecimal digit of either case stands for. -/
def unhex (c : UInt8) : Option UInt8 :=
  if 48 ≤ c && c ≤ 57 then some (c - 48)
  else if 97 ≤ c && c ≤ 102 then some (c - 87)
  else if 65 ≤ c && c ≤ 70 then some (c - 55)
  else none

/-- The code of one byte in a query component: a space is written `+`, and every other
byte that is not unreserved `%XX`. -/
def escapeByte (b : UInt8) : GoString :=
  if b = 32 then [43]
  else if unreserved b then [b]
  else [37, upperhex (b / 16), upperhex (b % 16)]

/-- `url.QueryEscape(s)`. -/
def queryEscape (s : GoString) : GoString := s.flatMap escapeByte

/-- The byte a byte other than `%` stands for in a query component. -/
def plainByte (b : UInt8) : UInt8 := if b = 43 then 32 else b

/-- `url.QueryUnescape(s)`: none if a `%` is not followed by two hexadecimal digits. -/
def queryUnescape : GoString → Option GoString
  | [] => some []
  | [b] => if b = 37 then none else some [plainByte b]
  | [b, c] => if b = 37 then none else (queryUnescape [c]).map (plainByte b :: ·)
  | b :: c :: d :: rest =>
    if b = 37 then
      match unhex c, unhex d with
      | some h, some l => (queryUnescape rest).map ((16 * h + l) :: ·)
      | _, _ => none
    else (queryUnescape (c :: d :: rest)).map (plainByte b :: ·)

/-- Every byte is a space, is unreserved and neither `%` nor `+`, or is recovered from its
two hexadecimal digits. -/
private theorem escapeByte_cases :
  ∀ b : UInt8, escapeByte b = [43] ∧ b = 32 ∨
    escapeByte b = [b] ∧ b ≠ 37 ∧ plainByte b = b ∨
    ∃ c d h l, escapeByte b = [37, c, d] ∧ unhex c = some h ∧ unhex d = some l ∧ 16 * h + l = b
  := by
  have hspace : ∀ b : UInt8, b = 32 → escapeByte b = [43] := by
    intro b hb
    rw [escapeByte, if_pos hb]
  have hplain : ∀ b : UInt8, b ≠ 32 → unreserved b → b ≠ 37 ∧ plainByte b = b := by
    decide +kernel
  have hhex : ∀ b : UInt8, unhex (upperhex (b / 16)) = some (b / 16) ∧
      unhex (upperhex (b % 16)) = some (b % 16) ∧ 16 * (b / 16) + b % 16 = b := by
    decide +kernel
  intro b
  by_cases hb : b = 32
  · left
    use hspace b hb
  · right
    by_cases hu : unreserved b
    · left
      rw [escapeByte, if_neg hb, if_pos hu]
      use rfl
      apply hplain b hb hu
    · right
      obtain ⟨hc, hd, hsum⟩ := hhex b
      use upperhex (b / 16), upperhex (b % 16), b / 16, b % 16
      rw [escapeByte, if_neg hb, if_neg hu]
      use rfl, hc, hd

theorem queryUnescape_cons {b : UInt8} (h : b ≠ 37) (s : GoString) :
  queryUnescape (b :: s) = (queryUnescape s).map (plainByte b :: ·)
  := by
  match s with
  | [] => simp [queryUnescape, h]
  | [c] => simp [queryUnescape, h]
  | c :: d :: rest => rw [queryUnescape, if_neg h]

theorem queryUnescape_escapeByte (b : UInt8) (s : GoString) :
  queryUnescape (escapeByte b ++ s) = (queryUnescape s).map (b :: ·)
  := by
  rcases escapeByte_cases b with ⟨he, rfl⟩ | ⟨he, hb, hplain⟩ | ⟨c, d, h, l, he, hc, hd, hsum⟩
  · rw [he, List.singleton_append, queryUnescape_cons (by decide)]
    rfl
  · rw [he, List.singleton_append, queryUnescape_cons hb, hplain]
  · rw [he, List.cons_append, List.cons_append, List.singleton_append, queryUnescape,
      if_pos rfl, hc, hd, ← hsum]

/-- Unescaping inverts escaping. -/
theorem queryUnescape_queryEscape (s : GoString) :
  queryUnescape (queryEscape s) = some s
  := by
  induction s with
  | nil => rfl
  | cons b s ih =>
    rw [queryEscape, List.flatMap_cons, ← queryEscape, queryUnescape_escapeByte, ih]
    rfl

/-- An escaped component contains none of the separators of a query string. -/
theorem notMem_queryEscape {b : UInt8} (hb : b = 35 ∨ b = 38 ∨ b = 59 ∨ b = 61) (s : GoString) :
  b ∉ queryEscape s
  := by
  have hbyte : ∀ c : UInt8, 35 ∉ escapeByte c ∧ 38 ∉ escapeByte c ∧ 59 ∉ escapeByte c ∧
      61 ∉ escapeByte c := by
    decide +kernel
  rw [queryEscape, List.mem_flatMap]
  rintro ⟨c, -, hc⟩
  obtain ⟨h₁, h₂, h₃, h₄⟩ := hbyte c
  rcases hb with rfl | rfl | rfl | rfl
  · apply h₁ hc
  · apply h₂ hc
  · apply h₃ hc
  · apply h₄ hc

/-! ### Query strings -/

/-- `url.Values`: the parameters of a query string. -/
abbrev Values : Type := MultiMap GoString GoString

/-- `values.Get(k)`: the first value under `k`, empty if there is none. -/
def Values.get (m : Values) (k : GoString) : GoString := (m.values k).headD []

/-- One setting of a query string, as the parameter it sets; an error if it contains a
semicolon or if its key or its value cannot be unescaped. -/
def parseSetting (setting : GoString) : Option (GoString × GoString) :=
  if 59 ∈ setting then none
  else
    match queryUnescape (GoString.before 61 setting), queryUnescape (GoString.after 61 setting) with
    | some k, some x => some (k, x)
    | _, _ => none

/-- The settings of a query string: the non-empty parts between the `&`. -/
def settings (query : GoString) : List GoString := (query.splitOn 38).filter (· ≠ [])

/-- The parameters the readable settings of a query string set, in order. -/
def queryPairs (query : GoString) : List (GoString × GoString) :=
  (settings query).filterMap parseSetting

/-- `url.ParseQuery(query)`: the parameters of the readable settings, and whether some
setting could not be read. -/
def parseQuery (query : GoString) : Values × Bool :=
  (MultiMap.addAll ∅ (queryPairs query), (settings query).any (fun s => (parseSetting s).isNone))

/-- The setting of one parameter. -/
def encodePair (p : GoString × GoString) : GoString :=
  queryEscape p.1 ++ 61 :: queryEscape p.2

/-- `values.Encode()`: the parameters, sorted by key. -/
def encode (m : Values) : GoString :=
  [38].intercalate ((m.pairs (GoString.sort m.keys)).map encodePair)

/-- The values of a parsed query string under a key are those its settings give the
key. -/
theorem values_parseQuery (query : GoString) (k : GoString) :
  (parseQuery query).1.values k = MultiMap.pairsAt k (queryPairs query)
  := by
  rw [parseQuery, MultiMap.values_addAll, MultiMap.values_empty, List.nil_append]

theorem parseSetting_encodePair (p : GoString × GoString) :
  parseSetting (encodePair p) = some p
  := by
  have hsemi : (59 : UInt8) ∉ encodePair p := by
    rw [encodePair, List.mem_append, List.mem_cons]
    rintro (h | h | h)
    · apply notMem_queryEscape (by decide) _ h
    · cases h
    · apply notMem_queryEscape (by decide) _ h
  have heq : (61 : UInt8) ∉ queryEscape p.1 := notMem_queryEscape (by decide) p.1
  rw [parseSetting, if_neg hsemi, encodePair, GoString.before_append heq,
    GoString.after_append heq, queryUnescape_queryEscape, queryUnescape_queryEscape]

theorem notMem_encodePair {b : UInt8} (hb : b = 35 ∨ b = 38) (p : GoString × GoString) :
  b ∉ encodePair p
  := by
  rw [encodePair, List.mem_append, List.mem_cons]
  rintro (h | h | h)
  · apply notMem_queryEscape (by tauto) _ h
  · subst h
    revert hb
    decide
  · apply notMem_queryEscape (by tauto) _ h

/-- The settings of an encoded list of parameters are the settings of the parameters. -/
theorem settings_intercalate (ps : List (GoString × GoString)) :
  settings ([38].intercalate (ps.map encodePair)) = ps.map encodePair
  := by
  cases ps with
  | nil => decide
  | cons p ps =>
    rw [settings, List.splitOn_intercalate]
    · rw [List.filter_eq_self]
      intro s hs
      obtain ⟨q, -, rfl⟩ := List.mem_map.mp hs
      simp [encodePair]
    · intro s hs
      obtain ⟨q, -, rfl⟩ := List.mem_map.mp hs
      apply notMem_encodePair (by decide)
    · simp

theorem queryPairs_encode (m : Values) :
  queryPairs (encode m) = m.pairs (GoString.sort m.keys)
  := by
  rw [queryPairs, encode, settings_intercalate, List.filterMap_map]
  have hsome : parseSetting ∘ encodePair = some := by
    funext p
    apply parseSetting_encodePair
  rw [hsome, List.filterMap_some]

/-- Reading back encoded parameters gives, under every key, the values written. -/
theorem values_parseQuery_encode (m : Values) (k : GoString) :
  (parseQuery (encode m)).1.values k = m.values k
  := by
  rw [values_parseQuery, queryPairs_encode]
  apply MultiMap.pairsAt_pairs m (GoString.sort_perm m.keys)

private theorem notMem_intercalate :
  ∀ ps : List (GoString × GoString), 35 ∉ [38].intercalate (ps.map encodePair)
  | [] => by simp
  | [p] => by
      rw [List.map_singleton, List.intercalate_singleton]
      apply notMem_encodePair (by decide)
  | p :: q :: ps => by
      rw [List.map_cons, List.map_cons, List.intercalate_cons_cons, List.mem_append,
        List.mem_append]
      rintro ((h | h) | h)
      · apply notMem_encodePair (by decide) p h
      · revert h
        decide
      · apply notMem_intercalate (q :: ps) h

/-- An encoded query string contains no `#`. -/
theorem notMem_encode (m : Values) :
  35 ∉ encode m
  := notMem_intercalate _

example :
  ((parseQuery (str "query=up&match[]=a%20b&query=c+d&x;y=1&bad=%zz")).1.values (str "query"),
    (parseQuery (str "query=up&match[]=a%20b&query=c+d&x;y=1&bad=%zz")).2)
    = ([str "up", str "c d"], true)
  := by decide +kernel

end Url
