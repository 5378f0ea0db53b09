import VmProxyAuth.Lib.GoQuote
import VmProxyAuth.Lib.Scan
import VmProxyAuth.Tenant.Typing

/-!
# Texts of queries

A part of the Prometheus printer and parser, for chains of operands joined with `or`.  An operand
is a digit, a vector selector by a metric name, or an aggregation of one without a parameter.  The
printer sorts the matchers of a vector selector by their texts and leaves out the one for the
metric name; the parser reads the matchers in the order of the text and puts the one for the metric
name last.  So a chain is read from its text up to the order of matchers (`parseExpr_chainOf`).

The parser takes texts with the blanks the printer writes, and no other.
-/

namespace VmProxyAuth

namespace PromQL

/-- The matching of an `or` without a clause. -/
def plainMatching : VectorMatching := ⟨.manyToMany, [], false, []⟩

namespace QueryText

open Scan

/-! ### Names -/

/-- A letter or an underscore. -/
def isLetter (b : UInt8) : Bool :=
  decide (0x61 ≤ b) && decide (b ≤ 0x7a) || decide (0x41 ≤ b) && decide (b ≤ 0x5a) || b == 0x5f

def isDigit (b : UInt8) : Bool := decide (0x30 ≤ b) && decide (b ≤ 0x39)

/-- A byte of the name of a label. -/
def isLabelByte (b : UInt8) : Bool := isLetter b || isDigit b

/-- A byte of the name of a metric, which may have colons. -/
def isMetricByte (b : UInt8) : Bool := isLabelByte b || b == 0x3a

/-- The name of a label that is written without quotes. -/
def isLabelName (name : GoString) : Bool :=
  name.head?.any isLetter && name.all isLabelByte

/-- A word in lower case. -/
def lower (word : GoString) : GoString :=
  word.map (fun b => if 0x41 ≤ b ∧ b ≤ 0x5a then b + 0x20 else b)

/-- The words that are read as numbers. -/
def numberWords : List GoString := [str "inf", str "nan"]

/-- The words of the language, in lower case. -/
def keywords : List GoString :=
  numberWords ++ [str "and", str "or", str "unless", str "atan2", str "sum", str "avg", str "count",
    str "min", str "max", str "group", str "stddev", str "stdvar", str "topk", str "bottomk",
    str "count_values", str "quantile", str "limitk", str "limit_ratio", str "offset", str "by",
    str "without", str "on", str "ignoring", str "group_left", str "group_right", str "bool",
    str "start", str "end"]

/-- The name of a metric that can stand in front of the braces. -/
def isMetricName (name : GoString) : Bool :=
  name.head?.any (fun b => isLetter b || b == 0x3a) && name.all isMetricByte &&
    decide (lower name ∉ keywords)

/-- The name of a label that can stand in a clause. -/
def isClauseLabel (name : GoString) : Bool :=
  isLabelName name && decide (lower name ∉ numberWords)

/-- The name of an aggregation. -/
def aggregateName : AggregateOp → GoString
  | .sum => str "sum"
  | .avg => str "avg"
  | .count => str "count"
  | .min => str "min"
  | .max => str "max"
  | .group => str "group"
  | .stddev => str "stddev"
  | .stdvar => str "stdvar"
  | .topk => str "topk"
  | .bottomk => str "bottomk"
  | .countValues => str "count_values"
  | .quantile => str "quantile"
  | .limitk => str "limitk"
  | .limitRatio => str "limit_ratio"

/-- The aggregations without a parameter. -/
def aggregates : List AggregateOp :=
  [.sum, .avg, .count, .min, .max, .group, .stddev, .stdvar]

/-! ### The printer -/

section

variable (table : Char → Bool)

def typeText : MatchType → GoString
  | .equal => str "="
  | .notEqual => str "!="
  | .regexp => str "=~"
  | .notRegexp => str "!~"

def nameText (name : GoString) : GoString :=
  if isLabelName name then name else GoQuote.quote table name

/-- The text of a matcher. -/
def matcherText (m : Matcher) : GoString :=
  nameText table m.name ++ typeText m.type ++ GoQuote.quote table m.value

/-- The matchers in the order of their texts, without the one for the metric name. -/
def sortedMatchers (vs : VectorSelector) : List Matcher :=
  (vs.labelMatchers.filter (fun m => m != vs.nameMatcher)).mergeSort
    (fun m m' => decide (matcherText table m ≤ matcherText table m'))

/-- The text of a vector selector. -/
def selectorText (vs : VectorSelector) : GoString :=
  let labelStrings := GoString.sort
    ((vs.labelMatchers.filter (fun m => m != vs.nameMatcher)).map (matcherText table))
  if labelStrings = [] then vs.name
  else vs.name ++ str "\x7b" ++ (str ",").intercalate labelStrings ++ str "\x7d"

def labelsText (labels : List GoString) : GoString :=
  str "(" ++ (str ", ").intercalate labels ++ str ")"

/-- The text of the labels an aggregation groups by. -/
def groupingText (grouping : List GoString) (without : Bool) : GoString :=
  if without then str " without " ++ labelsText grouping ++ str " "
  else if grouping = [] then [] else str " by " ++ labelsText grouping ++ str " "

/-- The text of the labels an `or` compares. -/
def matchingText (m : VectorMatching) : GoString :=
  if m.on then str " on " ++ labelsText m.matchingLabels
  else if m.matchingLabels = [] then [] else str " ignoring " ++ labelsText m.matchingLabels

/-- The text of `or` between its operands. -/
def clauseText (matching : Option VectorMatching) : GoString :=
  str " or" ++ matching.elim [] matchingText ++ str " "

/-- The text of an expression of the part of the language described here. -/
def exprText : Expr → GoString
  | .numberLiteral val => val
  | .vectorSelector vs => selectorText table vs
  | .aggregateExpr op expr _ grouping without =>
    aggregateName op ++ groupingText grouping without ++ str "(" ++ exprText expr ++ str ")"
  | .binaryExpr .lor lhs rhs matching _ => exprText lhs ++ clauseText matching ++ exprText rhs
  | _ => []

end

/-! ### The parser -/

/-- A string in quotes. -/
def quoted : Scan UInt8 GoString := fun s =>
  (GoQuote.cut s).bind (fun r => (GoQuote.unquote r.1).map (fun v => (v, r.2)))

/-- The name of a label, with or without quotes. -/
def matcherName : Scan UInt8 GoString := fun s =>
  if s.head? = some GoQuote.doubleQuote then quoted s
  else guarded isLabelName (word isLabelByte) s

def matchType : Scan UInt8 MatchType :=
  branch (str "=~") (pure .regexp) (branch (str "=") (pure .equal)
    (branch (str "!=") (pure .notEqual) (branch (str "!~") (pure .notRegexp) failure)))

def matcher : Scan UInt8 Matcher := do
  let name ← matcherName
  let type ← matchType
  let value ← quoted
  pure ⟨type, name, value⟩

/-- The vector selector with a metric name and the matchers in braces that follow, if any. -/
def selectorOf (name : GoString) : Scan UInt8 VectorSelector := do
  let matchers ← branch (str "\x7b") (list (str ",") (str "\x7d") matcher) (pure [])
  pure ⟨name, matchers ++ [⟨.equal, metricName, name⟩], ⟨0, none, none⟩⟩

def selector : Scan UInt8 VectorSelector := do
  let name ← guarded isMetricName (word isMetricByte)
  selectorOf name

def labels : Scan UInt8 (List GoString) := do
  literal (str "(")
  list (str ", ") (str ")") (guarded isClauseLabel (word isLabelByte))

def grouping : Scan UInt8 (List GoString × Bool) :=
  branch (str " without ") (do let names ← labels; literal (str " "); pure (names, true))
    (branch (str " by ") (do let names ← labels; literal (str " "); pure (names, false))
      (pure ([], false)))

def aggregate (op : AggregateOp) : Scan UInt8 Expr := do
  let group ← grouping
  literal (str "(")
  let vs ← selector
  literal (str ")")
  pure (.aggregateExpr op (.vectorSelector vs) none group.1 group.2)

/-- An operand that begins with a word. -/
def named : Scan UInt8 Expr := do
  let name ← word isMetricByte
  match aggregates.find? (fun op => decide (aggregateName op = name)) with
  | some op => aggregate op
  | none =>
    if isMetricName name then do
      let vs ← selectorOf name
      pure (.vectorSelector vs)
    else failure

def operand : Scan UInt8 Expr := fun s =>
  match s with
  | [] => none
  | b :: rest => if isDigit b then some (.numberLiteral [b], rest) else named s

/-- The labels an `or` compares. -/
def clause : Scan UInt8 VectorMatching :=
  branch (str " on ") (do let names ← labels; pure ⟨.manyToMany, names, true, []⟩)
    (branch (str " ignoring ") (do let names ← labels; pure ⟨.manyToMany, names, false, []⟩)
      (pure plainMatching))

/-- What follows an `or`: the labels it compares, and its right operand. -/
def link : Scan UInt8 (VectorMatching × Expr) := do
  let m ← clause
  literal (str " ")
  let rhs ← operand
  pure (m, rhs)

/-- Operands joined with `or`, from the left. -/
def chainOf (first : Expr) (links : List (Option VectorMatching × Expr)) : Expr :=
  links.foldl (fun lhs next => .binaryExpr .lor lhs next.2 next.1 false) first

def chain : Scan UInt8 Expr := do
  let first ← operand
  let links ← items (str " or") link
  pure (chainOf first (links.map (fun next => (some next.1, next.2))))

/-- Whether an expression passes the checks. -/
def accepts (R : Rules) (expr : Expr) : Bool :=
  expr.wellTyped R && expr.selectors.all R.acceptsSelector

/-- The parser and the printer. -/
def textParser (table : Char → Bool) (R : Rules) : Parser where
  parseExpr text :=
    match chain text with
    | some (expr, []) => if accepts R expr then .ok expr else .error (.library "parse error")
    | _ => .error (.library "parse error")
  exprString := exprText table

/-! ### Reading what is printed -/

section

variable (table : Char → Bool)

theorem reads_quoted (value : GoString) :
  Reads quoted (fun _ => True) (GoQuote.quote table value) value
  := by
  intro rest _
  rw [quoted, GoQuote.cut_quote, Option.bind_some, GoQuote.unquote_quote]
  rfl

theorem head?_quote (value rest : GoString) :
  (GoQuote.quote table value ++ rest).head? = some GoQuote.doubleQuote
  := rfl

theorem exists_cons_of_isLabelName {name : GoString} (h : isLabelName name = true) :
  ∃ b rest, name = b :: rest ∧ isLetter b = true ∧ ∀ b ∈ name, isLabelByte b = true
  := by
  rw [isLabelName, Bool.and_eq_true, List.all_eq_true] at h
  cases name with
  | nil => cases h.1
  | cons b rest => exact ⟨b, rest, rfl, h.1, h.2⟩

theorem reads_matcherName (name : GoString) :
  Reads matcherName (Ends isLabelByte) (nameText table name) name
  := by
  intro rest hrest
  rw [matcherName, nameText]
  cases hname : isLabelName name with
  | true =>
    obtain ⟨b, tail, rfl, hletter, hall⟩ := exists_cons_of_isLabelName hname
    have hhead : (b :: tail ++ rest).head? ≠ some GoQuote.doubleQuote := by
      rintro hquote
      obtain rfl : b = GoQuote.doubleQuote := Option.some.inj hquote
      cases hletter
    rw [if_pos rfl, if_neg hhead]
    apply (reads_word (List.cons_ne_nil _ _) hall).guarded hname rest hrest
  | false =>
    rw [if_neg Bool.false_ne_true, if_pos (head?_quote table _ _)]
    apply reads_quoted table name rest trivial

theorem reads_matchType (type : MatchType) :
  Reads matchType (fun rest => rest.head? = some GoQuote.doubleQuote) (typeText type) type
  := by
  have hregexp : ∀ rest : GoString, rest.head? = some GoQuote.doubleQuote →
      ¬ str "=~" <+: str "=" ++ rest := by
    rintro rest hrest hprefix
    have htail : str "~" <+: rest := (List.cons_prefix_cons.mp hprefix).2
    apply not_prefix_of_head? (by decide) _ htail
    rw [hrest]
    decide
  have hhead : ∀ {text s : GoString}, text ≠ [] → s ≠ [] → text.head? ≠ s.head? →
      ∀ rest, ¬ text <+: s ++ rest := by
    intro text s htext hs hne rest
    apply not_prefix_of_head? htext
    rwa [List.head?_append_of_ne_nil _ hs]
  cases type with
  | regexp => apply (reads_pure MatchType.regexp).branch_yes
  | equal =>
    apply Reads.branch_no _ hregexp
    apply (reads_pure MatchType.equal).branch_yes
  | notEqual =>
    apply Reads.branch_no _ (fun rest _ => hhead (by decide) (by decide) (by decide) rest)
    apply Reads.branch_no _ (fun rest _ => hhead (by decide) (by decide) (by decide) rest)
    apply (reads_pure MatchType.notEqual).branch_yes
  | notRegexp =>
    apply Reads.branch_no _ (fun rest _ => hhead (by decide) (by decide) (by decide) rest)
    apply Reads.branch_no _ (fun rest _ => hhead (by decide) (by decide) (by decide) rest)
    apply Reads.branch_no
    · apply (reads_pure MatchType.notRegexp).branch_yes
    · rintro rest - hprefix
      have htail : str "=" <+: str "~" ++ rest := (List.cons_prefix_cons.mp hprefix).2
      apply hhead (by decide) (by decide) (by decide) rest htail

theorem ends_typeText (type : MatchType) (rest : GoString) :
  Ends isLabelByte (typeText type ++ rest)
  := by
  rintro b hb
  cases type <;> cases hb <;> rfl

theorem reads_matcher (m : Matcher) :
  Reads matcher (fun _ => True) (matcherText table m) m
  := by
  have hvalue := (reads_quoted table m.value).map
    (f := fun value => Matcher.mk m.type m.name value)
  have htype := (reads_matchType m.type).bind
    (f := fun type => do
      let value ← quoted
      pure (Matcher.mk type m.name value)) hvalue (fun rest _ => head?_quote table m.value rest)
  have hname := (reads_matcherName table m.name).bind
    (f := fun name => do
      let type ← matchType
      let value ← quoted
      pure (Matcher.mk type name value)) htype (by
        intro rest _
        rw [List.append_assoc]
        apply ends_typeText)
  rw [← List.append_assoc] at hname
  apply hname

/-! ### Vector selectors -/

/-- The matchers of a vector selector in braces. -/
def bracesText (matchers : List Matcher) : GoString :=
  if matchers = [] then []
  else str "\x7b" ++ ((str ",").intercalate (matchers.map (matcherText table)) ++ str "\x7d")

/-- The texts of the matchers are sorted as the matchers are by their texts. -/
theorem selectorText_eq (vs : VectorSelector) :
  selectorText table vs = vs.name ++ bracesText table (sortedMatchers table vs)
  := by
  have hsort : GoString.sort
      ((vs.labelMatchers.filter (fun m => m != vs.nameMatcher)).map (matcherText table))
      = (sortedMatchers table vs).map (matcherText table) := by
    rw [sortedMatchers, GoString.sort, List.map_mergeSort]
    intro m _ m' _
    rfl
  rw [selectorText, hsort, bracesText]
  simp only [List.map_eq_nil_iff]
  split
  · rw [List.append_nil]
  · simp only [List.append_assoc]

/-- One matcher is in order. -/
theorem sortedMatchers_eq {vs : VectorSelector}
    (h : (vs.labelMatchers.filter (fun m => m != vs.nameMatcher)).length ≤ 1) :
  sortedMatchers table vs = vs.labelMatchers.filter (fun m => m != vs.nameMatcher)
  := by
  rw [sortedMatchers]
  rcases hfilter : vs.labelMatchers.filter (fun m => m != vs.nameMatcher) with - | ⟨m, - | ⟨m', ms⟩⟩
  · apply List.mergeSort_nil
  · apply List.mergeSort_singleton
  · rw [hfilter] at h
    simp at h

/-- What may follow a vector selector. -/
def Stop (rest : GoString) : Prop := ∀ b ∈ rest.head?, isMetricByte b = false ∧ b ≠ 0x7b

theorem reads_braces (matchers : List Matcher) :
  Reads (branch (str "\x7b") (list (str ",") (str "\x7d") matcher) (pure [])) Stop
    (bracesText table matchers) matchers
  := by
  rw [bracesText]
  split
  · rename_i hnil
    rw [hnil]
    apply (reads_pure []).branch_no
    intro rest hrest hprefix
    obtain ⟨tail, rfl⟩ := hprefix
    apply (hrest 0x7b rfl).2 rfl
  · apply Reads.branch_yes
    apply reads_list (by decide)
    · intro rest
      apply not_prefix_of_head? (by decide)
      rintro ⟨⟩
    · intro m _
      apply (reads_matcher table m).mono (fun _ _ => trivial)
    · intro m _ rest
      apply not_prefix_of_head? (by decide)
      rw [matcherText, nameText]
      split
      · rename_i hname
        obtain ⟨b, tail, heq, hletter, -⟩ := exists_cons_of_isLabelName hname
        rw [heq]
        rintro ⟨⟩
        cases hletter
      · rintro ⟨⟩

/-- A vector selector as it is read from its text. -/
def readSelector (vs : VectorSelector) : VectorSelector :=
  { vs with labelMatchers := sortedMatchers table vs ++ [vs.nameMatcher] }

/-- A vector selector by a metric name without modifiers. -/
structure Readable (vs : VectorSelector) : Prop where
  name : isMetricName vs.name = true
  modifier : vs.modifier = ⟨0, none, none⟩
  mem : vs.nameMatcher ∈ vs.labelMatchers

/-- The matchers read are those written. -/
theorem same_readSelector {vs : VectorSelector} (h : Readable vs) :
  (readSelector table vs).Same vs
  := by
  use rfl
  · intro m
    rw [readSelector, List.mem_append, sortedMatchers, List.mem_mergeSort, List.mem_filter,
      List.mem_singleton]
    by_cases hm : m = vs.nameMatcher
    · simp [hm, h.mem]
    · simp [hm]
  · rfl

/-- Further matchers, in any order, do not change how the rest of a vector selector is read. -/
theorem Readable.extend {vs vs' : VectorSelector} (h : Readable vs) (hname : vs'.name = vs.name)
    (hmodifier : vs'.modifier = vs.modifier) (hsub : vs.labelMatchers ⊆ vs'.labelMatchers) :
  Readable vs'
  := by
  constructor
  case name =>
    rw [hname]
    apply h.name
  case modifier =>
    rw [hmodifier]
    apply h.modifier
  case mem =>
    rw [VectorSelector.nameMatcher, hname]
    apply hsub h.mem

theorem reads_selectorOf {vs : VectorSelector} (h : vs.modifier = ⟨0, none, none⟩) :
  Reads (selectorOf vs.name) Stop (bracesText table (sortedMatchers table vs))
    (readSelector table vs)
  := by
  have hread := (reads_braces table (sortedMatchers table vs)).map
    (f := fun matchers => VectorSelector.mk vs.name
      (matchers ++ [⟨.equal, metricName, vs.name⟩]) ⟨0, none, none⟩)
  have heq : VectorSelector.mk vs.name
      (sortedMatchers table vs ++ [⟨.equal, metricName, vs.name⟩]) ⟨0, none, none⟩
      = readSelector table vs := by
    rw [readSelector, h]
    rfl
  rw [heq] at hread
  apply hread

/-- What may follow the name of a metric: the matchers in braces, or what may follow the vector
selector. -/
theorem ends_bracesText (matchers : List Matcher) {rest : GoString} (h : Stop rest) :
  Ends isMetricByte (bracesText table matchers ++ rest)
  := by
  rw [bracesText]
  split
  · intro b hb
    apply (h b hb).1
  · rintro b ⟨⟩
    rfl

theorem isMetricName_spec {name : GoString} (h : isMetricName name = true) :
  (∃ b rest, name = b :: rest ∧ isDigit b = false) ∧ (∀ b ∈ name, isMetricByte b = true) ∧
    lower name ∉ keywords
  := by
  rw [isMetricName, Bool.and_eq_true, Bool.and_eq_true, decide_eq_true_eq, List.all_eq_true] at h
  obtain ⟨⟨hhead, hall⟩, hkeyword⟩ := h
  refine ⟨?_, hall, hkeyword⟩
  cases name with
  | nil => cases hhead
  | cons b rest =>
    use b, rest, rfl
    have hfirst : (isLetter b || b == 0x3a) = true := hhead
    rw [isDigit]
    grind [isLetter]

theorem reads_metric {name : GoString} (h : isMetricName name = true) :
  Reads (word isMetricByte) (Ends isMetricByte) name name
  := by
  obtain ⟨⟨b, rest, rfl, -⟩, hall, -⟩ := isMetricName_spec h
  apply reads_word (List.cons_ne_nil _ _) hall

theorem reads_selector {vs : VectorSelector} (h : Readable vs) :
  Reads selector Stop (selectorText table vs) (readSelector table vs)
  := by
  rw [selectorText_eq]
  apply ((reads_metric h.name).guarded h.name).bind (f := selectorOf)
    (reads_selectorOf table h.modifier)
  intro rest hrest
  apply ends_bracesText table _ hrest

/-! ### Clauses -/

theorem reads_labels {names : List GoString} (h : ∀ name ∈ names, isClauseLabel name = true) :
  Reads labels (fun _ => True) (labelsText names) names
  := by
  have hlist : Reads (list (str ", ") (str ")") (guarded isClauseLabel (word isLabelByte)))
      (fun _ => True) ((str ", ").intercalate (names.map id) ++ str ")") names := by
    apply reads_list (by decide)
    · intro rest
      apply not_prefix_of_head? (by decide)
      rintro ⟨⟩
    · intro name hname
      have hclause := h name hname
      rw [isClauseLabel, Bool.and_eq_true] at hclause
      obtain ⟨b, tail, rfl, -, hall⟩ := exists_cons_of_isLabelName hclause.1
      apply ((reads_word (List.cons_ne_nil _ _) hall).guarded (h _ hname)).mono
      rintro _ (⟨rest, rfl⟩ | ⟨rest, rfl⟩)
      · rintro b ⟨⟩
        rfl
      · rintro b ⟨⟩
        rfl
    · intro name hname rest
      have hclause := h name hname
      rw [isClauseLabel, Bool.and_eq_true] at hclause
      obtain ⟨b, tail, rfl, hletter, -⟩ := exists_cons_of_isLabelName hclause.1
      apply not_prefix_of_head? (by decide)
      rintro ⟨⟩
      cases hletter
  have hread := (reads_literal (str "(")).bind
    (f := fun _ => list (str ", ") (str ")") (guarded isClauseLabel (word isLabelByte))) hlist
    (fun _ _ => trivial)
  rw [List.map_id, ← List.append_assoc] at hread
  apply hread

/-- The labels in parentheses and a blank. -/
theorem reads_labels_blank {names : List GoString}
    (h : ∀ name ∈ names, isClauseLabel name = true) {α : Type} (a : List GoString → α) :
  Reads (do let names ← labels; literal (str " "); pure (a names)) (fun _ => True)
    (labelsText names ++ str " ") (a names)
  := by
  have hblank := (reads_literal (str " ")).map (f := fun _ => a names)
  apply (reads_labels h).bind
    (f := fun names => do
      literal (str " ")
      pure (a names)) hblank (fun _ _ => trivial)

theorem reads_grouping {names : List GoString} (h : ∀ name ∈ names, isClauseLabel name = true)
    (without : Bool) :
  Reads grouping (str "(" <+: ·) (groupingText names without) (names, without)
  := by
  have hnot : ∀ {text s : GoString}, text ≠ [] → s ≠ [] → text.head? ≠ s.head? →
      ∀ rest, s <+: rest → ¬ text <+: rest := by
    rintro text s htext hs hne _ ⟨rest, rfl⟩
    apply not_prefix_of_head? htext
    rwa [List.head?_append_of_ne_nil _ hs]
  rw [groupingText]
  cases without with
  | true =>
    rw [if_pos rfl, List.append_assoc]
    apply ((reads_labels_blank h (fun names => (names, true))).mono (fun _ _ => trivial)).branch_yes
  | false =>
    rw [if_neg Bool.false_ne_true]
    split
    · rename_i hnil
      rw [hnil]
      apply ((reads_pure _).branch_no _).branch_no
      · intro rest hrest
        apply hnot (by decide) (by decide) (by decide) rest hrest
      · intro rest hrest
        apply hnot (by decide) (by decide) (by decide) rest hrest
    · rw [List.append_assoc]
      apply Reads.branch_no
      · apply ((reads_labels_blank h (fun names => (names, false))).mono
          (fun _ _ => trivial)).branch_yes
      · rintro rest - hprefix
        have hsecond : str "without " <+: str "by " ++ _ := (List.cons_prefix_cons.mp hprefix).2
        apply not_prefix_of_head? (by decide) _ hsecond
        rintro ⟨⟩

/-! ### Operands -/

theorem reads_aggregate (op : AggregateOp) {vs : VectorSelector} (hvs : Readable vs)
    {names : List GoString} (h : ∀ name ∈ names, isClauseLabel name = true) (without : Bool) :
  Reads (aggregate op) (fun _ => True)
    (groupingText names without ++ (str "(" ++ (selectorText table vs ++ str ")")))
    (.aggregateExpr op (.vectorSelector (readSelector table vs)) none names without)
  := by
  have hclose := (reads_literal (str ")")).map
    (f := fun _ => Expr.aggregateExpr op (.vectorSelector (readSelector table vs)) none names
      without)
  have hstop : ∀ rest, Stop (str ")" ++ rest) := by
    rintro rest b ⟨⟩
    use rfl
    rintro ⟨⟩
  have hvector := (reads_selector table hvs).bind
    (f := fun vs => do
      literal (str ")")
      pure (Expr.aggregateExpr op (.vectorSelector vs) none names without)) hclose
    (fun rest _ => hstop rest)
  have hopen := (reads_literal (str "(")).bind
    (f := fun _ => do
      let vs ← selector
      literal (str ")")
      pure (Expr.aggregateExpr op (.vectorSelector vs) none names without)) hvector
    (fun _ _ => trivial)
  apply (reads_grouping h without).bind
    (f := fun group => do
      literal (str "(")
      let vs ← selector
      literal (str ")")
      pure (Expr.aggregateExpr op (.vectorSelector vs) none group.1 group.2)) hopen
  intro rest _
  rw [List.append_assoc]
  apply List.prefix_append

/-- The expressions that are read as operands. -/
inductive Operand : Expr → Prop where
  | number {b : UInt8} (h : isDigit b = true) : Operand (.numberLiteral [b])
  | selector {vs : VectorSelector} (h : Readable vs) : Operand (.vectorSelector vs)
  | aggregate {op : AggregateOp} {vs : VectorSelector} {names : List GoString} {without : Bool}
      (hop : op ∈ aggregates) (hvs : Readable vs)
      (hnames : ∀ name ∈ names, isClauseLabel name = true) :
    Operand (.aggregateExpr op (.vectorSelector vs) none names without)

namespace Operand

variable {expr : Expr}

theorem readable (h : Operand expr) : ∀ vs ∈ expr.selectors, Readable vs := by
  cases h with
  | number _ =>
    rintro vs ⟨⟩
  | selector hvs =>
    intro vs hmem
    rw [List.mem_singleton.mp hmem]
    apply hvs
  | aggregate _ hvs _ =>
    intro vs hmem
    rw [List.mem_singleton.mp hmem]
    apply hvs

/-- An operand with other vector selectors. -/
theorem updateSelectors (h : Operand expr) {f : VectorSelector → VectorSelector}
    (hf : ∀ vs ∈ expr.selectors, Readable (f vs)) :
  Operand (expr.updateSelectors f)
  := by
  cases h with
  | number hdigit => apply Operand.number hdigit
  | selector _ => apply Operand.selector (hf _ List.mem_cons_self)
  | aggregate hop _ hnames => apply Operand.aggregate hop (hf _ List.mem_cons_self) hnames

theorem wellTyped (h : Operand expr) (R : Rules) : expr.wellTyped R = true := by
  cases h with
  | number _ => rfl
  | selector _ => rfl
  | @aggregate op _ _ _ hop _ _ =>
    have htakes : ∀ op ∈ aggregates, op.takes none = true := by decide
    apply htakes op hop

end Operand

theorem find?_aggregateName {op : AggregateOp} (h : op ∈ aggregates) :
  aggregates.find? (fun op' => decide (aggregateName op' = aggregateName op)) = some op
  := by
  revert op
  decide

/-- The names of aggregations are words of the language. -/
theorem find?_of_isMetricName {name : GoString} (h : isMetricName name = true) :
  aggregates.find? (fun op => decide (aggregateName op = name)) = none
  := by
  rw [List.find?_eq_none]
  intro op hop hname
  obtain rfl := of_decide_eq_true hname
  have hkeyword : ∀ op ∈ aggregates, lower (aggregateName op) ∈ keywords := by decide
  apply (isMetricName_spec h).2.2 (hkeyword op hop)

theorem reads_named_selector {vs : VectorSelector} (h : Readable vs) :
  Reads named Stop (selectorText table vs) (.vectorSelector (readSelector table vs))
  := by
  have hread := (reads_selectorOf table h.modifier).map (f := Expr.vectorSelector)
  rw [selectorText_eq]
  apply (reads_metric h.name).bind
  · rw [find?_of_isMetricName h.name]
    dsimp only
    rw [if_pos h.name]
    apply hread
  · intro rest hrest
    apply ends_bracesText table _ hrest

theorem ends_groupingText (names : List GoString) (without : Bool) (rest : GoString) :
  Ends isMetricByte (groupingText names without ++ (str "(" ++ rest))
  := by
  rw [groupingText]
  split
  · rintro b ⟨⟩
    rfl
  · split
    · rintro b ⟨⟩
      rfl
    · rintro b ⟨⟩
      rfl

theorem isMetricByte_aggregateName (op : AggregateOp) :
  ∀ b ∈ aggregateName op, isMetricByte b = true
  := by
  cases op <;> decide +kernel

theorem reads_named_aggregate {op : AggregateOp} (hop : op ∈ aggregates) {vs : VectorSelector}
    (hvs : Readable vs) {names : List GoString} (h : ∀ name ∈ names, isClauseLabel name = true)
    (without : Bool) :
  Reads named Stop
    (aggregateName op
      ++ (groupingText names without ++ (str "(" ++ (selectorText table vs ++ str ")"))))
    (.aggregateExpr op (.vectorSelector (readSelector table vs)) none names without)
  := by
  have hword : Reads (word isMetricByte) (Ends isMetricByte) (aggregateName op)
      (aggregateName op) := by
    apply reads_word
    · revert op
      decide
    · apply isMetricByte_aggregateName
  apply hword.bind
  · rw [find?_aggregateName hop]
    apply (reads_aggregate table op hvs h without).mono (fun _ _ => trivial)
  · intro rest _
    rw [List.append_assoc, List.append_assoc]
    apply ends_groupingText

/-- What begins with no digit is read by its first word. -/
theorem reads_operand_of_named {expr : Expr} {text : GoString}
    (hfirst : ∃ b tail, text = b :: tail ∧ isDigit b = false) (h : Reads named Stop text expr) :
  Reads operand Stop text expr
  := by
  obtain ⟨b, tail, rfl, hdigit⟩ := hfirst
  intro rest hrest
  have hnamed : operand (b :: tail ++ rest) = named (b :: tail ++ rest) := by
    apply if_neg
    rw [hdigit]
    apply Bool.false_ne_true
  rw [hnamed, h rest hrest]

/-- An operand is read from its text, up to the order of matchers. -/
theorem reads_operand {expr : Expr} (h : Operand expr) :
  Reads operand Stop (exprText table expr) (expr.updateSelectors (readSelector table))
  := by
  cases h with
  | number hdigit =>
    intro rest _
    apply if_pos hdigit
  | @selector vs hvs =>
    apply reads_operand_of_named
    · obtain ⟨⟨b, tail, hname, hdigit⟩, -⟩ := isMetricName_spec hvs.name
      use b, tail ++ bracesText table (sortedMatchers table vs)
      rw [exprText, selectorText_eq, hname]
      use rfl
    · apply reads_named_selector table hvs
  | @aggregate op vs names without hop hvs hnames =>
    have htext : exprText table (.aggregateExpr op (.vectorSelector vs) none names without)
        = aggregateName op
          ++ (groupingText names without ++ (str "(" ++ (selectorText table vs ++ str ")"))) := by
      simp only [exprText, List.append_assoc]
    rw [htext]
    apply reads_operand_of_named
    · have hname : ∃ b tail, aggregateName op = b :: tail ∧ isDigit b = false := by
        cases op <;> exact ⟨_, _, rfl, rfl⟩
      obtain ⟨b, tail, hname, hdigit⟩ := hname
      rw [hname]
      exact ⟨b, _, rfl, hdigit⟩
    · apply reads_named_aggregate table hop hvs hnames

/-! ### Chains -/

/-- The clauses that are read from their texts. -/
def ClauseRead (matching : Option VectorMatching) : Prop :=
  ∀ m ∈ matching, m.card = .manyToMany ∧ m.includeLabels = [] ∧
    ∀ name ∈ m.matchingLabels, isClauseLabel name = true

/-- The text of a clause, a blank and the operand that follows. -/
def linkText (next : Option VectorMatching × Expr) : GoString :=
  next.1.elim [] matchingText ++ (str " " ++ exprText table next.2)

/-- A clause and an operand as they are read. -/
def readLink (next : Option VectorMatching × Expr) : VectorMatching × Expr :=
  (next.1.getD plainMatching, next.2.updateSelectors (readSelector table))

/-- The text of an operand begins with a word, which is none of those that begin a clause. -/
theorem exists_word_of_operand {expr : Expr} (h : Operand expr) :
  ∃ first tail, exprText table expr = first ++ tail ∧ (∀ b ∈ first, isMetricByte b = true) ∧
    str "on" ≠ first ∧ str "ignoring" ≠ first ∧
    ∀ rest, Stop rest → Ends isMetricByte (tail ++ rest)
  := by
  cases h with
  | @number b hdigit =>
    refine ⟨[b], [], rfl, ?_, by rintro ⟨⟩, by rintro ⟨⟩, fun rest hrest c hc => (hrest c hc).1⟩
    rintro c hc
    rw [List.mem_singleton.mp hc, isMetricByte, isLabelByte, hdigit, Bool.or_true, Bool.true_or]
  | @selector vs hvs =>
    obtain ⟨-, hall, hkeyword⟩ := isMetricName_spec hvs.name
    refine ⟨vs.name, _, selectorText_eq table vs, hall, ?_, ?_,
      fun rest hrest => ends_bracesText table _ hrest⟩
    · intro heq
      rw [← heq] at hkeyword
      apply hkeyword
      decide
    · intro heq
      rw [← heq] at hkeyword
      apply hkeyword
      decide
  | @aggregate op vs names without hop hvs hnames =>
    use aggregateName op,
      groupingText names without ++ (str "(" ++ (selectorText table vs ++ str ")"))
    refine ⟨?_, isMetricByte_aggregateName op, ?_, ?_, ?_⟩
    · simp only [exprText, List.append_assoc]
    · cases op <;> decide
    · cases op <;> decide
    · intro rest _
      rw [List.append_assoc, List.append_assoc]
      apply ends_groupingText

/-- A clause of which there is no text is not read from an operand. -/
theorem not_prefix_of_operand {expr : Expr} (h : Operand expr) {rest : GoString}
    (hrest : Stop rest) :
  ¬ str " on " <+: str " " ++ exprText table expr ++ rest ∧
    ¬ str " ignoring " <+: str " " ++ exprText table expr ++ rest
  := by
  obtain ⟨first, tail, htext, hall, hon, hignoring, hends⟩ := exists_word_of_operand table h
  rw [htext, List.append_assoc, List.append_assoc]
  constructor
  · intro hprefix
    have hword : str "on" ++ 0x20 :: [] <+: first ++ (tail ++ rest) :=
      (List.cons_prefix_cons.mp hprefix).2
    apply not_prefix_of_word_ne (by decide +kernel) rfl hall (hends rest hrest) hon hword
  · intro hprefix
    have hword : str "ignoring" ++ 0x20 :: [] <+: first ++ (tail ++ rest) :=
      (List.cons_prefix_cons.mp hprefix).2
    apply not_prefix_of_word_ne (by decide +kernel) rfl hall (hends rest hrest) hignoring hword

/-- The blank and the operand after a clause. -/
theorem reads_right {expr : Expr} (h : Operand expr) (m : VectorMatching) :
  Reads (do literal (str " "); let rhs ← operand; pure (m, rhs)) Stop
    (str " " ++ exprText table expr) (m, expr.updateSelectors (readSelector table))
  := by
  have hoperand := (reads_operand table h).map (f := fun rhs => (m, rhs))
  apply (reads_literal (str " ")).bind
    (f := fun _ => do
      let rhs ← operand
      pure (m, rhs)) hoperand (fun _ _ => trivial)

/-- No clause follows. -/
def NoClause (rest : GoString) : Prop := ¬ str " on " <+: rest ∧ ¬ str " ignoring " <+: rest

theorem reads_clause {matching : Option VectorMatching} (h : ClauseRead matching) :
  Reads clause NoClause (matching.elim [] matchingText) (matching.getD plainMatching)
  := by
  have hplain : Reads clause NoClause [] plainMatching := by
    apply ((reads_pure plainMatching).branch_no _).branch_no
    · intro rest hrest
      apply hrest.1
    · intro rest hrest
      apply hrest.2
  cases matching with
  | none => apply hplain
  | some m =>
    obtain ⟨hcard, hinclude, hnames⟩ := h m rfl
    obtain ⟨card, names, on, labels'⟩ := m
    obtain rfl : card = .manyToMany := hcard
    obtain rfl : labels' = [] := hinclude
    have hlabels := (reads_labels hnames).mono (G := NoClause) (fun _ _ => trivial)
    cases on with
    | true =>
      have hmap := hlabels.map (f := fun names => VectorMatching.mk .manyToMany names true [])
      apply hmap.branch_yes
    | false =>
      have hmap := hlabels.map (f := fun names => VectorMatching.mk .manyToMany names false [])
      by_cases hnil : names = []
      · rw [hnil]
        apply hplain
      · have htext : matchingText ⟨.manyToMany, names, false, []⟩
            = str " ignoring " ++ labelsText names := by
          rw [matchingText, if_neg Bool.false_ne_true, if_neg hnil]
        rw [Option.elim_some, htext]
        apply (hmap.branch_yes _).branch_no
        rintro rest - hprefix
        have hsecond : str "on " <+: str "ignoring " ++ labelsText names ++ rest :=
          (List.cons_prefix_cons.mp hprefix).2
        apply not_prefix_of_head? (by decide) _ hsecond
        rintro ⟨⟩

theorem reads_link {next : Option VectorMatching × Expr} (hclause : ClauseRead next.1)
    (h : Operand next.2) :
  Reads link Stop (linkText table next) (readLink table next)
  := by
  apply (reads_clause hclause).bind
    (f := fun m => do
      literal (str " ")
      let rhs ← operand
      pure (m, rhs)) (reads_right table h _)
  intro rest hrest
  apply not_prefix_of_operand table h hrest

theorem exprText_chainOf (first : Expr) (links : List (Option VectorMatching × Expr)) :
  exprText table (chainOf first links)
    = exprText table first ++ itemsText (str " or") (linkText table) links
  := by
  induction links generalizing first with
  | nil => rw [chainOf, List.foldl_nil, itemsText, List.flatMap_nil, List.append_nil]
  | cons next links ih =>
    have hcons : chainOf first (next :: links)
        = chainOf (.binaryExpr .lor first next.2 next.1 false) links := rfl
    rw [hcons, ih, itemsText_cons, exprText, clauseText, linkText]
    simp only [List.append_assoc]

/-- A chain as it is read from its text. -/
def readChain (first : Expr) (links : List (Option VectorMatching × Expr)) : Expr :=
  chainOf (first.updateSelectors (readSelector table))
    (links.map (fun next => (some (readLink table next).1, (readLink table next).2)))

/-- A chain is read from its text, up to the order of matchers. -/
theorem chain_exprText {first : Expr} (hfirst : Operand first)
    {links : List (Option VectorMatching × Expr)}
    (hlinks : ∀ next ∈ links, ClauseRead next.1 ∧ Operand next.2) :
  chain (exprText table (chainOf first links)) = some (readChain table first links, [])
  := by
  have hstop : ∀ rest, Next (str " or") (· = []) rest → Stop rest := by
    rintro _ (⟨rest, rfl⟩ | rfl)
    · rintro b ⟨⟩
      use rfl
      rintro ⟨⟩
    · rintro b ⟨⟩
  have hnot : ∀ rest : GoString, rest = [] → ¬ str " or" <+: rest := by
    rintro _ rfl hprefix
    cases List.prefix_nil.mp hprefix
  have hitems : Reads (items (str " or") link) (· = []) (itemsText (str " or") (linkText table)
      links) (links.map (readLink table)) := by
    apply reads_items (by decide) hnot
    intro next hnext
    apply (reads_link table (hlinks next hnext).1 (hlinks next hnext).2).mono hstop
  have hread := ((reads_operand table hfirst).mono hstop).bind
    (f := fun first => do
      let links ← items (str " or") link
      pure (chainOf first (links.map (fun next => (some next.1, next.2))))) hitems.map
    (fun rest hrest => next_itemsText _ links hrest) [] rfl
  rw [List.append_nil, ← exprText_chainOf, List.map_map] at hread
  apply hread

/-- A chain is accepted exactly if what is read from its text passes the checks. -/
theorem parseExpr_chainOf (R : Rules) {first : Expr} (hfirst : Operand first)
    {links : List (Option VectorMatching × Expr)}
    (hlinks : ∀ next ∈ links, ClauseRead next.1 ∧ Operand next.2) (expr : Expr) :
  (textParser table R).parseExpr (exprText table (chainOf first links)) = .ok expr ↔
    accepts R (readChain table first links) = true ∧ expr = readChain table first links
  := by
  have hparse : (textParser table R).parseExpr (exprText table (chainOf first links))
      = if accepts R (readChain table first links) then .ok (readChain table first links)
        else .error (.library "parse error") := by
    rw [textParser]
    simp only [chain_exprText table hfirst hlinks]
  rw [hparse]
  split
  · rename_i haccepts
    rw [Except.ok.injEq, and_iff_right haccepts, eq_comm]
  · rename_i haccepts
    simp [haccepts]

/-- An operand is accepted exactly if its vector selectors are. -/
theorem parseExpr_operand (R : Rules) {operand : Expr} (h : Operand operand) (expr : Expr) :
  (textParser table R).parseExpr (exprText table operand) = .ok expr ↔
    (∀ vs ∈ operand.selectors, R.acceptsSelector vs = true) ∧
      expr = operand.updateSelectors (readSelector table)
  := by
  have haccepts : accepts R (operand.updateSelectors (readSelector table)) = true ↔
      ∀ vs ∈ operand.selectors, R.acceptsSelector vs = true := by
    rw [accepts, wellTyped_updateSelectors, h.wellTyped, Bool.true_and, selectors_updateSelectors,
      List.all_map, List.all_eq_true]
    apply forall₂_congr
    intro vs hvs
    rw [Function.comp_apply,
      Rules.acceptsSelector_same (same_readSelector table (h.readable vs hvs))]
  rw [← haccepts]
  have hnone : ∀ next ∈ ([] : List (Option VectorMatching × Expr)),
      ClauseRead next.1 ∧ Operand next.2 := List.forall_mem_nil _
  apply parseExpr_chainOf table R h hnone

/-- An accepted operand is read again from its text. -/
theorem reparses_operand (R : Rules) {operand : Expr} (h : Operand operand)
    (haccepts : ∀ vs ∈ operand.selectors, R.acceptsSelector vs = true) :
  (textParser table R).Reparses operand
  := by
  use operand.updateSelectors (readSelector table)
  constructor
  · apply (parseExpr_operand table R h _).mpr ⟨haccepts, rfl⟩
  · use readSelector table, rfl
    intro vs hvs
    apply same_readSelector table (h.readable vs hvs)

end

/-! ### Queries without functions -/

/-- No functions, all names of labels, and words as regular expressions. -/
def wordRules : Rules where
  functions _ := none
  validName _ := true
  compiles pattern := pattern.all isLabelByte
  regexp pattern value := pattern == value

/-- The parser of queries without functions. -/
def wordParser : Parser := textParser (fun _ => false) wordRules

end QueryText

end PromQL

end VmProxyAuth
