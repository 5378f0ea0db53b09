import VmProxyAuth.Domain

/-!
# PromQL expressions

The syntax trees of the Prometheus parser, the vector selectors occurring in them, and
which series a vector selector matches.  `Expr.updateSelectors` is a walk over a tree
that changes its vector selectors in place; the selectors occurring afterwards are those
that occurred before, changed (`selectors_updateSelectors`).  The text of an expression lists the
matchers of a vector selector in an order of its own, so an expression is read from its text up to
the order of matchers (`Parser.Reparses`).
-/

namespace VmProxyAuth

namespace PromQL

/-- The comparison a label matcher makes. -/
inductive MatchType where
  | equal
  | notEqual
  | regexp
  | notRegexp
  deriving DecidableEq, Repr

/-- A label matcher. -/
structure Matcher where
  type : MatchType
  name : GoString
  value : GoString
  deriving DecidableEq, Repr

/-- A modifier `@ start()` or `@ end()`. -/
inductive StartOrEnd where
  | start
  | stop
  deriving DecidableEq, Repr

/-- The `offset` and `@` modifiers of a selector or a subquery. -/
structure TimeModifier where
  originalOffset : ℤ
  timestamp : Option ℤ
  startOrEnd : Option StartOrEnd
  deriving DecidableEq, Repr

/-- A vector selector.  The metric name is also one of the matchers, on the label
`__name__`. -/
structure VectorSelector where
  name : GoString
  labelMatchers : List Matcher
  modifier : TimeModifier
  deriving DecidableEq, Repr

/-- A unary operator. -/
inductive UnaryOp where
  | add
  | sub
  deriving DecidableEq, Repr

/-- A binary operator. -/
inductive BinaryOp where
  | add | sub | mul | div | mod | pow | atan2
  | eqlc | neq | lss | gtr | lte | gte
  | land | lor | lunless
  deriving DecidableEq, Repr

/-- An aggregation operator. -/
inductive AggregateOp where
  | sum | avg | count | min | max | group | stddev | stdvar
  | topk | bottomk | countValues | quantile | limitk | limitRatio
  deriving DecidableEq, Repr

/-- How many elements a binary operation pairs on each side. -/
inductive VectorMatchCardinality where
  | oneToOne
  | manyToOne
  | oneToMany
  | manyToMany
  deriving DecidableEq, Repr

/-- The matching clause of a binary operation between vectors. -/
structure VectorMatching where
  card : VectorMatchCardinality
  matchingLabels : List GoString
  on : Bool
  includeLabels : List GoString
  deriving DecidableEq, Repr

/-- A PromQL expression.  Number literals are kept as the text of their value. -/
inductive Expr where
  | numberLiteral (val : GoString)
  | stringLiteral (val : GoString)
  | vectorSelector (vs : VectorSelector)
  | matrixSelector (vs : VectorSelector) (range : ℤ)
  | subqueryExpr (expr : Expr) (range step : ℤ) (modifier : TimeModifier)
  | call (func : GoString) (args : List Expr)
  | aggregateExpr (op : AggregateOp) (expr : Expr) (param : Option Expr)
      (grouping : List GoString) (without : Bool)
  | binaryExpr (op : BinaryOp) (lhs rhs : Expr) (matching : Option VectorMatching)
      (returnBool : Bool)
  | unaryExpr (op : UnaryOp) (expr : Expr)
  | parenExpr (expr : Expr)
  | stepInvariantExpr (expr : Expr)

/-! ### Walking over an expression -/

mutual

/-- The vector selectors occurring in an expression, in the order of a walk over it. -/
def Expr.selectors : Expr → List VectorSelector
  | .numberLiteral _ => []
  | .stringLiteral _ => []
  | .vectorSelector vs => [vs]
  | .matrixSelector vs _ => [vs]
  | .subqueryExpr expr _ _ _ => expr.selectors
  | .call _ args => selectorsList args
  | .aggregateExpr _ expr param _ _ => expr.selectors ++ selectorsOption param
  | .binaryExpr _ lhs rhs _ _ => lhs.selectors ++ rhs.selectors
  | .unaryExpr _ expr => expr.selectors
  | .parenExpr expr => expr.selectors
  | .stepInvariantExpr expr => expr.selectors

/-- The vector selectors occurring in a list of arguments. -/
def selectorsList : List Expr → List VectorSelector
  | [] => []
  | expr :: args => expr.selectors ++ selectorsList args

/-- The vector selectors occurring in an optional parameter. -/
def selectorsOption : Option Expr → List VectorSelector
  | none => []
  | some expr => expr.selectors

end

mutual

/-- `parser.Inspect` with a function that changes every vector selector in place. -/
def Expr.updateSelectors (f : VectorSelector → VectorSelector) : Expr → Expr
  | .numberLiteral val => .numberLiteral val
  | .stringLiteral val => .stringLiteral val
  | .vectorSelector vs => .vectorSelector (f vs)
  | .matrixSelector vs range => .matrixSelector (f vs) range
  | .subqueryExpr expr range step modifier =>
    .subqueryExpr (expr.updateSelectors f) range step modifier
  | .call func args => .call func (updateSelectorsList f args)
  | .aggregateExpr op expr param grouping without =>
    .aggregateExpr op (expr.updateSelectors f) (updateSelectorsOption f param) grouping without
  | .binaryExpr op lhs rhs matching returnBool =>
    .binaryExpr op (lhs.updateSelectors f) (rhs.updateSelectors f) matching returnBool
  | .unaryExpr op expr => .unaryExpr op (expr.updateSelectors f)
  | .parenExpr expr => .parenExpr (expr.updateSelectors f)
  | .stepInvariantExpr expr => .stepInvariantExpr (expr.updateSelectors f)

/-- The walk over a list of arguments. -/
def updateSelectorsList (f : VectorSelector → VectorSelector) : List Expr → List Expr
  | [] => []
  | expr :: args => expr.updateSelectors f :: updateSelectorsList f args

/-- The walk over an optional parameter. -/
def updateSelectorsOption (f : VectorSelector → VectorSelector) : Option Expr → Option Expr
  | none => none
  | some expr => some (expr.updateSelectors f)

end

mutual

/-- After a walk that changes the vector selectors, those occurring are the ones that
occurred before, changed. -/
theorem selectors_updateSelectors (f : VectorSelector → VectorSelector) :
  ∀ expr : Expr, (expr.updateSelectors f).selectors = expr.selectors.map f
  | .numberLiteral _ => rfl
  | .stringLiteral _ => rfl
  | .vectorSelector _ => rfl
  | .matrixSelector _ _ => rfl
  | .subqueryExpr expr _ _ _ => selectors_updateSelectors f expr
  | .call _ args => selectors_updateSelectorsList f args
  | .aggregateExpr _ expr param _ _ => by
      rw [Expr.updateSelectors, Expr.selectors, Expr.selectors, List.map_append,
        selectors_updateSelectors f expr, selectors_updateSelectorsOption f param]
  | .binaryExpr _ lhs rhs _ _ => by
      rw [Expr.updateSelectors, Expr.selectors, Expr.selectors, List.map_append,
        selectors_updateSelectors f lhs, selectors_updateSelectors f rhs]
  | .unaryExpr _ expr => selectors_updateSelectors f expr
  | .parenExpr expr => selectors_updateSelectors f expr
  | .stepInvariantExpr expr => selectors_updateSelectors f expr

theorem selectors_updateSelectorsList (f : VectorSelector → VectorSelector) :
  ∀ args : List Expr,
    selectorsList (updateSelectorsList f args) = (selectorsList args).map f
  | [] => rfl
  | expr :: args => by
      rw [updateSelectorsList, selectorsList, selectorsList, List.map_append,
        selectors_updateSelectors f expr, selectors_updateSelectorsList f args]

theorem selectors_updateSelectorsOption (f : VectorSelector → VectorSelector) :
  ∀ param : Option Expr,
    selectorsOption (updateSelectorsOption f param) = (selectorsOption param).map f
  | none => rfl
  | some expr => selectors_updateSelectors f expr

end

mutual

/-- One walk after another is a walk. -/
theorem updateSelectors_updateSelectors (f g : VectorSelector → VectorSelector) :
  ∀ expr : Expr, (expr.updateSelectors f).updateSelectors g = expr.updateSelectors (g ∘ f)
  | .numberLiteral _ => rfl
  | .stringLiteral _ => rfl
  | .vectorSelector _ => rfl
  | .matrixSelector _ _ => rfl
  | .subqueryExpr expr _ _ _ => by
      simp only [Expr.updateSelectors, updateSelectors_updateSelectors f g expr]
  | .call _ args => by
      simp only [Expr.updateSelectors, updateSelectorsList_updateSelectorsList f g args]
  | .aggregateExpr _ expr param _ _ => by
      simp only [Expr.updateSelectors, updateSelectors_updateSelectors f g expr,
        updateSelectorsOption_updateSelectorsOption f g param]
  | .binaryExpr _ lhs rhs _ _ => by
      simp only [Expr.updateSelectors, updateSelectors_updateSelectors f g lhs,
        updateSelectors_updateSelectors f g rhs]
  | .unaryExpr _ expr => by
      simp only [Expr.updateSelectors, updateSelectors_updateSelectors f g expr]
  | .parenExpr expr => by
      simp only [Expr.updateSelectors, updateSelectors_updateSelectors f g expr]
  | .stepInvariantExpr expr => by
      simp only [Expr.updateSelectors, updateSelectors_updateSelectors f g expr]

theorem updateSelectorsList_updateSelectorsList (f g : VectorSelector → VectorSelector) :
  ∀ args : List Expr,
    updateSelectorsList g (updateSelectorsList f args) = updateSelectorsList (g ∘ f) args
  | [] => rfl
  | expr :: args => by
      simp only [updateSelectorsList, updateSelectors_updateSelectors f g expr,
        updateSelectorsList_updateSelectorsList f g args]

theorem updateSelectorsOption_updateSelectorsOption (f g : VectorSelector → VectorSelector) :
  ∀ param : Option Expr,
    updateSelectorsOption g (updateSelectorsOption f param) = updateSelectorsOption (g ∘ f) param
  | none => rfl
  | some expr => by
      simp only [updateSelectorsOption, updateSelectors_updateSelectors f g expr]

end

/-! ### Matching series -/

/-- A series, as the values of its labels: empty for a label it does not have. -/
abbrev Series : Type := GoString → GoString

/-- Whether a matcher accepts a series, where `re pattern value` tells whether the
anchored regular expression `pattern` matches `value`. -/
def Matcher.matches (re : GoString → GoString → Bool) (m : Matcher) (s : Series) : Bool :=
  match m.type with
  | .equal => s m.name == m.value
  | .notEqual => s m.name != m.value
  | .regexp => re m.value (s m.name)
  | .notRegexp => !re m.value (s m.name)

/-- Whether a vector selector matches a series: all its matchers accept it. -/
def VectorSelector.selects (re : GoString → GoString → Bool) (vs : VectorSelector)
    (s : Series) : Bool :=
  vs.labelMatchers.all (fun m => m.matches re s)

/-- A vector selector with further matchers. -/
def VectorSelector.addMatchers (vs : VectorSelector) (ms : List Matcher) : VectorSelector :=
  { vs with labelMatchers := vs.labelMatchers ++ ms }

/-- Further matchers restrict the series matched to those they all accept. -/
theorem selects_addMatchers (re : GoString → GoString → Bool) (vs : VectorSelector)
    (ms : List Matcher) (s : Series) :
  (vs.addMatchers ms).selects re s ↔ vs.selects re s ∧ ∀ m ∈ ms, m.matches re s
  := by
  rw [VectorSelector.selects, VectorSelector.addMatchers, List.all_append, Bool.and_eq_true,
    List.all_eq_true (l := ms)]
  rfl

/-! ### The order of matchers -/

/-- Two vector selectors that differ at most in the order of their matchers. -/
structure VectorSelector.Same (vs vs' : VectorSelector) : Prop where
  name : vs.name = vs'.name
  mem_iff : ∀ m, m ∈ vs.labelMatchers ↔ m ∈ vs'.labelMatchers
  modifier : vs.modifier = vs'.modifier

namespace VectorSelector.Same

theorem refl (vs : VectorSelector) : vs.Same vs := ⟨rfl, fun _ => Iff.rfl, rfl⟩

theorem trans {vs vs' vs'' : VectorSelector} (h : vs.Same vs') (h' : vs'.Same vs'') :
  vs.Same vs''
  := ⟨h.name.trans h'.name, fun m => (h.mem_iff m).trans (h'.mem_iff m),
    h.modifier.trans h'.modifier⟩

theorem selects_eq {vs vs' : VectorSelector} (h : vs.Same vs') (re : GoString → GoString → Bool)
    (s : Series) :
  vs.selects re s = vs'.selects re s
  := by
  rw [Bool.eq_iff_iff, VectorSelector.selects, VectorSelector.selects, List.all_eq_true,
    List.all_eq_true]
  simp only [h.mem_iff]

theorem addMatchers {vs vs' : VectorSelector} (h : vs.Same vs') (ms : List Matcher) :
  (vs.addMatchers ms).Same (vs'.addMatchers ms)
  := by
  use h.name
  · intro m
    rw [VectorSelector.addMatchers, VectorSelector.addMatchers, List.mem_append, List.mem_append,
      h.mem_iff]
  · apply h.modifier

end VectorSelector.Same

/-- An expression that differs from another one at most in the order of the matchers of its vector
selectors. -/
def Expr.Same (expr clone : Expr) : Prop :=
  ∃ reorder, clone = expr.updateSelectors reorder ∧ ∀ vs ∈ expr.selectors, (reorder vs).Same vs

/-- The Prometheus parser and the text of its expressions. -/
structure Parser where
  parseExpr : GoString → Except GoError Expr
  exprString : Expr → GoString

/-- The text of an expression is read as the expression, up to the order of matchers. -/
def Parser.Reparses (P : Parser) (expr : Expr) : Prop :=
  ∃ clone, P.parseExpr (P.exprString expr) = .ok clone ∧ expr.Same clone

end PromQL

end VmProxyAuth
