import VmProxyAuth.Tenant.Evaluation

/-!
# Types of PromQL expressions

The checks the Prometheus parser makes of a syntax tree.  Every expression has a type; what an
operator, a function or an aggregation accepts depends only on the types of its operands and,
between instant vectors, on the matching clause.  A vector selector has readable matchers, one
metric name, and a matcher that rejects the empty label value.

Changing vector selectors changes neither the type of an expression nor whether it is well
typed (`type_updateSelectors`, `wellTyped_updateSelectors`).
-/

namespace VmProxyAuth

namespace PromQL

/-! ### Types -/

/-- The type of the value of an expression. -/
inductive ValueType where
  | none
  | scalar
  | string
  | vector
  | matrix
  deriving DecidableEq, Repr

/-- What a function takes and returns.  With `variadic` the last argument may be left out or
given several times, at most `variadic` times if this is positive. -/
structure Signature where
  argTypes : List ValueType
  variadic : ℤ
  returnType : ValueType
  deriving DecidableEq, Repr

/-- What the checks of the parser depend on: the functions, which names of labels are valid,
which regular expressions compile, and what these match. -/
structure Rules where
  functions : GoString → Option Signature
  validName : GoString → Bool
  compiles : GoString → Bool
  regexp : GoString → GoString → Bool

/-- `Type`. -/
def Expr.type (R : Rules) : Expr → ValueType
  | .numberLiteral _ => .scalar
  | .stringLiteral _ => .string
  | .vectorSelector _ => .vector
  | .matrixSelector _ _ => .matrix
  | .subqueryExpr _ _ _ _ => .matrix
  | .call func _ => ((R.functions func).map Signature.returnType).getD .none
  | .aggregateExpr _ _ _ _ _ => .vector
  | .binaryExpr _ lhs rhs _ _ =>
    if lhs.type R = .scalar ∧ rhs.type R = .scalar then .scalar else .vector
  | .unaryExpr _ expr => expr.type R
  | .parenExpr expr => expr.type R
  | .stepInvariantExpr expr => expr.type R

/-! ### Well-typed expressions -/

/-- Whether a function can be called with arguments of the given types. -/
def Signature.takes (s : Signature) (types : List ValueType) : Bool :=
  (if s.variadic = 0 then decide (types.length = s.argTypes.length)
    else decide (s.argTypes.length ≤ types.length + 1) &&
      (decide (s.variadic < 0) ||
        decide ((types.length : ℤ) ≤ s.argTypes.length - 1 + s.variadic))) &&
    (types.zipIdx.all fun (type, i) =>
      s.argTypes[min i (s.argTypes.length - 1)]? == some type)

/-- Whether an aggregation can have a parameter of the given type. -/
def AggregateOp.takes (op : AggregateOp) (param : Option ValueType) : Bool :=
  match op with
  | .topk | .bottomk | .quantile | .limitk | .limitRatio => param == some .scalar
  | .countValues => param == some .string
  | _ => param == none

/-- Whether an operator is a comparison. -/
def BinaryOp.isComparison : BinaryOp → Bool
  | .eqlc | .neq | .lss | .gtr | .lte | .gte => true
  | _ => false

/-- Whether an operator between instant vectors can have a matching clause. -/
def VectorMatching.allowed (op : BinaryOp) (m : VectorMatching) : Bool :=
  (!m.on || m.matchingLabels.all (fun label => decide (label ∉ m.includeLabels))) &&
    (!op.isSetOperator || m.card == .manyToMany)

/-- Whether an operator can have operands of the given types. -/
def BinaryOp.takes (op : BinaryOp) (lhs rhs : ValueType) (matching : Option VectorMatching)
    (returnBool : Bool) : Bool :=
  (!returnBool || op.isComparison) &&
    (lhs == .scalar || lhs == .vector) && (rhs == .scalar || rhs == .vector) &&
    (!(op.isComparison && lhs == .scalar && rhs == .scalar) || returnBool) &&
    (!op.isSetOperator || lhs == .vector && rhs == .vector) &&
    matching.all (fun m =>
      if lhs = .vector ∧ rhs = .vector then m.allowed op else m.matchingLabels.isEmpty)

mutual

/-- Whether the types in an expression fit together. -/
def Expr.wellTyped (R : Rules) : Expr → Bool
  | .numberLiteral _ => true
  | .stringLiteral _ => true
  | .vectorSelector _ => true
  | .matrixSelector _ _ => true
  | .subqueryExpr expr _ _ _ => expr.wellTyped R && expr.type R == .vector
  | .call func args =>
    wellTypedList R args &&
      (R.functions func).any (fun s => s.takes (args.map (Expr.type R)))
  | .aggregateExpr op expr param _ _ =>
    expr.wellTyped R && expr.type R == .vector &&
      (wellTypedOption R param && op.takes (param.map (Expr.type R)))
  | .binaryExpr op lhs rhs matching returnBool =>
    lhs.wellTyped R && rhs.wellTyped R &&
      op.takes (lhs.type R) (rhs.type R) matching returnBool
  | .unaryExpr _ expr =>
    expr.wellTyped R && (expr.type R == .scalar || expr.type R == .vector)
  | .parenExpr expr => expr.wellTyped R
  | .stepInvariantExpr expr => expr.wellTyped R

/-- Whether the types in the arguments fit together. -/
def wellTypedList (R : Rules) : List Expr → Bool
  | [] => true
  | expr :: args => expr.wellTyped R && wellTypedList R args

/-- Whether the types in an optional parameter fit together. -/
def wellTypedOption (R : Rules) : Option Expr → Bool
  | none => true
  | some expr => expr.wellTyped R

end

section

variable (R : Rules) (f : VectorSelector → VectorSelector)

/-- Changing vector selectors does not change the type of an expression. -/
theorem type_updateSelectors (expr : Expr) :
  (expr.updateSelectors f).type R = expr.type R
  := by
  fun_induction Expr.type R expr with
  | case8 op lhs rhs matching returnBool h ihl ihr =>
    rw [Expr.updateSelectors, Expr.type, ihl, ihr, if_pos h]
  | case9 op lhs rhs matching returnBool h ihl ihr =>
    rw [Expr.updateSelectors, Expr.type, ihl, ihr, if_neg h]
  | case10 op expr ih => apply ih
  | case11 expr ih => apply ih
  | case12 expr ih => apply ih
  | _ => rfl

theorem map_type_updateSelectorsList (args : List Expr) :
  (updateSelectorsList f args).map (Expr.type R) = args.map (Expr.type R)
  := by
  induction args with
  | nil => rfl
  | cons expr args ih =>
    rw [updateSelectorsList, List.map_cons, List.map_cons, ih, type_updateSelectors]

theorem map_type_updateSelectorsOption (param : Option Expr) :
  (updateSelectorsOption f param).map (Expr.type R) = param.map (Expr.type R)
  := by
  cases param with
  | none => rfl
  | some expr =>
    rw [updateSelectorsOption, Option.map_some, Option.map_some, type_updateSelectors]

mutual

/-- Changing vector selectors does not change whether an expression is well typed. -/
theorem wellTyped_updateSelectors :
  ∀ expr : Expr, (expr.updateSelectors f).wellTyped R = expr.wellTyped R
  | .numberLiteral _ => rfl
  | .stringLiteral _ => rfl
  | .vectorSelector _ => rfl
  | .matrixSelector _ _ => rfl
  | .subqueryExpr expr _ _ _ => by
      rw [Expr.updateSelectors, Expr.wellTyped, Expr.wellTyped, wellTyped_updateSelectors expr,
        type_updateSelectors]
  | .call _ args => by
      rw [Expr.updateSelectors, Expr.wellTyped, Expr.wellTyped,
        wellTypedList_updateSelectors args, map_type_updateSelectorsList]
  | .aggregateExpr _ expr param _ _ => by
      rw [Expr.updateSelectors, Expr.wellTyped, Expr.wellTyped, wellTyped_updateSelectors expr,
        wellTypedOption_updateSelectors param, type_updateSelectors,
        map_type_updateSelectorsOption]
  | .binaryExpr _ lhs rhs _ _ => by
      rw [Expr.updateSelectors, Expr.wellTyped, Expr.wellTyped, wellTyped_updateSelectors lhs,
        wellTyped_updateSelectors rhs, type_updateSelectors, type_updateSelectors]
  | .unaryExpr _ expr => by
      rw [Expr.updateSelectors, Expr.wellTyped, Expr.wellTyped, wellTyped_updateSelectors expr,
        type_updateSelectors]
  | .parenExpr expr => wellTyped_updateSelectors expr
  | .stepInvariantExpr expr => wellTyped_updateSelectors expr

theorem wellTypedList_updateSelectors :
  ∀ args : List Expr, wellTypedList R (updateSelectorsList f args) = wellTypedList R args
  | [] => rfl
  | expr :: args => by
      rw [updateSelectorsList, wellTypedList, wellTypedList, wellTyped_updateSelectors expr,
        wellTypedList_updateSelectors args]

theorem wellTypedOption_updateSelectors :
  ∀ param : Option Expr,
    wellTypedOption R (updateSelectorsOption f param) = wellTypedOption R param
  | none => rfl
  | some expr => wellTyped_updateSelectors expr

end

end

/-- The operands of a well-typed `or` are well-typed instant vectors. -/
theorem wellTyped_or {R : Rules} {lhs rhs : Expr} {matching : Option VectorMatching}
    {returnBool : Bool}
    (h : (Expr.binaryExpr .lor lhs rhs matching returnBool).wellTyped R = true) :
  (lhs.type R = .vector ∧ rhs.type R = .vector) ∧ returnBool = false
  := by
  rw [Expr.wellTyped, BinaryOp.takes] at h
  simp only [BinaryOp.isComparison, BinaryOp.isSetOperator, Bool.and_eq_true, Bool.or_eq_true,
    Bool.not_eq_true', beq_iff_eq, Bool.false_eq_true, or_false, Bool.not_true, false_or] at h
  use h.2.1.2
  apply h.2.1.1.1.1.1

/-! ### Vector selectors -/

namespace Rules

variable (R : Rules)

/-- Whether a label matcher can be read. -/
def acceptsMatcher (m : Matcher) : Bool :=
  R.validName m.name &&
    match m.type with
    | .equal | .notEqual => true
    | .regexp | .notRegexp => R.compiles m.value

end Rules

/-- The matcher for the metric name in front of the braces. -/
def VectorSelector.nameMatcher (vs : VectorSelector) : Matcher := ⟨.equal, metricName, vs.name⟩

/-- Whether a matcher is not a second metric name. -/
def VectorSelector.allowsMatcher (vs : VectorSelector) (m : Matcher) : Bool :=
  vs.name == [] || m.name != metricName || m == vs.nameMatcher

namespace Rules

variable (R : Rules)

/-- Whether a vector selector passes the checks of the parser: its matchers can be read, and it
has a single metric name, or without one a matcher that rejects the empty value. -/
def acceptsSelector (vs : VectorSelector) : Bool :=
  vs.labelMatchers.all (fun m => R.acceptsMatcher m && vs.allowsMatcher m) &&
    if vs.name = [] then vs.labelMatchers.any (fun m => !m.matches R.regexp (fun _ => []))
    else decide (vs.nameMatcher ∈ vs.labelMatchers)

/-- An expression passes the checks of the parser. -/
structure Accepts (expr : Expr) : Prop where
  wellTyped : expr.wellTyped R = true
  selectors : ∀ vs ∈ expr.selectors, R.acceptsSelector vs = true

variable {R}

/-- Whether a vector selector is accepted does not depend on the order of its matchers. -/
theorem acceptsSelector_same {vs vs' : VectorSelector} (h : vs.Same vs') :
  R.acceptsSelector vs = R.acceptsSelector vs'
  := by
  have hallows : vs.allowsMatcher = vs'.allowsMatcher := by
    funext m
    rw [VectorSelector.allowsMatcher, VectorSelector.allowsMatcher, VectorSelector.nameMatcher,
      VectorSelector.nameMatcher, h.name]
  have hname : vs.nameMatcher = vs'.nameMatcher := by
    rw [VectorSelector.nameMatcher, VectorSelector.nameMatcher, h.name]
  rw [Bool.eq_iff_iff, acceptsSelector, acceptsSelector, hallows, hname, h.name]
  simp only [Bool.and_eq_true, List.all_eq_true, List.any_eq_true, decide_eq_true_eq,
    Bool.ite_eq_true_distrib, h.mem_iff]

/-- An accepted vector selector with further matchers is accepted exactly if they can be read
and none of them is a second metric name. -/
theorem acceptsSelector_addMatchers {vs : VectorSelector} (h : R.acceptsSelector vs = true)
    (ms : List Matcher) :
  R.acceptsSelector (vs.addMatchers ms) = true ↔
    ∀ m ∈ ms, R.acceptsMatcher m = true ∧ vs.allowsMatcher m = true
  := by
  rw [acceptsSelector, Bool.and_eq_true, List.all_eq_true] at h
  have hname : (if vs.name = [] then
      (vs.labelMatchers ++ ms).any (fun m => !m.matches R.regexp (fun _ => []))
      else decide (vs.nameMatcher ∈ vs.labelMatchers ++ ms)) = true := by
    split
    · rename_i hempty
      rw [if_pos hempty] at h
      rw [List.any_append, h.2, Bool.true_or]
    · rename_i hempty
      rw [if_neg hempty, decide_eq_true_eq] at h
      rw [decide_eq_true_eq]
      apply List.mem_append_left _ h.2
  rw [acceptsSelector, Bool.and_eq_true]
  constructor
  · rintro ⟨hall, -⟩ m hm
    have happ := List.all_eq_true.mp hall m (List.mem_append_right _ hm)
    rw [Bool.and_eq_true] at happ
    apply happ
  · intro hms
    use List.all_eq_true.mpr (fun m hm => ?_), hname
    obtain hm | hm := List.mem_append.mp hm
    · apply h.1 m hm
    · rw [Bool.and_eq_true]
      apply hms m hm

end Rules

end PromQL

end VmProxyAuth
