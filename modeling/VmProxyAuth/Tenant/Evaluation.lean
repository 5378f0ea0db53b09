import VmProxyAuth.Lib.KeyedUnion
import VmProxyAuth.Tenant.PromQL

/-!
# What a query means

The value of a PromQL expression over stored series.  What the operators do to the labels is
given here; what they do to the numbers is left to an `Engine`.  An instant vector is a set of
samples, and `a or b` is all of `a` and the samples of `b` whose labels, without the metric
name, do not occur in `a`.

An expression keeps a label if no operator in it removes the label (`Expr.keeps`).  Its value then
has no other values of the label than the series its selectors match (`eval_all`).  The order of
the matchers of a selector does not matter (`eval_updateSelectors_congr`).
-/

namespace VmProxyAuth

namespace PromQL

/-! ### Values -/

/-- A sample of an instant vector. -/
structure Sample (V : Type) where
  labels : Series
  value : V

/-- A series with the values it has at points in time. -/
structure RangeSample (V : Type) where
  labels : Series
  points : ℤ → Option V

/-- The value of an expression. -/
inductive Value (V : Type) where
  | scalar (x : V)
  | string (s : GoString)
  | vector (samples : Set (Sample V))
  | matrix (ranges : Set (RangeSample V))

namespace Value

variable {V : Type}

/-- The samples of an instant vector. -/
def samples : Value V → Set (Sample V)
  | vector samples => samples
  | _ => ∅

/-- The series of a range vector. -/
def ranges : Value V → Set (RangeSample V)
  | matrix ranges => ranges
  | _ => ∅

/-- All labels of a value have a property. -/
def All (p : Series → Prop) (v : Value V) : Prop :=
  (∀ x ∈ v.samples, p x.labels) ∧ ∀ r ∈ v.ranges, p r.labels

theorem all_vector {p : Series → Prop} {samples : Set (Sample V)} :
  (vector samples).All p ↔ ∀ x ∈ samples, p x.labels
  := by
  constructor
  · rintro ⟨h, -⟩
    apply h
  · intro h
    use h
    rintro r ⟨⟩

theorem all_matrix {p : Series → Prop} {ranges : Set (RangeSample V)} :
  (matrix ranges).All p ↔ ∀ r ∈ ranges, p r.labels
  := by
  constructor
  · rintro ⟨-, h⟩
    apply h
  · intro h
    refine ⟨?_, h⟩
    rintro x ⟨⟩

theorem all_scalar {p : Series → Prop} (x : V) :
  (scalar x).All p
  := by
  constructor
  · rintro y ⟨⟩
  · rintro r ⟨⟩

theorem all_string {p : Series → Prop} (s : GoString) :
  (string s : Value V).All p
  := by
  constructor
  · rintro y ⟨⟩
  · rintro r ⟨⟩

end Value

/-- What the upstream stores, and what it does with numbers: the value of a series at a time,
number literals, negation, the binary operators (none if a comparison fails; a comparison
that is not `bool` has its left operand as its value), the number an aggregation makes of the
samples of a group, the samples of a group it chooses, the text of a number, and the
functions. -/
structure Engine (V : Type) where
  series : Set (RangeSample V)
  regexp : GoString → GoString → Bool
  start : ℤ
  stop : ℤ
  defaultStep : ℤ
  latest : (ℤ → Option V) → ℤ → Option V
  literal : GoString → V
  negate : V → V
  binary : BinaryOp → Bool → V → V → Option V
  aggregate : AggregateOp → Option (Value V) → Set (Sample V) → V
  chosen : AggregateOp → Option (Value V) → Set (Sample V) → Sample V → Prop
  text : V → GoString
  call : GoString → ℤ → List (Value V) → Value V

/-! ### Labels -/

/-- The label that holds the metric name. -/
def metricName : GoString := str "__name__"

/-- Labels without the metric name. -/
def dropName (labels : Series) : Series := Function.update labels metricName []

/-- The given labels only. -/
def restrictTo (names : List GoString) (labels : Series) : Series :=
  fun name => if name ∈ names then labels name else []

/-- All but the given labels. -/
def remove (names : List GoString) (labels : Series) : Series :=
  fun name => if name ∈ names then [] else labels name

/-- The labels an aggregation groups by. -/
def groupLabels (grouping : List GoString) (without : Bool) (labels : Series) : Series :=
  if without then dropName (remove grouping labels) else restrictTo grouping labels

/-- The labels by which a binary operation pairs samples. -/
def signature (matching : Option VectorMatching) (labels : Series) : Series :=
  match matching with
  | none => dropName labels
  | some m =>
    if m.on then restrictTo m.matchingLabels labels else dropName (remove m.matchingLabels labels)

/-- Whether an operator is one of arithmetic, whose results have no metric name. -/
def BinaryOp.isArithmetic : BinaryOp → Bool
  | .add | .sub | .mul | .div | .mod | .pow | .atan2 => true
  | _ => false

/-- The labels of a sample an operation is applied to, as its result has them. -/
def operandLabels (op : BinaryOp) (returnBool : Bool) (labels : Series) : Series :=
  if op.isArithmetic || returnBool then dropName labels else labels

/-- The labels of the result for a pair of samples.  With several samples on one side, the
result has the labels of that side, and the labels to be included of the other. -/
def resultLabels (op : BinaryOp) (returnBool : Bool) (matching : Option VectorMatching)
    (many one : Series) : Series :=
  match matching with
  | none => operandLabels op returnBool many
  | some m =>
    match m.card with
    | .oneToOne =>
      if m.on then restrictTo m.matchingLabels (operandLabels op returnBool many)
      else remove m.matchingLabels (operandLabels op returnBool many)
    | _ => fun name =>
      if name ∈ m.includeLabels then one name else operandLabels op returnBool many name

/-- Whether the right side is the one with several samples. -/
def manyOnRight (matching : Option VectorMatching) : Bool :=
  matching.any (fun m => decide (m.card = .oneToMany))

/-! ### Operators -/

section

variable {V : Type} (E : Engine V)

/-- Whether an aggregation chooses samples instead of combining them. -/
def AggregateOp.chooses : AggregateOp → Bool
  | .topk | .bottomk | .limitk | .limitRatio => true
  | _ => false

/-- An aggregation over an instant vector. -/
def Engine.aggregateVector (op : AggregateOp) (param : Option (Value V))
    (grouping : List GoString) (without : Bool) (v : Set (Sample V)) : Set (Sample V) :=
  let key := fun x : Sample V => groupLabels grouping without x.labels
  let group := fun x => {y ∈ v | key y = key x}
  if op.chooses then {x ∈ v | E.chosen op param (group x) x}
  else
    match op, param with
    | .countValues, some (.string label) =>
      {z | ∃ x ∈ v, z = ⟨Function.update (key x) label (E.text x.value),
        E.aggregate op param {y ∈ group x | y.value = x.value}⟩}
    | _, _ => {z | ∃ x ∈ v, z = ⟨key x, E.aggregate op param (group x)⟩}

/-- A binary operation between two instant vectors. -/
def Engine.binaryVectors (op : BinaryOp) (matching : Option VectorMatching) (returnBool : Bool)
    (lhs rhs : Set (Sample V)) : Set (Sample V) :=
  {z | ∃ x ∈ lhs, ∃ y ∈ rhs, signature matching x.labels = signature matching y.labels ∧
    E.binary op returnBool x.value y.value = some z.value ∧
    z.labels =
      if manyOnRight matching then resultLabels op returnBool matching y.labels x.labels
      else resultLabels op returnBool matching x.labels y.labels}

/-- A binary operation. -/
def Engine.binaryValues (op : BinaryOp) (matching : Option VectorMatching) (returnBool : Bool)
    (lhs rhs : Value V) : Value V :=
  let key := fun x : Sample V => signature matching x.labels
  match op with
  | .lor => .vector (KeyedUnion.orElse key lhs.samples rhs.samples)
  | .land => .vector {x ∈ lhs.samples | ∃ y ∈ rhs.samples, key y = key x}
  | .lunless => .vector {x ∈ lhs.samples | ∀ y ∈ rhs.samples, key y ≠ key x}
  | op =>
    match lhs, rhs with
    | .scalar x, .scalar y =>
      match E.binary op returnBool x y with
      | some z => .scalar z
      | none => .vector ∅
    | .vector v, .scalar y =>
      .vector {z | ∃ x ∈ v, E.binary op returnBool x.value y = some z.value ∧
        z.labels = operandLabels op returnBool x.labels}
    | .scalar x, .vector w =>
      -- a comparison has the value of the sample, not that of the scalar
      .vector {z | ∃ y ∈ w, ∃ n, E.binary op returnBool x y.value = some n ∧
        z.value = (if op.isArithmetic || returnBool then n else y.value) ∧
        z.labels = operandLabels op returnBool y.labels}
    | .vector v, .vector w => .vector (E.binaryVectors op matching returnBool v w)
    | _, _ => .vector ∅

/-- A unary operation. -/
def Engine.unaryValue (op : UnaryOp) (value : Value V) : Value V :=
  match op, value with
  | .sub, .scalar x => .scalar (E.negate x)
  | .sub, .vector v => .vector {z | ∃ x ∈ v, z = ⟨dropName x.labels, E.negate x.value⟩}
  | _, value => value

/-- The time a selector or a subquery looks at. -/
def Engine.shift (m : TimeModifier) (t : ℤ) : ℤ :=
  (match m.timestamp, m.startOrEnd with
    | some timestamp, _ => timestamp
    | none, some .start => E.start
    | none, some .stop => E.stop
    | none, none => t) - m.originalOffset

/-- The times at which a subquery is evaluated. -/
def Engine.grid (range step : ℤ) (m : TimeModifier) (t : ℤ) : Set ℤ :=
  {u | E.shift m t - range < u ∧ u ≤ E.shift m t ∧
    (if step = 0 then E.defaultStep else step) ∣ u}

/-- The instant vector a selector selects. -/
def Engine.selectInstant (vs : VectorSelector) (t : ℤ) : Set (Sample V) :=
  {x | ∃ s ∈ E.series, vs.selects E.regexp s.labels = true ∧ x.labels = s.labels ∧
    E.latest s.points (E.shift vs.modifier t) = some x.value}

/-- The range vector a selector selects. -/
def Engine.selectRange (vs : VectorSelector) (range t : ℤ) : Set (RangeSample V) :=
  {r | (∃ s ∈ E.series, vs.selects E.regexp s.labels = true ∧ r.labels = s.labels ∧
      ∀ u, r.points u =
        if E.shift vs.modifier t - range < u ∧ u ≤ E.shift vs.modifier t then s.points u
        else none) ∧
    ∃ u x, r.points u = some x}

/-! ### Evaluation -/

mutual

/-- The value of an expression at a time. -/
def Expr.eval : Expr → ℤ → Value V
  | .numberLiteral val, _ => .scalar (E.literal val)
  | .stringLiteral val, _ => .string val
  | .vectorSelector vs, t => .vector (E.selectInstant vs t)
  | .matrixSelector vs range, t => .matrix (E.selectRange vs range t)
  | .subqueryExpr expr range step modifier, t =>
    .matrix {r | (∃ u x, r.points u = some x) ∧
      ∀ u x, r.points u = some x ↔
        u ∈ E.grid range step modifier t ∧ ⟨r.labels, x⟩ ∈ (expr.eval u).samples}
  | .call func args, t => E.call func t (evalList args t)
  | .aggregateExpr op expr param grouping without, t =>
    .vector (E.aggregateVector op (evalOption param t) grouping without (expr.eval t).samples)
  | .binaryExpr op lhs rhs matching returnBool, t =>
    E.binaryValues op matching returnBool (lhs.eval t) (rhs.eval t)
  | .unaryExpr op expr, t => E.unaryValue op (expr.eval t)
  | .parenExpr expr, t => expr.eval t
  | .stepInvariantExpr expr, t => expr.eval t

/-- The values of a list of arguments. -/
def evalList : List Expr → ℤ → List (Value V)
  | [], _ => []
  | expr :: args, t => expr.eval t :: evalList args t

/-- The value of an optional parameter. -/
def evalOption : Option Expr → ℤ → Option (Value V)
  | none, _ => none
  | some expr, t => some (expr.eval t)

end

end

/-! ### Keeping a label -/

/-- Whether a pair of samples with one value of a label has a result with that value. -/
def VectorMatching.keeps (label : GoString) (m : VectorMatching) : Bool :=
  match m.card with
  | .oneToOne =>
    if m.on then decide (label ∈ m.matchingLabels) else decide (label ∉ m.matchingLabels)
  | _ => true

/-- Whether an operator takes samples of its operands as they are. -/
def BinaryOp.isSetOperator : BinaryOp → Bool
  | .land | .lor | .lunless => true
  | _ => false

/-- Whether the samples of an operation are samples of its left operand. -/
def BinaryOp.isFilter : BinaryOp → Bool
  | .land | .lunless => true
  | _ => false

/-- Whether the groups of an aggregation have one value of a label. -/
def AggregateOp.keeps (label : GoString) (grouping : List GoString) (without : Bool)
    (op : AggregateOp) : Bool :=
  op.chooses ||
    decide (op ≠ .countValues) &&
      if without then decide (label ∉ grouping) else decide (label ∈ grouping)

mutual

/-- Whether no operator in an expression removes a label, where `keepsFunc` tells it of the
functions. -/
def Expr.keeps (keepsFunc : GoString → Bool) (label : GoString) : Expr → Bool
  | .numberLiteral _ => true
  | .stringLiteral _ => true
  | .vectorSelector _ => true
  | .matrixSelector _ _ => true
  | .subqueryExpr expr _ _ _ => expr.keeps keepsFunc label
  | .call func args => keepsFunc func && keepsList keepsFunc label args
  | .aggregateExpr op expr _ grouping without =>
    op.keeps label grouping without && expr.keeps keepsFunc label
  | .binaryExpr op lhs rhs matching _ =>
    lhs.keeps keepsFunc label &&
      (op.isFilter || (op.isSetOperator || matching.all (VectorMatching.keeps label)) &&
        rhs.keeps keepsFunc label)
  | .unaryExpr _ expr => expr.keeps keepsFunc label
  | .parenExpr expr => expr.keeps keepsFunc label
  | .stepInvariantExpr expr => expr.keeps keepsFunc label

/-- Whether no operator in the arguments removes a label. -/
def keepsList (keepsFunc : GoString → Bool) (label : GoString) : List Expr → Bool
  | [] => true
  | expr :: args => expr.keeps keepsFunc label && keepsList keepsFunc label args

end

section

variable {V : Type}

/-- A function keeps a label: whatever values of it its arguments have, its result has no
others. -/
def Engine.FuncKeeps (E : Engine V) (label func : GoString) : Prop :=
  ∀ t args, ∀ values : Set GoString,
    (∀ arg ∈ args, Value.All (fun labels => labels label ∈ values) arg) →
      (E.call func t args).All (fun labels => labels label ∈ values)

variable {label : GoString} {values : Set GoString}

theorem dropName_apply (hlabel : label ≠ metricName) (labels : Series) :
  dropName labels label = labels label
  := Function.update_of_ne hlabel _ _

theorem operandLabels_apply (hlabel : label ≠ metricName) (op : BinaryOp) (returnBool : Bool)
    (labels : Series) :
  operandLabels op returnBool labels label = labels label
  := by
  rw [operandLabels]
  split
  · apply dropName_apply hlabel
  · rfl

theorem groupLabels_apply (hlabel : label ≠ metricName) {grouping : List GoString}
    {without : Bool}
    (h : (if without then decide (label ∉ grouping) else decide (label ∈ grouping)) = true)
    (labels : Series) :
  groupLabels grouping without labels label = labels label
  := by
  cases without with
  | true =>
    have hnot : label ∉ grouping := by simpa using h
    rw [groupLabels, if_pos rfl, dropName_apply hlabel, remove, if_neg hnot]
  | false =>
    have hmem : label ∈ grouping := by simpa using h
    rw [groupLabels, if_neg Bool.false_ne_true, restrictTo, if_pos hmem]

theorem resultLabels_apply (hlabel : label ≠ metricName) {op : BinaryOp} {returnBool : Bool}
    {matching : Option VectorMatching} (h : matching.all (VectorMatching.keeps label) = true)
    {many one : Series} (hmany : many label ∈ values) (hone : one label ∈ values) :
  resultLabels op returnBool matching many one label ∈ values
  := by
  have hoperand : operandLabels op returnBool many label ∈ values := by
    rw [operandLabels_apply hlabel]
    apply hmany
  rcases matching with _ | m
  · apply hoperand
  · rw [Option.all_some, VectorMatching.keeps] at h
    rw [resultLabels]
    rcases hcard : m.card <;> rw [hcard] at h
    · dsimp only at h ⊢
      split at h
      · rename_i hon
        rw [hon, if_pos rfl, restrictTo, if_pos (of_decide_eq_true h)]
        apply hoperand
      · rename_i hon
        rw [if_neg hon, remove, if_neg (of_decide_eq_true h)]
        apply hoperand
    all_goals
      dsimp only
      split
      · apply hone
      · apply hoperand

variable {E : Engine V}

/-- The samples of an aggregation that keeps a label have the values the samples it is made of
have. -/
theorem aggregateVector_all (hlabel : label ≠ metricName) {op : AggregateOp}
    {param : Option (Value V)} {grouping : List GoString} {without : Bool}
    (hop : op.keeps label grouping without = true) {v : Set (Sample V)}
    (hv : ∀ x ∈ v, x.labels label ∈ values) :
  ∀ z ∈ E.aggregateVector op param grouping without v, z.labels label ∈ values
  := by
  intro z hz
  rw [Engine.aggregateVector.eq_def] at hz
  dsimp only at hz
  rw [AggregateOp.keeps, Bool.or_eq_true, Bool.and_eq_true, decide_eq_true_eq] at hop
  split at hz
  · apply hv z hz.1
  · rename_i hchooses
    obtain hno | ⟨hcount, hgroup⟩ := hop
    · apply absurd hno hchooses
    · split at hz
      · apply absurd rfl hcount
      · obtain ⟨x, hx, rfl⟩ := hz
        dsimp only
        rw [groupLabels_apply hlabel hgroup]
        apply hv x hx

/-- The samples of a binary operation between vectors that keeps a label have the values its
operands have. -/
theorem binaryVectors_all (hlabel : label ≠ metricName) {op : BinaryOp}
    {matching : Option VectorMatching} {returnBool : Bool}
    (hmatching : matching.all (VectorMatching.keeps label) = true) {lhs rhs : Set (Sample V)}
    (hlhs : ∀ x ∈ lhs, x.labels label ∈ values) (hrhs : ∀ x ∈ rhs, x.labels label ∈ values) :
  ∀ z ∈ E.binaryVectors op matching returnBool lhs rhs, z.labels label ∈ values
  := by
  rintro z ⟨x, hx, y, hy, -, -, hz⟩
  rw [hz]
  split
  · apply resultLabels_apply hlabel hmatching (hrhs y hy) (hlhs x hx)
  · apply resultLabels_apply hlabel hmatching (hlhs x hx) (hrhs y hy)

/-- The value of an operation that filters its left operand. -/
theorem binaryValues_all_of_isFilter {op : BinaryOp} {matching : Option VectorMatching}
    {returnBool : Bool} (hop : op.isFilter = true) {lhs : Value V} (rhs : Value V)
    (hlhs : lhs.All (fun labels => labels label ∈ values)) :
  (E.binaryValues op matching returnBool lhs rhs).All (fun labels => labels label ∈ values)
  := by
  rw [Engine.binaryValues.eq_def]
  dsimp only
  split
  · cases hop
  · rw [Value.all_vector]
    rintro x ⟨hx, -⟩
    apply hlhs.1 x hx
  · rw [Value.all_vector]
    rintro x ⟨hx, -⟩
    apply hlhs.1 x hx
  · rename_i op hlor hland hlunless
    rw [BinaryOp.isFilter.eq_def] at hop
    split at hop
    · apply absurd rfl hland
    · apply absurd rfl hlunless
    · cases hop

/-- The value of a binary operation that keeps a label has the values its operands have. -/
theorem binaryValues_all (hlabel : label ≠ metricName) {op : BinaryOp}
    {matching : Option VectorMatching} {returnBool : Bool}
    (hop : (op.isSetOperator || matching.all (VectorMatching.keeps label)) = true)
    {lhs rhs : Value V} (hlhs : lhs.All (fun labels => labels label ∈ values))
    (hrhs : rhs.All (fun labels => labels label ∈ values)) :
  (E.binaryValues op matching returnBool lhs rhs).All (fun labels => labels label ∈ values)
  := by
  cases hfilter : op.isFilter with
  | true => apply binaryValues_all_of_isFilter hfilter rhs hlhs
  | false =>
    rw [Engine.binaryValues.eq_def]
    dsimp only
    split
    · rw [Value.all_vector]
      rintro x (hx | ⟨hx, -⟩)
      · apply hlhs.1 x hx
      · apply hrhs.1 x hx
    · cases hfilter
    · cases hfilter
    · have hmatching : matching.all (VectorMatching.keeps label) = true := by
        cases op <;> simp_all [BinaryOp.isSetOperator]
      split
      · split
        · apply Value.all_scalar
        · rw [Value.all_vector]
          rintro x ⟨⟩
      · rw [Value.all_vector]
        rintro z ⟨x, hx, -, hz⟩
        rw [hz, operandLabels_apply hlabel]
        apply hlhs.1 x hx
      · rw [Value.all_vector]
        rintro z ⟨y, hy, n, -, -, hz⟩
        rw [hz, operandLabels_apply hlabel]
        apply hrhs.1 y hy
      · rw [Value.all_vector]
        apply binaryVectors_all hlabel hmatching hlhs.1 hrhs.1
      · rw [Value.all_vector]
        rintro x ⟨⟩

theorem unaryValue_all (hlabel : label ≠ metricName) (op : UnaryOp) {v : Value V}
    (hv : v.All (fun labels => labels label ∈ values)) :
  (E.unaryValue op v).All (fun labels => labels label ∈ values)
  := by
  rw [Engine.unaryValue.eq_def]
  split
  · apply Value.all_scalar
  · rw [Value.all_vector]
    rintro z ⟨x, hx, rfl⟩
    dsimp only
    rw [dropName_apply hlabel]
    apply hv.1 x hx
  · apply hv

mutual

/-- If the series the selectors of an expression match have certain values of a label, and no
operator in it removes the label, then its value has no other values of the label. -/
theorem eval_all (hlabel : label ≠ metricName) {keepsFunc : GoString → Bool}
    (hfunc : ∀ func, keepsFunc func = true → E.FuncKeeps label func) :
  ∀ expr : Expr, expr.keeps keepsFunc label = true →
    (∀ vs ∈ expr.selectors, ∀ s : Series, vs.selects E.regexp s = true → s label ∈ values) →
    ∀ t, (expr.eval E t).All (fun labels => labels label ∈ values)
  | .numberLiteral val, _, _, _ => Value.all_scalar (E.literal val)
  | .stringLiteral val, _, _, _ => Value.all_string val
  | .vectorSelector vs, _, hvs, t => by
      rw [Expr.eval, Value.all_vector]
      rintro x ⟨s, -, hselects, hlabels, -⟩
      rw [hlabels]
      apply hvs vs (List.mem_singleton_self vs) s.labels hselects
  | .matrixSelector vs range, _, hvs, t => by
      rw [Expr.eval, Value.all_matrix]
      rintro r ⟨⟨s, -, hselects, hlabels, -⟩, -⟩
      rw [hlabels]
      apply hvs vs (List.mem_singleton_self vs) s.labels hselects
  | .subqueryExpr expr range step modifier, hkeeps, hvs, t => by
      rw [Expr.eval, Value.all_matrix]
      rintro r ⟨⟨u, x, hpoint⟩, hpoints⟩
      obtain ⟨-, hsample⟩ := (hpoints u x).mp hpoint
      apply (eval_all hlabel hfunc expr hkeeps hvs u).1 _ hsample
  | .call func args, hkeeps, hvs, t => by
      rw [Expr.keeps, Bool.and_eq_true] at hkeeps
      rw [Expr.eval]
      apply hfunc func hkeeps.1
      apply evalList_all hlabel hfunc args hkeeps.2 hvs t
  | .aggregateExpr op expr param grouping without, hkeeps, hvs, t => by
      rw [Expr.keeps, Bool.and_eq_true] at hkeeps
      rw [Expr.eval, Value.all_vector]
      apply aggregateVector_all hlabel hkeeps.1
      have hexpr := fun vs h => hvs vs (List.mem_append_left _ h)
      apply (eval_all hlabel hfunc expr hkeeps.2 hexpr t).1
  | .binaryExpr op lhs rhs matching returnBool, hkeeps, hvs, t => by
      rw [Expr.keeps, Bool.and_eq_true, Bool.or_eq_true, Bool.and_eq_true] at hkeeps
      obtain ⟨hleft, hop⟩ := hkeeps
      have hlhs := eval_all hlabel hfunc lhs hleft (fun vs h => hvs vs (List.mem_append_left _ h)) t
      rw [Expr.eval]
      obtain hfilter | ⟨hmatching, hright⟩ := hop
      · apply binaryValues_all_of_isFilter hfilter _ hlhs
      · apply binaryValues_all hlabel hmatching hlhs
        apply eval_all hlabel hfunc rhs hright (fun vs h => hvs vs (List.mem_append_right _ h))
  | .unaryExpr op expr, hkeeps, hvs, t => by
      rw [Expr.eval]
      apply unaryValue_all hlabel
      apply eval_all hlabel hfunc expr hkeeps hvs
  | .parenExpr expr, hkeeps, hvs, t => eval_all hlabel hfunc expr hkeeps hvs t
  | .stepInvariantExpr expr, hkeeps, hvs, t => eval_all hlabel hfunc expr hkeeps hvs t

theorem evalList_all (hlabel : label ≠ metricName) {keepsFunc : GoString → Bool}
    (hfunc : ∀ func, keepsFunc func = true → E.FuncKeeps label func) :
  ∀ args : List Expr, keepsList keepsFunc label args = true →
    (∀ vs ∈ selectorsList args, ∀ s : Series, vs.selects E.regexp s = true → s label ∈ values) →
    ∀ t, ∀ arg ∈ evalList E args t, arg.All (fun labels => labels label ∈ values)
  | [], _, _, _ => by
      rintro arg ⟨⟩
  | expr :: args, hkeeps, hvs, t => by
      rw [keepsList, Bool.and_eq_true] at hkeeps
      rw [evalList]
      intro arg harg
      obtain rfl | hrest := List.mem_cons.mp harg
      · apply eval_all hlabel hfunc expr hkeeps.1 (fun vs h => hvs vs (List.mem_append_left _ h))
      · apply evalList_all hlabel hfunc args hkeeps.2
          (fun vs h => hvs vs (List.mem_append_right _ h)) t arg hrest

end

end

/-! ### The order of matchers -/

section

variable {V : Type} (E : Engine V)

theorem VectorSelector.Same.selectInstant_eq {vs vs' : VectorSelector} (h : vs.Same vs') (t : ℤ) :
  E.selectInstant vs t = E.selectInstant vs' t
  := by
  simp only [Engine.selectInstant, h.selects_eq, h.modifier]

theorem VectorSelector.Same.selectRange_eq {vs vs' : VectorSelector} (h : vs.Same vs')
    (range t : ℤ) :
  E.selectRange vs range t = E.selectRange vs' range t
  := by
  simp only [Engine.selectRange, h.selects_eq, h.modifier]

mutual

/-- Two walks that give vector selectors the same matchers, in whatever order, give expressions of
the same value. -/
theorem eval_updateSelectors_congr (f g : VectorSelector → VectorSelector) :
  ∀ expr : Expr, (∀ vs ∈ expr.selectors, (f vs).Same (g vs)) →
    ∀ t, (expr.updateSelectors f).eval E t = (expr.updateSelectors g).eval E t
  | .numberLiteral _, _, _ => rfl
  | .stringLiteral _, _, _ => rfl
  | .vectorSelector vs, h, t => by
      rw [Expr.updateSelectors, Expr.updateSelectors, Expr.eval, Expr.eval,
        (h vs (List.mem_singleton_self vs)).selectInstant_eq]
  | .matrixSelector vs range, h, t => by
      rw [Expr.updateSelectors, Expr.updateSelectors, Expr.eval, Expr.eval,
        (h vs (List.mem_singleton_self vs)).selectRange_eq]
  | .subqueryExpr expr range step modifier, h, t => by
      simp only [Expr.updateSelectors, Expr.eval, eval_updateSelectors_congr f g expr h]
  | .call func args, h, t => by
      rw [Expr.updateSelectors, Expr.updateSelectors, Expr.eval, Expr.eval,
        evalList_updateSelectors_congr f g args h]
  | .aggregateExpr op expr param grouping without, h, t => by
      rw [Expr.updateSelectors, Expr.updateSelectors, Expr.eval, Expr.eval,
        eval_updateSelectors_congr f g expr (fun vs hvs => h vs (List.mem_append_left _ hvs)),
        evalOption_updateSelectors_congr f g param
          (fun vs hvs => h vs (List.mem_append_right _ hvs))]
  | .binaryExpr op lhs rhs matching returnBool, h, t => by
      rw [Expr.updateSelectors, Expr.updateSelectors, Expr.eval, Expr.eval,
        eval_updateSelectors_congr f g lhs (fun vs hvs => h vs (List.mem_append_left _ hvs)),
        eval_updateSelectors_congr f g rhs (fun vs hvs => h vs (List.mem_append_right _ hvs))]
  | .unaryExpr op expr, h, t => by
      rw [Expr.updateSelectors, Expr.updateSelectors, Expr.eval, Expr.eval,
        eval_updateSelectors_congr f g expr h]
  | .parenExpr expr, h, t => eval_updateSelectors_congr f g expr h t
  | .stepInvariantExpr expr, h, t => eval_updateSelectors_congr f g expr h t

theorem evalList_updateSelectors_congr (f g : VectorSelector → VectorSelector) :
  ∀ args : List Expr, (∀ vs ∈ selectorsList args, (f vs).Same (g vs)) →
    ∀ t, evalList E (updateSelectorsList f args) t = evalList E (updateSelectorsList g args) t
  | [], _, _ => rfl
  | expr :: args, h, t => by
      rw [updateSelectorsList, updateSelectorsList, evalList, evalList,
        eval_updateSelectors_congr f g expr (fun vs hvs => h vs (List.mem_append_left _ hvs)),
        evalList_updateSelectors_congr f g args (fun vs hvs => h vs (List.mem_append_right _ hvs))]

theorem evalOption_updateSelectors_congr (f g : VectorSelector → VectorSelector) :
  ∀ param : Option Expr, (∀ vs ∈ selectorsOption param, (f vs).Same (g vs)) →
    ∀ t, evalOption E (updateSelectorsOption f param) t
      = evalOption E (updateSelectorsOption g param) t
  | none, _, _ => rfl
  | some expr, h, t => by
      rw [updateSelectorsOption, updateSelectorsOption, evalOption, evalOption,
        eval_updateSelectors_congr f g expr h]

end

end

end PromQL

end VmProxyAuth
