import VmProxyAuth.Tenant.Canonical
import VmProxyAuth.Tenant.QueryText

/-!
# Reading a rewritten query

The text of an expression `lhs or rhs` has no parentheses, and `or` binds least and to the left.
So the text of operands joined with `or` is read as one chain: if an operand is itself an `or`,
its last operand is joined with everything to its left (`Expr.joinLeft`).

What is assumed of the Prometheus parser and printer is assumed of the query at hand and the texts
made of it (`Parser.ReadsQuery`): the texts of its operands, before and after the injection, are
read up to the order of matchers, and `or` between them is read as described.  This leaves out
queries that begin with a metric named like a word that may follow `or`, such as `on`.  The
assumption is met by the parser for texts of queries (`readsQuery_textParser`).

* The rewritten query is accepted exactly if the matchers added to its vector selectors are, and
  there is one group of tenants or the query is an instant vector (`parse_secureExprOf`).
* It then has the type of the query (`type_readSecure`).
-/

namespace VmProxyAuth

namespace PromQL

/-! ### The text of `or` -/

/-- Whether the operator at the top of an expression is `or`. -/
def Expr.isOr : Expr → Bool
  | .binaryExpr .lor _ _ _ _ => true
  | _ => false

theorem Expr.exists_of_isOr {expr : Expr} (h : expr.isOr ≠ false) :
  ∃ lhs rhs matching returnBool, expr = .binaryExpr .lor lhs rhs matching returnBool
  := by
  rw [Expr.isOr.eq_def] at h
  split at h
  · rename_i lhs rhs matching returnBool
    use lhs, rhs, matching, returnBool
  · apply absurd rfl h

theorem Expr.isOr_updateSelectors (f : VectorSelector → VectorSelector) (expr : Expr) :
  (expr.updateSelectors f).isOr = expr.isOr
  := by
  cases expr with
  | binaryExpr op lhs rhs matching returnBool => cases op <;> rfl
  | _ => rfl

/-- The operands of an expression, joined with `or` from the left. -/
def Expr.operands : Expr → List Expr
  | .binaryExpr .lor lhs rhs _ _ => lhs.operands ++ [rhs]
  | expr => [expr]

/-- The clauses of the operators `or` between the operands. -/
def Expr.matchings : Expr → List (Option VectorMatching)
  | .binaryExpr .lor lhs _ matching _ => lhs.matchings ++ [matching]
  | _ => []

theorem Expr.operands_of_isOr {expr : Expr} (h : expr.isOr = false) :
  expr.operands = [expr]
  := by
  rw [Expr.operands]
  rintro lhs rhs matching returnBool rfl
  cases h

/-- The vector selectors of a chain are those of its operands. -/
theorem exists_operand_of_mem_selectors {expr : Expr} {vs : VectorSelector}
    (h : vs ∈ expr.selectors) :
  ∃ o ∈ expr.operands, vs ∈ o.selectors
  := by
  fun_induction Expr.operands expr with
  | case1 lhs rhs matching returnBool ih =>
    rw [Expr.selectors, List.mem_append] at h
    obtain hl | hr := h
    · obtain ⟨o, ho, hvs⟩ := ih hl
      use o, List.mem_append_left _ ho
    · use rhs, List.mem_append_right _ List.mem_cons_self
  | case2 expr _ => use expr, List.mem_cons_self

/-- Operands joined with `or` from the left, as the parser joins them. -/
inductive Expr.Chain : Expr → Prop where
  | operand {expr : Expr} (hor : expr.isOr = false) : Chain expr
  | join {lhs rhs : Expr} {m : VectorMatching} (hlhs : Chain lhs) (hor : rhs.isOr = false) :
    Chain (.binaryExpr .lor lhs rhs (some m) false)

/-- The expressions made of given operands by joining them with `or`, with given clauses. -/
inductive Composed (operand : Expr → Prop) (clause : Option VectorMatching → Prop) :
    Expr → Prop where
  | operand {expr : Expr} (h : operand expr) : Composed operand clause expr
  | join {lhs rhs : Expr} {matching : Option VectorMatching} (hlhs : Composed operand clause lhs)
      (hrhs : Composed operand clause rhs) (hclause : clause matching) :
    Composed operand clause (.binaryExpr .lor lhs rhs matching false)

/-- How the Prometheus parser reads the texts of given operands joined with `or`, where `clauseText`
is the text of `or` with its matching clause, and `reorder` is the order in which the matchers of a
vector selector are read from its text. -/
structure Parser.Reads (P : Parser) (R : Rules) (clauseText : Option VectorMatching → GoString)
    (reorder : VectorSelector → VectorSelector) (operand : Expr → Prop)
    (clause : Option VectorMatching → Prop) : Prop where
  /-- An `or` is written without parentheses. -/
  exprString_or : ∀ lhs rhs matching, P.exprString (.binaryExpr .lor lhs rhs matching false)
    = P.exprString lhs ++ clauseText matching ++ P.exprString rhs
  /-- `or` binds least and to the left, and is allowed between instant vectors. -/
  parse_or : ∀ {left right matching}, Composed operand clause left → operand right →
    clause matching → ∀ expr,
      (P.parseExpr (P.exprString left ++ clauseText matching ++ P.exprString right) = .ok expr ↔
        ∃ lhs rhs, P.parseExpr (P.exprString left) = .ok lhs ∧
          P.parseExpr (P.exprString right) = .ok rhs ∧
          (lhs.type R = .vector ∧ rhs.type R = .vector) ∧
          expr = .binaryExpr .lor lhs rhs (some (matching.getD plainMatching)) false)
  /-- An operand is read with its matchers in another order, if they are accepted. -/
  parse_operand : ∀ {o}, operand o → ∀ expr,
    (P.parseExpr (P.exprString o) = .ok expr ↔
      (∀ vs ∈ o.selectors, R.acceptsSelector vs = true) ∧ expr = o.updateSelectors reorder)
  /-- The order of matchers is all that differs. -/
  same_reorder : ∀ {o}, operand o → ∀ vs ∈ o.selectors, R.acceptsSelector vs = true →
    (reorder vs).Same vs

/-- What is read from the texts of `lhs` and an expression with `or` between them: the last
operand of an expression that is itself an `or` is joined with everything to its left. -/
def Expr.joinLeft (lhs : Expr) (matching : Option VectorMatching) : Expr → Expr
  | .binaryExpr .lor first last matching' returnBool =>
    .binaryExpr .lor (joinLeft lhs matching first) last matching' returnBool
  | expr => .binaryExpr .lor lhs expr (some (matching.getD plainMatching)) false

theorem Expr.joinLeft_of_isOr {expr : Expr} (h : expr.isOr = false) (lhs : Expr)
    (matching : Option VectorMatching) :
  lhs.joinLeft matching expr
    = .binaryExpr .lor lhs expr (some (matching.getD plainMatching)) false
  := by
  rw [Expr.joinLeft]
  rintro first last matching' returnBool rfl
  cases h

theorem type_or {R : Rules} {lhs rhs : Expr} {matching : Option VectorMatching}
    {returnBool : Bool} (h : lhs.type R = .vector) :
  (Expr.binaryExpr .lor lhs rhs matching returnBool).type R = .vector
  := by
  rw [Expr.type, if_neg]
  rw [h]
  rintro ⟨⟨⟩, -⟩

/-- A chain that starts with an instant vector is one. -/
theorem type_joinLeft {R : Rules} {lhs : Expr} (h : lhs.type R = .vector)
    (matching : Option VectorMatching) (expr : Expr) :
  (lhs.joinLeft matching expr).type R = .vector
  := by
  fun_induction Expr.joinLeft lhs matching expr with
  | case1 first last matching' returnBool ih => apply type_or ih
  | case2 expr hor => apply type_or h

/-! ### Chains of readable operands -/

/-- A well-typed chain of given operands with given clauses. -/
inductive Chained (R : Rules) (operand : Expr → Prop) (clause : Option VectorMatching → Prop) :
    Expr → Prop where
  | operand {expr : Expr} (h : operand expr) (hor : expr.isOr = false) :
      Chained R operand clause expr
  | join {lhs rhs : Expr} {m : VectorMatching} (hlhs : Chained R operand clause lhs)
      (hrhs : operand rhs) (hor : rhs.isOr = false) (hclause : clause (some m))
      (htypes : lhs.type R = .vector ∧ rhs.type R = .vector) :
    Chained R operand clause (.binaryExpr .lor lhs rhs (some m) false)

section

variable {R : Rules} {operand operand' : Expr → Prop}
  {clause clause' : Option VectorMatching → Prop}

theorem Chained.composed {expr : Expr} (h : Chained R operand clause expr) :
  Composed operand clause expr
  := by
  induction h with
  | operand h _ => apply Composed.operand h
  | join _ hrhs _ hclause _ ih => apply Composed.join ih (.operand hrhs) hclause

theorem Expr.Chain.chained {expr : Expr} (h : expr.Chain) (hwell : expr.wellTyped R = true)
    (hoperand : ∀ o ∈ expr.operands, operand o)
    (hclause : ∀ matching ∈ expr.matchings, clause matching) :
  Chained R operand clause expr
  := by
  induction h with
  | @operand expr hor =>
    rw [Expr.operands_of_isOr hor] at hoperand
    apply Chained.operand (hoperand expr List.mem_cons_self) hor
  | @join lhs rhs m hlhs hor ih =>
    rw [Expr.operands, List.forall_mem_append, List.forall_mem_singleton] at hoperand
    rw [Expr.matchings, List.forall_mem_append, List.forall_mem_singleton] at hclause
    obtain ⟨htypes, -⟩ := wellTyped_or hwell
    rw [Expr.wellTyped, Bool.and_eq_true, Bool.and_eq_true] at hwell
    apply Chained.join (ih hwell.1.1 hoperand.1 hclause.1) hoperand.2 hor hclause.2 htypes

/-- A chain with other vector selectors. -/
theorem Chained.updateSelectors {f : VectorSelector → VectorSelector} {expr : Expr}
    (h : Chained R operand' clause' expr)
    (hoperand : ∀ o, operand' o → operand (o.updateSelectors f))
    (hclause : ∀ matching, clause' matching → clause matching) :
  Chained R operand clause (expr.updateSelectors f)
  := by
  induction h with
  | @operand expr h hor =>
    apply Chained.operand (hoperand expr h)
    rw [Expr.isOr_updateSelectors, hor]
  | @join lhs rhs m hlhs hrhs hor hmatching htypes ih =>
    apply Chained.join ih (hoperand rhs hrhs) _ (hclause _ hmatching)
    · rw [type_updateSelectors, type_updateSelectors]
      apply htypes
    · rw [Expr.isOr_updateSelectors, hor]

theorem Composed.mono (hoperand : ∀ o, operand' o → operand o)
    (hclause : ∀ matching, clause' matching → clause matching) {expr : Expr}
    (h : Composed operand' clause' expr) :
  Composed operand clause expr
  := by
  induction h with
  | operand h => apply Composed.operand (hoperand _ h)
  | join _ _ hmatching ihl ihr => apply Composed.join ihl ihr (hclause _ hmatching)

end

namespace Parser.Reads

variable {P : Parser} {R : Rules} {clauseText : Option VectorMatching → GoString}
  {reorder : VectorSelector → VectorSelector} {operand operand' : Expr → Prop}
  {clause clause' : Option VectorMatching → Prop}

theorem mono (hP : P.Reads R clauseText reorder operand clause)
    (hoperand : ∀ o, operand' o → operand o)
    (hclause : ∀ matching, clause' matching → clause matching) :
  P.Reads R clauseText reorder operand' clause'
  := by
  constructor
  case exprString_or => apply hP.exprString_or
  case parse_or =>
    intro left right matching hleft hright hmatching
    apply hP.parse_or (hleft.mono hoperand hclause) (hoperand _ hright) (hclause _ hmatching)
  case parse_operand =>
    intro o ho
    apply hP.parse_operand (hoperand o ho)
  case same_reorder =>
    intro o ho
    apply hP.same_reorder (hoperand o ho)

variable (hP : P.Reads R clauseText reorder operand clause)

include hP

/-- The text of a chain is read as the chain, up to the order of matchers. -/
theorem parse_chained {chain : Expr} (h : Chained R operand clause chain) (expr : Expr) :
  P.parseExpr (P.exprString chain) = .ok expr ↔
    (∀ vs ∈ chain.selectors, R.acceptsSelector vs = true) ∧ expr = chain.updateSelectors reorder
  := by
  induction h generalizing expr with
  | operand h _ => apply hP.parse_operand h
  | @join lhs rhs m hlhs hrhs hor hclause htypes ih =>
    rw [hP.exprString_or, hP.parse_or hlhs.composed hrhs hclause]
    simp only [ih, hP.parse_operand hrhs, Expr.selectors, List.forall_mem_append]
    constructor
    · rintro ⟨-, -, ⟨hl, rfl⟩, ⟨hr, rfl⟩, -, rfl⟩
      use ⟨hl, hr⟩
      rfl
    · rintro ⟨⟨hl, hr⟩, rfl⟩
      refine ⟨_, _, ⟨hl, rfl⟩, ⟨hr, rfl⟩, ?_, rfl⟩
      rw [type_updateSelectors, type_updateSelectors]
      apply htypes

/-- The text of an expression followed by `or` and that of a chain. -/
theorem parse_joinLeft {left chain : Expr} (hleft : Composed operand clause left)
    (h : Chained R operand clause chain) {matching : Option VectorMatching}
    (hmatching : clause matching) (expr : Expr) :
  P.parseExpr (P.exprString left ++ clauseText matching ++ P.exprString chain) = .ok expr ↔
    ∃ lhs, P.parseExpr (P.exprString left) = .ok lhs ∧
      (lhs.type R = .vector ∧ chain.type R = .vector) ∧
      (∀ vs ∈ chain.selectors, R.acceptsSelector vs = true) ∧
      expr = lhs.joinLeft matching (chain.updateSelectors reorder)
  := by
  induction h generalizing expr with
  | @operand chain h hor =>
    have hread : (chain.updateSelectors reorder).isOr = false := by
      rw [Expr.isOr_updateSelectors, hor]
    rw [hP.parse_or hleft h hmatching]
    simp only [hP.parse_operand h, Expr.joinLeft_of_isOr hread]
    constructor
    · rintro ⟨lhs, -, hlhs, ⟨hr, rfl⟩, htypes, rfl⟩
      rw [type_updateSelectors] at htypes
      use lhs
    · rintro ⟨lhs, hlhs, htypes, hr, rfl⟩
      refine ⟨lhs, _, hlhs, ⟨hr, rfl⟩, ?_, rfl⟩
      rw [type_updateSelectors]
      apply htypes
  | @join first last m hfirst hlast hor hclause htypes ih =>
    -- the text is that of `left or first`, the clause, and `last`
    have htext : P.exprString left ++ clauseText matching
        ++ P.exprString (.binaryExpr .lor first last (some m) false)
        = P.exprString (.binaryExpr .lor left first matching false) ++ clauseText (some m)
          ++ P.exprString last := by
      rw [hP.exprString_or, hP.exprString_or]
      simp only [List.append_assoc]
    rw [htext, hP.parse_or (.join hleft hfirst.composed hmatching) hlast hclause, hP.exprString_or]
    simp only [ih, hP.parse_operand hlast, Expr.selectors, List.forall_mem_append,
      type_or htypes.1, htypes.1, and_true]
    constructor
    · rintro ⟨-, -, ⟨lhs, hlhs, hlvector, hl, rfl⟩, ⟨hr, rfl⟩, -, rfl⟩
      use lhs, hlhs, hlvector, ⟨hl, hr⟩
      rfl
    · rintro ⟨lhs, hlhs, hlvector, ⟨hl, hr⟩, rfl⟩
      refine ⟨_, _, ⟨lhs, hlhs, hlvector, hl, rfl⟩, ⟨hr, rfl⟩,
        ⟨type_joinLeft hlvector _ _, ?_⟩, rfl⟩
      rw [type_updateSelectors, htypes.2]

end Parser.Reads

end PromQL

namespace Tenant

open PromQL

/-! ### The rewritten query -/

/-- The operands of a query with a group injected, into the query or into the clone that is read
from its text. -/
inductive QueryOperand (reorder : VectorSelector → VectorSelector) (cfg : LabelsConfig)
    (groups : List Group) (expr : Expr) : Expr → Prop where
  | injected {o : Expr} {g : Group} (ho : o ∈ expr.operands) (hg : g ∈ groups) :
    QueryOperand reorder cfg groups expr (injectTenantToExpression o g cfg)
  | cloned {o : Expr} {g : Group} (ho : o ∈ expr.operands) (hg : g ∈ groups) :
    QueryOperand reorder cfg groups expr
      (injectTenantToExpression (o.updateSelectors reorder) g cfg)

/-- No clause, or one of the query. -/
def QueryClause (expr : Expr) (matching : Option VectorMatching) : Prop :=
  matching = none ∨ matching ∈ expr.matchings

/-- What is assumed of the Prometheus parser and printer for a query, the groups and the labels. -/
structure ReadsQuery (P : Parser) (R : Rules) (clauseText : Option VectorMatching → GoString)
    (reorder : VectorSelector → VectorSelector) (cfg : LabelsConfig) (groups : List Group)
    (expr : Expr) : Prop where
  /-- The query has passed the checks. -/
  accepts : R.Accepts expr
  /-- Its operators `or` are joined from the left. -/
  chain : expr.Chain
  /-- Its text is read as the query, up to the order of matchers. -/
  reparses : P.parseExpr (P.exprString expr) = .ok (expr.updateSelectors reorder)
  same_reorder : ∀ vs ∈ expr.selectors, (reorder vs).Same vs
  /-- Its operands with the groups injected are read in the same way. -/
  reads : P.Reads R clauseText reorder (QueryOperand reorder cfg groups expr) (QueryClause expr)

/-- The expression the groups are injected into: the query for one group, and a clone for
several. -/
def copyOf (reorder : VectorSelector → VectorSelector) (expr : Expr) (rest : List Group) : Expr :=
  if rest = [] then expr else expr.updateSelectors reorder

/-- A query with a group injected, as it is read from its text. -/
def readOperand (reorder : VectorSelector → VectorSelector) (cfg : LabelsConfig) (copy : Expr)
    (group : Group) : Expr :=
  (injectTenantToExpression copy group cfg).updateSelectors reorder

/-- The matchers a group adds to the vector selectors of a query are accepted. -/
def AcceptedFor (R : Rules) (cfg : LabelsConfig) (expr : Expr) (group : Group) : Prop :=
  ∀ vs ∈ expr.selectors, R.acceptsSelector (injectGroup cfg group vs) = true

/-- What is read from the text of the rewritten query. -/
def readSecure (reorder : VectorSelector → VectorSelector) (cfg : LabelsConfig) (expr : Expr)
    (first : Group) (rest : List Group) : Expr :=
  rest.foldl (fun lhs group =>
      lhs.joinLeft none (readOperand reorder cfg (copyOf reorder expr rest) group))
    (readOperand reorder cfg (copyOf reorder expr rest) first)

section

variable {P : Parser} {R : Rules} {clauseText : Option VectorMatching → GoString}
  {reorder : VectorSelector → VectorSelector} {cfg : LabelsConfig} {groups : List Group}
  {expr : Expr}

/-- The groups are injected into copies of the query, which are joined with `or`. -/
theorem secureExprOf_cons
    (hreparse : P.parseExpr (P.exprString expr) = .ok (expr.updateSelectors reorder))
    (cfg : LabelsConfig) (first : Group) (rest : List Group) :
  secureExprOf P expr cfg (first :: rest)
    = rest.foldl (fun result group => .binaryExpr .lor result
        (injectTenantToExpression (copyOf reorder expr rest) group cfg) none false)
      (injectTenantToExpression (copyOf reorder expr rest) first cfg)
  := by
  cases rest with
  | nil => rfl
  | cons second rest =>
    rw [secureExprOf, Operands.exprs_foldl P cfg _ ⟨expr, []⟩ hreparse, copyOf,
      if_neg (List.cons_ne_nil _ _)]
    · simp only [Operands.exprs, List.map_nil, List.nil_append, List.map_cons, joinOperands,
        List.foldl_cons, List.foldl_map]
    · rintro group heq
      cases heq

theorem type_copyOf (expr : Expr) (rest : List Group) :
  (copyOf reorder expr rest).type R = expr.type R
  := by
  rw [copyOf]
  split
  · rfl
  · apply type_updateSelectors

theorem type_inject (copy : Expr) (group : Group) :
  (injectTenantToExpression copy group cfg).type R = copy.type R
  := type_updateSelectors R _ copy

namespace ReadsQuery

variable (hP : ReadsQuery P R clauseText reorder cfg groups expr)

include hP

theorem reparse :
  P.Reparses expr
  := by
  use expr.updateSelectors reorder, hP.reparses, reorder, rfl
  apply hP.same_reorder

/-- The copies with a group injected are chains of readable operands. -/
theorem chained_inject {group : Group} (hgroup : group ∈ groups) (rest : List Group) :
  Chained R (QueryOperand reorder cfg groups expr) (QueryClause expr)
    (injectTenantToExpression (copyOf reorder expr rest) group cfg)
  := by
  have hchained : Chained R (· ∈ expr.operands) (· ∈ expr.matchings) expr :=
    hP.chain.chained hP.accepts.wellTyped (fun _ => id) (fun _ => id)
  have hclause : ∀ matching, matching ∈ expr.matchings → QueryClause expr matching :=
    fun _ => Or.inr
  rw [copyOf]
  split
  · apply hchained.updateSelectors _ hclause
    intro o ho
    apply QueryOperand.injected ho hgroup
  · rw [injectTenantToExpression, updateSelectors_updateSelectors]
    apply hchained.updateSelectors _ hclause
    intro o ho
    rw [← updateSelectors_updateSelectors]
    apply QueryOperand.cloned ho hgroup

/-- The matchers are accepted in the query exactly if they are in a copy. -/
theorem accepted_inject_iff (group : Group) (rest : List Group) :
  (∀ vs ∈ (injectTenantToExpression (copyOf reorder expr rest) group cfg).selectors,
      R.acceptsSelector vs = true) ↔
    AcceptedFor R cfg expr group
  := by
  rw [selectors_injectTenantToExpression, List.forall_mem_map, copyOf]
  split
  · rfl
  · rw [selectors_updateSelectors, List.forall_mem_map]
    apply forall₂_congr
    intro vs hvs
    rw [Rules.acceptsSelector_same (injectGroup_same cfg group (hP.same_reorder vs hvs))]

/-- A clone with a group injected is read with the order of its matchers changed. -/
theorem same_clone {group : Group} (hgroup : group ∈ groups)
    (haccepted : AcceptedFor R cfg expr group) :
  ∀ vs ∈ expr.selectors,
    (reorder (injectGroup cfg group (reorder vs))).Same (injectGroup cfg group (reorder vs))
  := by
  intro vs hvs
  obtain ⟨o, ho, hmem⟩ := exists_operand_of_mem_selectors hvs
  apply hP.reads.same_reorder (QueryOperand.cloned ho hgroup)
  · rw [selectors_injectTenantToExpression, selectors_updateSelectors]
    apply List.mem_map_of_mem (List.mem_map_of_mem hmem)
  · rw [Rules.acceptsSelector_same (injectGroup_same cfg group (hP.same_reorder vs hvs))]
    apply haccepted vs hvs

/-- The text of an expression followed by those of copies for further groups, with `or`
between them. -/
theorem parse_foldl_or (rest : List Group) :
  ∀ (later : List Group), (∀ group ∈ later, group ∈ groups) → ∀ {left : Expr},
    Composed (QueryOperand reorder cfg groups expr) (QueryClause expr) left → ∀ result : Expr,
    (P.parseExpr (P.exprString (later.foldl (fun lhs group => .binaryExpr .lor lhs
        (injectTenantToExpression (copyOf reorder expr rest) group cfg) none false) left))
        = .ok result ↔
      ∃ lhs, P.parseExpr (P.exprString left) = .ok lhs ∧
        (later = [] ∨ lhs.type R = .vector ∧ expr.type R = .vector) ∧
        (∀ group ∈ later, AcceptedFor R cfg expr group) ∧
        result = later.foldl (fun lhs group =>
          lhs.joinLeft none (readOperand reorder cfg (copyOf reorder expr rest) group)) lhs)
  | [], _, left, _, result => by simp [eq_comm]
  | group :: later, hgroups, left, hleft, result => by
    rw [List.forall_mem_cons] at hgroups
    have hchained := hP.chained_inject hgroups.1 rest
    have hclause : QueryClause expr none := Or.inl rfl
    rw [List.foldl_cons,
      parse_foldl_or rest later hgroups.2 (.join hleft hchained.composed hclause),
      hP.reads.exprString_or]
    simp only [hP.reads.parse_joinLeft hleft hchained hclause, hP.accepted_inject_iff, type_inject,
      type_copyOf, List.foldl_cons, List.forall_mem_cons]
    constructor
    · rintro ⟨-, ⟨lhs, hlhs, htypes, hgroup, rfl⟩, -, hlater, rfl⟩
      use lhs, hlhs, Or.inr htypes, ⟨hgroup, hlater⟩
      rfl
    · rintro ⟨lhs, hlhs, hnil | htypes, ⟨hgroup, hlater⟩, rfl⟩
      · cases hnil
      · exact ⟨_, ⟨lhs, hlhs, htypes, hgroup, rfl⟩,
          Or.inr ⟨type_joinLeft htypes.1 _ _, htypes.2⟩, hlater, rfl⟩

/-- The rewritten query is accepted exactly if the matchers the groups add are, and there is one
group or the query is an instant vector. -/
theorem parse_secureExprOf {first : Group} {rest : List Group} (hgroups : groups = first :: rest)
    (result : Expr) :
  P.parseExpr (P.exprString (secureExprOf P expr cfg (first :: rest))) = .ok result ↔
    (rest = [] ∨ expr.type R = .vector) ∧
      (∀ group ∈ first :: rest, AcceptedFor R cfg expr group) ∧
      result = readSecure reorder cfg expr first rest
  := by
  have hmem : ∀ group ∈ first :: rest, group ∈ groups := fun group hgroup => hgroups ▸ hgroup
  rw [List.forall_mem_cons] at hmem
  have hchained := hP.chained_inject hmem.1 rest
  rw [secureExprOf_cons hP.reparses, hP.parse_foldl_or rest rest hmem.2 hchained.composed]
  simp only [hP.reads.parse_chained hchained, hP.accepted_inject_iff, List.forall_mem_cons]
  constructor
  · rintro ⟨-, ⟨hfirst, rfl⟩, htypes, hrest, rfl⟩
    use htypes.imp_right And.right, ⟨hfirst, hrest⟩
    rfl
  · rintro ⟨htypes, ⟨hfirst, hrest⟩, rfl⟩
    refine ⟨_, ⟨hfirst, rfl⟩, ?_, hrest, rfl⟩
    rw [type_updateSelectors, type_inject, type_copyOf]
    apply htypes.imp_right (fun hvector => ⟨hvector, hvector⟩)

end ReadsQuery

theorem type_foldl_joinLeft (copy : Expr) (later : List Group) {lhs : Expr}
    (h : lhs.type R = .vector) :
  (later.foldl (fun lhs group => lhs.joinLeft none (readOperand reorder cfg copy group))
    lhs).type R = .vector
  := by
  induction later generalizing lhs with
  | nil => apply h
  | cons group later ih => apply ih (type_joinLeft h _ _)

/-- What is read from the rewritten query has the type of the query. -/
theorem type_readSecure (cfg : LabelsConfig) (expr : Expr) (first : Group) {rest : List Group}
    (h : rest = [] ∨ expr.type R = .vector) :
  (readSecure reorder cfg expr first rest).type R = expr.type R
  := by
  have htype : (readOperand reorder cfg (copyOf reorder expr rest) first).type R = expr.type R := by
    rw [readOperand, type_updateSelectors, type_inject, type_copyOf]
  obtain rfl | hvector := h
  · apply htype
  · rw [hvector]
    apply type_foldl_joinLeft
    rw [htype, hvector]

end

end Tenant

/-! ### The parser for texts of queries -/

namespace PromQL.QueryText

open Scan

section

variable (table : Char → Bool) {R : Rules}

theorem Operand.isOr {expr : Expr} (h : Operand expr) :
  expr.isOr = false
  := by
  cases h with
  | number _ => rfl
  | selector _ => rfl
  | aggregate _ _ _ => rfl

theorem accepts_iff {expr : Expr} :
  accepts R expr = true ↔ R.Accepts expr
  := by
  rw [accepts, Bool.and_eq_true, List.all_eq_true]
  constructor
  · rintro ⟨hwell, hselectors⟩
    use hwell
  · intro h
    use h.wellTyped, h.selectors

/-- An `or` passes the checks exactly if its operands do and are instant vectors. -/
theorem accepts_or {lhs rhs : Expr} {m : VectorMatching} (h : ClauseRead (some m)) :
  accepts R (.binaryExpr .lor lhs rhs (some m) false) = true ↔
    accepts R lhs = true ∧ accepts R rhs = true ∧ lhs.type R = .vector ∧ rhs.type R = .vector
  := by
  obtain ⟨hcard, hinclude, -⟩ := h m rfl
  have hallowed : m.allowed .lor = true := by
    rw [VectorMatching.allowed, hcard, hinclude]
    simp
  have htakes : BinaryOp.takes .lor (lhs.type R) (rhs.type R) (some m) false = true ↔
      lhs.type R = .vector ∧ rhs.type R = .vector := by
    constructor
    · intro htakes
      rw [BinaryOp.takes] at htakes
      simp only [BinaryOp.isSetOperator, Bool.and_eq_true, Bool.not_true, Bool.false_or,
        beq_iff_eq] at htakes
      apply htakes.1.2
    · rintro ⟨hl, hr⟩
      rw [BinaryOp.takes, hl, hr]
      simp [hallowed, BinaryOp.isComparison, BinaryOp.isSetOperator]
  rw [accepts, accepts, accepts, Expr.wellTyped, Expr.selectors, List.all_append]
  simp only [Bool.and_eq_true, htakes]
  tauto

theorem chainOf_concat (first : Expr) (links : List (Option VectorMatching × Expr))
    (next : Option VectorMatching × Expr) :
  chainOf first (links ++ [next]) = .binaryExpr .lor (chainOf first links) next.2 next.1 false
  := by
  rw [chainOf, List.foldl_append]
  rfl

theorem readChain_concat (first : Expr) (links : List (Option VectorMatching × Expr))
    (next : Option VectorMatching × Expr) :
  readChain table first (links ++ [next])
    = .binaryExpr .lor (readChain table first links) (readLink table next).2
      (some (readLink table next).1) false
  := by
  rw [readChain, readChain, List.map_append, List.map_singleton, chainOf_concat]

theorem clauseRead_getD {matching : Option VectorMatching} (h : ClauseRead matching) :
  ClauseRead (some (matching.getD plainMatching))
  := by
  cases matching with
  | none =>
    rintro m ⟨⟩
    use rfl, rfl
    rintro name ⟨⟩
  | some m => apply h

/-- Composed operands have the text of a chain. -/
theorem exists_chainOf {expr : Expr} (h : Composed Operand ClauseRead expr) :
  ∃ first links, Operand first ∧ (∀ next ∈ links, ClauseRead next.1 ∧ Operand next.2) ∧
    exprText table expr = exprText table (chainOf first links)
  := by
  induction h with
  | @operand expr h =>
    use expr, [], h
    constructor
    · rintro next ⟨⟩
    · rfl
  | @join lhs rhs matching _ _ hclause ihl ihr =>
    obtain ⟨first, links, hfirst, hlinks, hl⟩ := ihl
    obtain ⟨first', links', hfirst', hlinks', hr⟩ := ihr
    use first, links ++ (matching, first') :: links', hfirst
    constructor
    · rw [List.forall_mem_append, List.forall_mem_cons]
      use hlinks, ⟨hclause, hfirst'⟩
    · rw [exprText, hl, hr, exprText_chainOf, exprText_chainOf, exprText_chainOf, itemsText_append,
        itemsText_cons, clauseText, linkText]
      simp only [List.append_assoc]

/-- Chains of operands are read from their texts. -/
theorem reads_textParser :
  (textParser table R).Reads R clauseText (readSelector table) Operand ClauseRead
  := by
  constructor
  case exprString_or =>
    intro lhs rhs matching
    rfl
  case parse_or =>
    intro left right matching hleft hright hclause expr
    obtain ⟨first, links, hfirst, hlinks, htext⟩ := exists_chainOf table hleft
    have hlast : ∀ next ∈ links ++ [(matching, right)], ClauseRead next.1 ∧ Operand next.2 := by
      rw [List.forall_mem_append, List.forall_mem_singleton]
      use hlinks, hclause
    have htext' : exprText table left ++ clauseText matching ++ exprText table right
        = exprText table (chainOf first (links ++ [(matching, right)])) := by
      rw [chainOf_concat, htext]
      rfl
    have hparse := parseExpr_chainOf table R hfirst hlast expr
    rw [← htext', readChain_concat, readLink, accepts_or (clauseRead_getD hclause)] at hparse
    have hl := parseExpr_chainOf table R hfirst hlinks
    rw [← htext] at hl
    have hnone : ∀ next ∈ ([] : List (Option VectorMatching × Expr)),
        ClauseRead next.1 ∧ Operand next.2 := List.forall_mem_nil _
    have hr := parseExpr_chainOf table R hright hnone
    apply hparse.trans
    constructor
    · rintro ⟨⟨hlhs, hrhs, htypes⟩, rfl⟩
      exact ⟨_, _, (hl _).mpr ⟨hlhs, rfl⟩, (hr _).mpr ⟨hrhs, rfl⟩, htypes, rfl⟩
    · rintro ⟨lhs, rhs, hlhs, hrhs, htypes, rfl⟩
      obtain ⟨hleft', rfl⟩ := (hl _).mp hlhs
      obtain ⟨hright', rfl⟩ := (hr _).mp hrhs
      exact ⟨⟨hleft', hright', htypes⟩, rfl⟩
  case parse_operand =>
    intro o ho
    apply parseExpr_operand table R ho
  case same_reorder =>
    intro o ho vs hvs _
    apply same_readSelector table (ho.readable vs hvs)

end

/-- An accepted chain of readable operands. -/
structure ReadableChain (R : Rules) (expr : Expr) : Prop where
  accepts : R.Accepts expr
  chain : expr.Chain
  operands : ∀ o ∈ expr.operands, Operand o
  clauses : ∀ matching ∈ expr.matchings, ClauseRead matching

section

variable {R : Rules}

theorem readableChain_operand {o : Expr} (h : Operand o)
    (haccepts : ∀ vs ∈ o.selectors, R.acceptsSelector vs = true) :
  ReadableChain R o
  := by
  have hor := h.isOr
  constructor
  case accepts => use h.wellTyped R
  case chain => apply Expr.Chain.operand hor
  case operands =>
    rw [Expr.operands_of_isOr hor, List.forall_mem_singleton]
    apply h
  case clauses =>
    cases h with
    | number _ => rintro matching ⟨⟩
    | selector _ => rintro matching ⟨⟩
    | aggregate _ _ _ => rintro matching ⟨⟩

theorem ReadableChain.join {lhs rhs : Expr} {m : VectorMatching} (h : ReadableChain R lhs)
    (hrhs : Operand rhs) (haccepts : ∀ vs ∈ rhs.selectors, R.acceptsSelector vs = true)
    (hclause : ClauseRead (some m)) (htypes : lhs.type R = .vector ∧ rhs.type R = .vector) :
  ReadableChain R (.binaryExpr .lor lhs rhs (some m) false)
  := by
  constructor
  case accepts =>
    apply accepts_iff.mp
    apply (accepts_or hclause).mpr ⟨accepts_iff.mpr h.accepts, accepts_iff.mpr _, htypes⟩
    use hrhs.wellTyped R
  case chain => apply Expr.Chain.join h.chain hrhs.isOr
  case operands =>
    rw [Expr.operands, List.forall_mem_append, List.forall_mem_singleton]
    use h.operands
  case clauses =>
    rw [Expr.matchings, List.forall_mem_append, List.forall_mem_singleton]
    use h.clauses

end

end PromQL.QueryText

namespace Tenant

open PromQL QueryText

variable (table : Char → Bool) {R : Rules} {cfg : LabelsConfig} {expr : Expr}

/-- A readable vector selector with a group injected is readable. -/
theorem readable_injectGroup {vs : VectorSelector} (h : Readable vs) (g : Group) :
  Readable (injectGroup cfg g vs)
  := by
  rw [injectGroup, injectTenantToVectorSelector]
  split
  · apply h
  · apply Readable.extend h
    · rfl
    · rfl
    · intro m hm
      apply List.mem_append_left _ (List.mem_append_left _ hm)

theorem readable_readSelector {vs : VectorSelector} (h : Readable vs) :
  Readable (readSelector table vs)
  := by
  apply h.extend
  · rfl
  · rfl
  · intro m hm
    apply ((same_readSelector table h).mem_iff m).mpr hm

theorem operand_of_queryOperand {groups : List Group} (hoperands : ∀ o ∈ expr.operands, Operand o)
    {o : Expr} (h : QueryOperand (readSelector table) cfg groups expr o) :
  Operand o
  := by
  cases h with
  | injected ho _ =>
    apply (hoperands _ ho).updateSelectors
    intro vs hvs
    apply readable_injectGroup ((hoperands _ ho).readable vs hvs)
  | @cloned o _ ho _ =>
    have hread : Operand (o.updateSelectors (readSelector table)) := by
      apply (hoperands _ ho).updateSelectors
      intro vs hvs
      apply readable_readSelector table ((hoperands _ ho).readable vs hvs)
    apply hread.updateSelectors
    intro vs hvs
    apply readable_injectGroup (hread.readable vs hvs)

/-- The assumption is met for accepted chains of readable operands. -/
theorem readsQuery_textParser (h : ReadableChain R expr) (groups : List Group) :
  ReadsQuery (textParser table R) R clauseText (readSelector table) cfg groups expr
  := by
  constructor
  case accepts => apply h.accepts
  case chain => apply h.chain
  case reparses =>
    have hchained : Chained R Operand ClauseRead expr :=
      h.chain.chained h.accepts.wellTyped h.operands h.clauses
    apply ((reads_textParser table).parse_chained hchained _).mpr ⟨h.accepts.selectors, rfl⟩
  case same_reorder =>
    intro vs hvs
    obtain ⟨o, ho, hmem⟩ := exists_operand_of_mem_selectors hvs
    apply same_readSelector table ((h.operands o ho).readable vs hmem)
  case reads =>
    apply (reads_textParser table).mono
    · intro o ho
      apply operand_of_queryOperand table h.operands ho
    · rintro matching (rfl | hmatching)
      · rintro m ⟨⟩
      · apply h.clauses matching hmatching

end Tenant

end VmProxyAuth
