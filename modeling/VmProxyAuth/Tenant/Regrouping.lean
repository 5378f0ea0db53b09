import VmProxyAuth.Tenant.Accepted

/-!
# Regrouped queries

An operand of the rewritten query that is itself an `or` is regrouped when the text of the
rewritten query is read.  This is harmless if it compares all labels but the metric name, as the
`or` between the operands does (`meansTree_of_plain`).
-/

namespace VmProxyAuth

namespace PromQL

/-! ### Clauses -/

/-- The labels an `or` compares: those given, or all but those given and the metric name. -/
structure Clause where
  on : Bool
  labels : List GoString
  deriving DecidableEq, Repr

/-- The clause of a matching. -/
def clauseOf (matching : Option VectorMatching) : Clause :=
  (matching.map (fun m => ⟨m.on, m.matchingLabels⟩)).getD ⟨false, []⟩

/-- The clauses of the operators `or` at the top of an expression. -/
def Expr.orClauses (expr : Expr) : List Clause := expr.matchings.map clauseOf

theorem Expr.orClauses_or (lhs rhs : Expr) (matching : Option VectorMatching) (returnBool : Bool) :
  (Expr.binaryExpr .lor lhs rhs matching returnBool).orClauses
    = lhs.orClauses ++ [clauseOf matching]
  := by
  rw [Expr.orClauses, Expr.matchings, List.map_append]
  rfl

/-- All labels but the metric name are compared. -/
def Clause.Plain (c : Clause) : Prop := c.on = false ∧ ∀ label ∈ c.labels, label = metricName

instance (c : Clause) : Decidable c.Plain := inferInstanceAs (Decidable (_ ∧ _))

theorem signature_of_plain {matching : Option VectorMatching} (h : (clauseOf matching).Plain)
    (labels : Series) :
  signature matching labels = dropName labels
  := by
  cases matching with
  | none => rfl
  | some m =>
    obtain ⟨hon, hlabels⟩ := h
    have hon : m.on = false := hon
    rw [signature, hon, if_neg Bool.false_ne_true]
    funext label
    by_cases hname : label = metricName
    · rw [hname, dropName, dropName, Function.update_self, Function.update_self]
    · have hnot : label ∉ m.matchingLabels := fun hmem => hname (hlabels label hmem)
      rw [dropName_apply hname, dropName_apply hname, remove, if_neg hnot]

theorem matchings_updateSelectors (f : VectorSelector → VectorSelector) (expr : Expr) :
  (expr.updateSelectors f).matchings = expr.matchings
  := by
  fun_induction Expr.matchings expr with
  | case1 lhs rhs matching returnBool ih =>
    rw [Expr.updateSelectors, Expr.matchings, ih]
  | case2 expr hor =>
    cases expr with
    | binaryExpr op lhs rhs matching returnBool =>
      cases op with
      | lor => apply absurd rfl (hor lhs rhs matching returnBool)
      | _ => rfl
    | _ => rfl

theorem orClauses_updateSelectors (f : VectorSelector → VectorSelector) (expr : Expr) :
  (expr.updateSelectors f).orClauses = expr.orClauses
  := by
  rw [Expr.orClauses, Expr.orClauses, matchings_updateSelectors]

end PromQL

namespace Tenant

open PromQL

section

variable {V : Type} {E : Engine V} {t : ℤ}

/-! ### Regrouping without clauses -/

theorem eval_of_isOr {expr : Expr} (h : expr.isOr ≠ false) :
  expr.eval E t = .vector (samplesAt E t expr)
  := by
  obtain ⟨lhs, rhs, matching, returnBool, rfl⟩ := Expr.exists_of_isOr h
  rw [samplesAt, Expr.eval]
  rfl

theorem samplesAt_or_matching (lhs rhs : Expr) (matching : Option VectorMatching)
    (returnBool : Bool) :
  samplesAt E t (.binaryExpr .lor lhs rhs matching returnBool)
    = KeyedUnion.orElse (fun x : Sample V => signature matching x.labels) (samplesAt E t lhs)
      (samplesAt E t rhs)
  := by
  rw [samplesAt, Expr.eval]
  rfl

/-- An `or` that compares all labels but the metric name. -/
theorem samplesAt_or_of_plain {matching : Option VectorMatching}
    (h : (clauseOf matching).Plain) (lhs rhs : Expr) (returnBool : Bool) :
  samplesAt E t (.binaryExpr .lor lhs rhs matching returnBool)
    = KeyedUnion.orElse sampleKey (samplesAt E t lhs) (samplesAt E t rhs)
  := by
  rw [samplesAt_or_matching]
  congr 1
  funext x
  apply signature_of_plain h

/-- Without clauses, regrouping does not change the samples. -/
theorem samplesAt_joinLeft (lhs : Expr) (expr : Expr) (h : ∀ c ∈ expr.orClauses, c.Plain) :
  samplesAt E t (lhs.joinLeft none expr)
    = KeyedUnion.orElse sampleKey (samplesAt E t lhs) (samplesAt E t expr)
  := by
  fun_induction Expr.joinLeft lhs none expr with
  | case1 first last matching returnBool ih =>
    rw [Expr.orClauses_or, List.forall_mem_append, List.forall_mem_singleton] at h
    rw [samplesAt_or_of_plain h.2, samplesAt_or_of_plain h.2, ih h.1, KeyedUnion.orElse_assoc]
  | case2 expr hor =>
    apply samplesAt_or_of_plain
    decide

/-- Operands joined from the left have the same samples when they are regrouped. -/
theorem samplesAt_foldl_joinLeft {reorder : VectorSelector → VectorSelector} {cfg : LabelsConfig}
    {copy : Expr} (hplain : ∀ c ∈ copy.orClauses, c.Plain) (groups : List Group)
    (h : ∀ group ∈ groups, samplesAt E t (readOperand reorder cfg copy group)
      = samplesAt E t (injectTenantToExpression copy group cfg)) {lhs lhs' : Expr}
    (hlhs : samplesAt E t lhs' = samplesAt E t lhs) :
  samplesAt E t (groups.foldl
      (fun lhs group => lhs.joinLeft none (readOperand reorder cfg copy group)) lhs')
    = samplesAt E t (groups.foldl (fun result group => .binaryExpr .lor result
        (injectTenantToExpression copy group cfg) none false) lhs)
  := by
  induction groups generalizing lhs lhs' with
  | nil => apply hlhs
  | cons group groups ih =>
    rw [List.forall_mem_cons] at h
    rw [List.foldl_cons, List.foldl_cons]
    apply ih h.2
    rw [samplesAt_joinLeft, samplesAt_or, hlhs, h.1]
    rw [readOperand, injectTenantToExpression, orClauses_updateSelectors,
      orClauses_updateSelectors]
    apply hplain

end

theorem isOr_joinLeft (lhs : Expr) (matching : Option VectorMatching) (expr : Expr) :
  (lhs.joinLeft matching expr).isOr = true
  := by
  fun_cases Expr.joinLeft lhs matching expr with
  | case1 first last matching' returnBool => rfl
  | case2 expr hor => rfl

theorem isOr_foldl {step : Expr → Group → Expr}
    (hstep : ∀ lhs group, (step lhs group).isOr = true) {groups : List Group} (h : groups ≠ [])
    (lhs : Expr) :
  (groups.foldl step lhs).isOr ≠ false
  := by
  obtain ⟨init, last, rfl⟩ := (List.eq_nil_or_concat groups).resolve_left h
  rw [List.concat_eq_append, List.foldl_append, List.foldl_cons, List.foldl_nil, hstep]
  rintro ⟨⟩

/-- The text returned by `BuildSecureQuery` is read as an expression with the value of the tree
it is the text of, on every set of series. -/
def MeansTree (P : Parser) (query : GoString) (expr : Expr) (tenants : List VMTenant)
    (cfg : FilterConfig) (h : tenants ≠ []) : Prop :=
  ∃ result read, buildSecureQuery P query tenants cfg = .ok result ∧
    P.parseExpr result = .ok read ∧
    ∀ (V : Type) (E : Engine V) (t : ℤ),
      read.eval E t = (createSecureORExpression P expr tenants cfg h).eval E t

section

variable {P : Parser} {R : Rules} {clauseText : Option VectorMatching → GoString}
  {reorder : VectorSelector → VectorSelector}

/-- A clone with a group injected is read with the samples it has. -/
theorem samplesAt_readOperand {cfg : LabelsConfig} {groups : List Group} {expr : Expr}
    (hP : ReadsQuery P R clauseText reorder cfg groups expr) {group : Group}
    (hgroup : group ∈ groups) (haccepted : AcceptedFor R cfg expr group)
    {V : Type} (E : Engine V) (t : ℤ) :
  samplesAt E t (readOperand reorder cfg (expr.updateSelectors reorder) group)
    = samplesAt E t (injectTenantToExpression (expr.updateSelectors reorder) group cfg)
  := by
  simp only [samplesAt, readOperand, injectTenantToExpression, updateSelectors_updateSelectors]
  rw [eval_updateSelectors_congr]
  apply hP.same_clone hgroup haccepted

/-- Without clauses, a query for several accounts means the tree exactly if the tenants can be
injected. -/
theorem meansTree_of_plain {query : GoString} {expr : Expr}
    (hquery : P.parseExpr query = .ok expr) (htype : expr.type R = .vector)
    (hplain : ∀ c ∈ expr.orClauses, c.Plain) (cfg : FilterConfig) {tenants : List VMTenant}
    (hne : tenants ≠ []) (htwo : ¬ OneAccount tenants)
    (hP : ReadsQuery P R clauseText reorder cfg.labels (optimizeGroups tenants) expr) :
  MeansTree P query expr tenants cfg hne ↔ Injectable R cfg.labels expr tenants
  := by
  obtain ⟨first, rest, hgroups⟩ := List.exists_cons_of_ne_nil (optimizeGroups_ne_nil hne)
  rw [oneAccount_iff hgroups] at htwo
  rw [MeansTree, buildSecureQuery_of_parse hquery hne, createSecureORExpression_eq,
    ← acceptedFor_iff cfg.labels hP.accepts, hgroups]
  constructor
  · rintro ⟨result, read, hresult, hread, -⟩
    cases hresult
    apply ((hP.parse_secureExprOf hgroups _).mp hread).2.1
  · intro haccepted
    refine ⟨_, readSecure reorder cfg.labels expr first rest, rfl, ?_, ?_⟩
    · apply (hP.parse_secureExprOf hgroups _).mpr ⟨Or.inr htype, haccepted, rfl⟩
    · intro V E t
      have hread : ∀ group ∈ first :: rest,
          samplesAt E t (readOperand reorder cfg.labels (copyOf reorder expr rest) group)
            = samplesAt E t
              (injectTenantToExpression (copyOf reorder expr rest) group cfg.labels) := by
        intro group hgroup
        rw [copyOf, if_neg htwo]
        apply samplesAt_readOperand hP (hgroups ▸ hgroup) (haccepted group hgroup)
      rw [List.forall_mem_cons] at hread
      rw [secureExprOf_cons hP.reparses, readSecure, eval_of_isOr, eval_of_isOr,
        samplesAt_foldl_joinLeft _ rest hread.2 hread.1]
      · rw [copyOf, if_neg htwo, orClauses_updateSelectors]
        apply hplain
      · apply isOr_foldl (fun _ _ => rfl) htwo
      · apply isOr_foldl (fun _ _ => isOr_joinLeft _ _ _) htwo

end

end Tenant

end VmProxyAuth
