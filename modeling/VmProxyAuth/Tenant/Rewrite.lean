import VmProxyAuth.Tenant.Groups
import VmProxyAuth.Tenant.PromQL

/-!
# Rewriting a query for its tenants

`buildSecureExpr` is the expression tree whose text `BuildSecureQuery` answers with.  One
tenant is injected into the query directly; for several the query is cloned for each group
of tenants, the group is injected into the clone, and the clones are joined with `or`.

The vector selectors of the tree are those of the query, each with each group injected, up to the
order of their matchers (`sameSelectors_buildSecureExpr`).
-/

namespace VmProxyAuth

namespace Tenant

open PromQL

/-- The label names and the use of projects. -/
structure LabelsConfig where
  account : GoString
  project : GoString
  useProjectID : Bool
  deriving DecidableEq, Repr

/-- The configuration of the filter. -/
structure FilterConfig where
  strategy : GoString
  labels : LabelsConfig
  deriving DecidableEq, Repr

/-- The label that holds the account. -/
def LabelsConfig.tenantLabel (cfg : LabelsConfig) : GoString :=
  if cfg.account = [] then str "vm_account_id" else cfg.account

/-- The label that holds the project. -/
def LabelsConfig.projectLabel (cfg : LabelsConfig) : GoString :=
  if cfg.project = [] then str "vm_project_id" else cfg.project

/-- Whether a vector selector has a matcher on a label. -/
def hasLabel (vs : VectorSelector) (label : GoString) : Bool :=
  vs.labelMatchers.any (fun m => decide (m.name = label))

/-! ### Injecting one tenant -/

/-- `addSingleTenantFilter`. -/
def addSingleTenantFilter (vs : VectorSelector) (tenant : VMTenant)
    (tenantLabel projectLabel : GoString) (useProjectID : Bool) : VectorSelector :=
  let vs := vs.addMatchers [⟨.equal, tenantLabel, tenant.accountID⟩]
  if useProjectID && tenant.projectID != [] && tenant.projectID != str ".*" then
    vs.addMatchers [⟨.equal, projectLabel, tenant.projectID⟩]
  else vs

/-- `injectTenantLabelsToVectorSelector`, which uses the first of the tenants it is
given. -/
def injectTenantLabelsToVectorSelector (tenant : VMTenant) (cfg : LabelsConfig)
    (vs : VectorSelector) : VectorSelector :=
  if hasLabel vs cfg.tenantLabel then vs
  else addSingleTenantFilter vs tenant cfg.tenantLabel cfg.projectLabel cfg.useProjectID

/-- The expression whose text `InjectTenantLabels` answers with. -/
def injectTenantLabels (P : Parser) (query : GoString) (vmTenants : List VMTenant)
    (cfg : FilterConfig) : Except GoError Expr :=
  match vmTenants with
  | [] => .error (.app AppError.noVMTenantsForFiltering)
  | tenant :: _ =>
    match P.parseExpr query with
    | .error err => .error (.wrapf "failed to parse PromQL query: %w" [] err)
    | .ok expr => .ok (expr.updateSelectors (injectTenantLabelsToVectorSelector tenant cfg.labels))

/-! ### Injecting a group -/

/-- The pattern for several projects. -/
def projectPattern (projectIDs : List GoString) : GoString :=
  str "(" ++ (str "|").intercalate projectIDs ++ str ")"

/-- The matchers on the project label for a group. -/
def projectMatchers (group : Group) (projectLabel : GoString) (useProjectID : Bool) :
    List Matcher :=
  if useProjectID && !group.isWildcard then
    match group.projectIDs with
    | [] => []
    | [projectID] => [⟨.equal, projectLabel, projectID⟩]
    | projectIDs => [⟨.regexp, projectLabel, projectPattern projectIDs⟩]
  else []

/-- `injectTenantToVectorSelector`. -/
def injectTenantToVectorSelector (group : Group) (tenantLabel projectLabel : GoString)
    (useProjectID : Bool) (vs : VectorSelector) : VectorSelector :=
  if hasLabel vs tenantLabel then vs
  else
    let vs := vs.addMatchers [⟨.equal, tenantLabel, group.accountID⟩]
    vs.addMatchers (projectMatchers group projectLabel useProjectID)

/-- `injectTenantToExpression`. -/
def injectTenantToExpression (expr : Expr) (group : Group) (cfg : LabelsConfig) : Expr :=
  expr.updateSelectors
    (injectTenantToVectorSelector group cfg.tenantLabel cfg.projectLabel cfg.useProjectID)

/-- The operands made so far, with the original expression.  An operand `none` is the
original expression itself, which later injections change. -/
structure Operands where
  original : Expr
  operands : List (Option Expr)

namespace Operands

/-- The operands as they now are. -/
def exprs (o : Operands) : List Expr := o.operands.map (fun e => e.getD o.original)

/-- The operand for a group: the group is injected into a clone of the original
expression, made by parsing its text, or into the original expression if that fails. -/
def add (P : Parser) (cfg : LabelsConfig) (o : Operands) (group : Group) : Operands :=
  match P.parseExpr (P.exprString o.original) with
  | .ok cloned =>
    { o with operands := o.operands ++ [some (injectTenantToExpression cloned group cfg)] }
  | .error _ => ⟨injectTenantToExpression o.original group cfg, o.operands ++ [none]⟩

theorem length_operands_add (P : Parser) (cfg : LabelsConfig) (o : Operands) (group : Group) :
  (o.add P cfg group).operands.length = o.operands.length + 1
  := by
  rw [add]
  split
  · simp
  · simp

theorem length_operands_foldl (P : Parser) (cfg : LabelsConfig) (groups : List Group)
    (o : Operands) :
  (groups.foldl (add P cfg) o).operands.length = o.operands.length + groups.length
  := by
  induction groups generalizing o with
  | nil => rfl
  | cons group groups ih =>
    rw [List.foldl_cons, ih, length_operands_add, List.length_cons]
    omega

/-- With a parser that parses the text of the original expression again, every operand is
the clone it reads with the group injected. -/
theorem exprs_foldl (P : Parser) (cfg : LabelsConfig) (groups : List Group) (o : Operands)
    {clone : Expr} (h : P.parseExpr (P.exprString o.original) = .ok clone) :
  (groups.foldl (add P cfg) o).exprs
    = o.exprs ++ groups.map (fun g => injectTenantToExpression clone g cfg)
  := by
  induction groups generalizing o with
  | nil => simp
  | cons group groups ih =>
    have hadd : o.add P cfg group
        = { o with
            operands := o.operands ++ [some (injectTenantToExpression clone group cfg)] } := by
      rw [add, h]
    rw [List.foldl_cons, hadd, ih]
    · simp [exprs]
    · apply h

end Operands

/-- The operands for the groups of a non-empty list of tenants. -/
def orExpressions (P : Parser) (originalExpr : Expr) (tenants : List VMTenant)
    (cfg : FilterConfig) : List Expr :=
  ((optimizeGroups tenants).foldl (Operands.add P cfg.labels) ⟨originalExpr, []⟩).exprs

theorem orExpressions_ne_nil (P : Parser) (originalExpr : Expr) {tenants : List VMTenant}
    (cfg : FilterConfig) (h : tenants ≠ []) :
  orExpressions P originalExpr tenants cfg ≠ []
  := by
  rw [← List.length_pos_iff, orExpressions, Operands.exprs, List.length_map,
    Operands.length_operands_foldl]
  have := List.length_pos_iff.mpr (optimizeGroups_ne_nil h)
  omega

/-- The operands joined with `or`, from the left. -/
def joinOr : (operands : List Expr) → operands ≠ [] → Expr
  | first :: rest, _ =>
    rest.foldl (fun result operand => .binaryExpr .lor result operand none false) first

/-- `createSecureORExpression`. -/
def createSecureORExpression (P : Parser) (originalExpr : Expr) (tenants : List VMTenant)
    (cfg : FilterConfig) (h : tenants ≠ []) : Expr :=
  match optimizeGroups tenants with
  | [group] => injectTenantToExpression originalExpr group cfg.labels
  | _ =>
    joinOr (orExpressions P originalExpr tenants cfg) (orExpressions_ne_nil P originalExpr cfg h)

/-- The expression whose text `BuildSecureQuery` answers with. -/
def buildSecureExpr (P : Parser) (originalQuery : GoString) (tenants : List VMTenant)
    (cfg : FilterConfig) : Except GoError Expr :=
  match tenants with
  | [] => .error (.app AppError.noVMTenantsForFiltering)
  | [tenant] => injectTenantLabels P originalQuery [tenant] cfg
  | first :: second :: rest =>
    match P.parseExpr originalQuery with
    | .error err => .error (.wrapf "failed to parse original query: %w" [] err)
    | .ok expr =>
      .ok (createSecureORExpression P expr (first :: second :: rest) cfg (List.cons_ne_nil _ _))

/-- `BuildSecureQuery`. -/
def buildSecureQuery (P : Parser) (originalQuery : GoString) (tenants : List VMTenant)
    (cfg : FilterConfig) : Except GoError GoString :=
  (buildSecureExpr P originalQuery tenants cfg).map P.exprString

/-! ### The vector selectors of the result -/

/-- The vector selectors of operands joined with `or` are those of the operands. -/
theorem mem_selectors_foldl_or {vs : VectorSelector} (operands : List Expr) (first : Expr) :
  vs ∈ (operands.foldl (fun result operand => Expr.binaryExpr .lor result operand none false)
      first).selectors ↔
    vs ∈ first.selectors ∨ ∃ operand ∈ operands, vs ∈ operand.selectors
  := by
  induction operands generalizing first with
  | nil => simp
  | cons operand operands ih =>
    rw [List.foldl_cons, ih, Expr.selectors, List.mem_append, or_assoc]
    simp

theorem mem_selectors_joinOr {vs : VectorSelector} :
  ∀ (operands : List Expr) (h : operands ≠ []),
    vs ∈ (joinOr operands h).selectors ↔ ∃ operand ∈ operands, vs ∈ operand.selectors
  | first :: rest, _ => by
      rw [joinOr, mem_selectors_foldl_or]
      simp

/-- A vector selector with the group of a tenant injected. -/
def injectGroup (cfg : LabelsConfig) (g : Group) (vs : VectorSelector) : VectorSelector :=
  injectTenantToVectorSelector g cfg.tenantLabel cfg.projectLabel cfg.useProjectID vs

theorem selectors_injectTenantToExpression (expr : Expr) (g : Group) (cfg : LabelsConfig) :
  (injectTenantToExpression expr g cfg).selectors = expr.selectors.map (injectGroup cfg g)
  := selectors_updateSelectors _ expr

/-- Whether a label occurs does not depend on the order of the matchers. -/
theorem hasLabel_same {vs vs' : VectorSelector} (h : vs.Same vs') (label : GoString) :
  hasLabel vs label = hasLabel vs' label
  := by
  rw [Bool.eq_iff_iff, hasLabel, hasLabel, List.any_eq_true, List.any_eq_true]
  simp only [h.mem_iff]

/-- The injection of a group keeps the order of the matchers out. -/
theorem injectGroup_same (cfg : LabelsConfig) (g : Group) {vs vs' : VectorSelector}
    (h : vs.Same vs') :
  (injectGroup cfg g vs).Same (injectGroup cfg g vs')
  := by
  rw [injectGroup, injectGroup, injectTenantToVectorSelector, injectTenantToVectorSelector,
    hasLabel_same h]
  split
  · apply h
  · apply (h.addMatchers _).addMatchers

/-- The lists have the same vector selectors, up to the order of their matchers. -/
structure SameSelectors (l l' : List VectorSelector) : Prop where
  left : ∀ vs ∈ l, ∃ vs' ∈ l', vs.Same vs'
  right : ∀ vs' ∈ l', ∃ vs ∈ l, vs.Same vs'

theorem SameSelectors.refl (l : List VectorSelector) :
  SameSelectors l l
  := ⟨fun vs hvs => ⟨vs, hvs, .refl vs⟩, fun vs hvs => ⟨vs, hvs, .refl vs⟩⟩

/-- The vector selectors of a query with each of some groups injected. -/
def injectedSelectors (cfg : LabelsConfig) (groups : List Group) (expr : Expr) :
    List VectorSelector :=
  groups.flatMap (fun g => expr.selectors.map (injectGroup cfg g))

/-- The vector selectors of a clone with groups injected. -/
theorem sameSelectors_injected (cfg : LabelsConfig) (groups : List Group) {expr clone : Expr}
    (h : expr.Same clone) :
  SameSelectors (injectedSelectors cfg groups clone) (injectedSelectors cfg groups expr)
  := by
  obtain ⟨reorder, rfl, hsame⟩ := h
  simp only [injectedSelectors, selectors_updateSelectors]
  constructor
  · intro vs hvs
    simp only [List.mem_flatMap, List.map_map, List.mem_map, Function.comp_apply] at hvs
    obtain ⟨g, hg, original, horiginal, rfl⟩ := hvs
    use injectGroup cfg g original
    constructor
    · apply List.mem_flatMap.mpr ⟨g, hg, List.mem_map_of_mem horiginal⟩
    · apply injectGroup_same cfg g (hsame original horiginal)
  · intro vs hvs
    simp only [List.mem_flatMap, List.mem_map] at hvs
    obtain ⟨g, hg, original, horiginal, rfl⟩ := hvs
    use injectGroup cfg g (reorder original)
    constructor
    · apply List.mem_flatMap.mpr ⟨g, hg, List.mem_map_of_mem (List.mem_map_of_mem horiginal)⟩
    · apply injectGroup_same cfg g (hsame original horiginal)

/-- The vector selectors of copies of an expression joined with `or`. -/
theorem mem_selectors_joinOr_injected (cfg : LabelsConfig) (expr : Expr) {groups : List Group}
    (h : groups.map (fun g => injectTenantToExpression expr g cfg) ≠ []) {vs : VectorSelector} :
  vs ∈ (joinOr (groups.map (fun g => injectTenantToExpression expr g cfg)) h).selectors ↔
    vs ∈ injectedSelectors cfg groups expr
  := by
  rw [mem_selectors_joinOr, injectedSelectors, List.mem_flatMap]
  constructor
  · rintro ⟨operand, hoperand, hvs⟩
    obtain ⟨g, hg, rfl⟩ := List.mem_map.mp hoperand
    rw [selectors_injectTenantToExpression] at hvs
    use g
  · rintro ⟨g, hg, hvs⟩
    use injectTenantToExpression expr g cfg, List.mem_map_of_mem hg
    rw [selectors_injectTenantToExpression]
    apply hvs

/-- The vector selectors made for several tenants. -/
theorem sameSelectors_createSecureORExpression
    {P : Parser} {expr : Expr} (hreparse : P.Reparses expr) {tenants : List VMTenant}
    (cfg : FilterConfig) (h : tenants ≠ []) :
  SameSelectors (createSecureORExpression P expr tenants cfg h).selectors
    (injectedSelectors cfg.labels (optimizeGroups tenants) expr)
  := by
  rw [createSecureORExpression]
  split
  · rename_i group hgroup
    rw [hgroup, selectors_injectTenantToExpression, injectedSelectors, List.flatMap_singleton]
    apply SameSelectors.refl
  · obtain ⟨clone, hclone, hsame⟩ := hreparse
    have hexprs : orExpressions P expr tenants cfg
        = (optimizeGroups tenants).map (fun g => injectTenantToExpression clone g cfg.labels) := by
      rw [orExpressions, Operands.exprs_foldl P cfg.labels _ ⟨expr, []⟩ hclone]
      rfl
    have hinjected := sameSelectors_injected cfg.labels (optimizeGroups tenants) hsame
    simp only [hexprs]
    constructor
    · intro vs hvs
      apply hinjected.left vs ((mem_selectors_joinOr_injected cfg.labels clone _).mp hvs)
    · intro vs' hvs'
      obtain ⟨vs, hvs, hsame'⟩ := hinjected.right vs' hvs'
      use vs, (mem_selectors_joinOr_injected cfg.labels clone _).mpr hvs

/-- Injecting a single tenant is injecting its group. -/
theorem injectTenantLabelsToVectorSelector_eq (tenant : VMTenant) (cfg : LabelsConfig) :
  injectTenantLabelsToVectorSelector tenant cfg
    = injectGroup cfg (groupOf [tenant] tenant.accountID)
  := by
  funext vs
  rw [injectTenantLabelsToVectorSelector, injectGroup, injectTenantToVectorSelector]
  split
  · rfl
  · rw [addSingleTenantFilter, groupOf_singleton]
    cases hall : allProjects tenant.projectID with
    | true =>
      have : (tenant.projectID != [] && tenant.projectID != str ".*") = false := by
        rw [allProjects] at hall
        grind
      simp [Bool.and_assoc, this, projectMatchers, VectorSelector.addMatchers]
    | false =>
      have : (tenant.projectID != [] && tenant.projectID != str ".*") = true := by
        rw [allProjects] at hall
        grind
      cases cfg.useProjectID with
      | true => simp [this, projectMatchers, VectorSelector.addMatchers]
      | false => simp [projectMatchers, VectorSelector.addMatchers]

/-- The vector selectors of the rewritten query are those of the query, each with each
group of the tenants injected. -/
theorem sameSelectors_buildSecureExpr
    {P : Parser} {query : GoString} {expr : Expr} (hreparse : P.Reparses expr)
    (hexpr : P.parseExpr query = .ok expr) {tenants : List VMTenant} (h : tenants ≠ [])
    (cfg : FilterConfig) :
  ∃ result, buildSecureExpr P query tenants cfg = .ok result ∧
    SameSelectors result.selectors (injectedSelectors cfg.labels (optimizeGroups tenants) expr)
  := by
  rcases tenants with - | ⟨first, - | ⟨second, rest⟩⟩
  · exact absurd rfl h
  · use expr.updateSelectors (injectTenantLabelsToVectorSelector first cfg.labels)
    constructor
    · rw [buildSecureExpr, injectTenantLabels, hexpr]
    · have hmem : ∀ vs, vs ∈ injectedSelectors cfg.labels (optimizeGroups [first]) expr ↔
          vs ∈ expr.selectors.map (injectGroup cfg.labels (groupOf [first] first.accountID)) := by
        intro vs
        rw [injectedSelectors, List.mem_flatMap]
        simp only [mem_optimizeGroups_singleton, exists_eq_left]
      rw [selectors_updateSelectors, injectTenantLabelsToVectorSelector_eq]
      constructor
      · intro vs hvs
        use vs, (hmem vs).mpr hvs
        apply VectorSelector.Same.refl
      · intro vs hvs
        use vs, (hmem vs).mp hvs
        apply VectorSelector.Same.refl
  · use createSecureORExpression P expr (first :: second :: rest) cfg h
    constructor
    · rw [buildSecureExpr, hexpr]
    · apply sameSelectors_createSecureORExpression hreparse

end Tenant

end VmProxyAuth
