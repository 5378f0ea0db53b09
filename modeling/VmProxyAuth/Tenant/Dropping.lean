import VmProxyAuth.Tenant.Evaluation
import VmProxyAuth.Tenant.Isolation

/-!
# Samples dropped by the rewriting

The operands of the rewritten query are joined with `or`, which leaves out a sample if its
labels, without the metric name, occur further left.  No sample of a group is dropped if the query
keeps the account label, or if it keeps the project label and no two groups let the same project
through (`contained_of_keepsApart`).

* For an aggregation that has the value of a single sample, such as `sum`, `avg`, `min` and `max`,
  over a vector selector, the condition is exact: otherwise some stored series are dropped
  (`aggregation_contained_iff`).
* Other queries drop nothing whatever they keep, as they have no samples (`sum(up) unless sum(up)`)
  or the same ones for every group (`group(up)`, `sum(up) * 0`).
-/

namespace VmProxyAuth

namespace PromQL

mutual

/-- Changing the vector selectors does not change what an expression keeps. -/
theorem keeps_updateSelectors (f : VectorSelector → VectorSelector) (keepsFunc : GoString → Bool)
    (label : GoString) :
  ∀ expr : Expr, (expr.updateSelectors f).keeps keepsFunc label = expr.keeps keepsFunc label
  | .numberLiteral _ => rfl
  | .stringLiteral _ => rfl
  | .vectorSelector _ => rfl
  | .matrixSelector _ _ => rfl
  | .subqueryExpr expr _ _ _ => keeps_updateSelectors f keepsFunc label expr
  | .call _ args => by
      rw [Expr.updateSelectors, Expr.keeps, Expr.keeps, keepsList_updateSelectors f _ _ args]
  | .aggregateExpr _ expr _ _ _ => by
      rw [Expr.updateSelectors, Expr.keeps, Expr.keeps, keeps_updateSelectors f _ _ expr]
  | .binaryExpr _ lhs rhs _ _ => by
      rw [Expr.updateSelectors, Expr.keeps, Expr.keeps, keeps_updateSelectors f _ _ lhs,
        keeps_updateSelectors f _ _ rhs]
  | .unaryExpr _ expr => keeps_updateSelectors f keepsFunc label expr
  | .parenExpr expr => keeps_updateSelectors f keepsFunc label expr
  | .stepInvariantExpr expr => keeps_updateSelectors f keepsFunc label expr

theorem keepsList_updateSelectors (f : VectorSelector → VectorSelector)
    (keepsFunc : GoString → Bool) (label : GoString) :
  ∀ args : List Expr,
    keepsList keepsFunc label (updateSelectorsList f args) = keepsList keepsFunc label args
  | [] => rfl
  | expr :: args => by
      rw [updateSelectorsList, keepsList, keepsList, keeps_updateSelectors f _ _ expr,
        keepsList_updateSelectors f _ _ args]

end

end PromQL

namespace Tenant

open PromQL

section

variable {V : Type}

/-- The labels by which `or` compares samples. -/
def sampleKey (x : Sample V) : Series := dropName x.labels

/-- The samples of an expression at a time. -/
def samplesAt (E : Engine V) (t : ℤ) (expr : Expr) : Set (Sample V) := (expr.eval E t).samples

/-- The samples of a query with a group injected. -/
def groupSamples (E : Engine V) (t : ℤ) (cfg : FilterConfig) (expr : Expr) (g : Group) :
    Set (Sample V) :=
  samplesAt E t (injectTenantToExpression expr g cfg.labels)

/-- The rewritten query has every sample of the query with each of the groups injected. -/
def Contained (E : Engine V) (t : ℤ) (P : Parser) (expr : Expr) (cfg : FilterConfig)
    (tenants : List VMTenant) (h : tenants ≠ []) : Prop :=
  ∀ g ∈ optimizeGroups tenants, ∀ x ∈ samplesAt E t (injectTenantToExpression expr g cfg.labels),
    x ∈ samplesAt E t (createSecureORExpression P expr tenants cfg h)

variable {E : Engine V} {t : ℤ} {cfg : FilterConfig} {expr : Expr}

theorem samplesAt_or (lhs rhs : Expr) :
  samplesAt E t (.binaryExpr .lor lhs rhs none false)
    = KeyedUnion.orElse sampleKey (samplesAt E t lhs) (samplesAt E t rhs)
  := by
  rw [samplesAt, Expr.eval]
  rfl

theorem samplesAt_foldl_or (operands : List Expr) (first : Expr) :
  samplesAt E t (operands.foldl
      (fun result operand => Expr.binaryExpr .lor result operand none false) first)
    = (operands.map (samplesAt E t)).foldl (KeyedUnion.orElse sampleKey) (samplesAt E t first)
  := by
  induction operands generalizing first with
  | nil => rfl
  | cons operand operands ih =>
    rw [List.foldl_cons, ih, List.map_cons, List.foldl_cons, samplesAt_or]

/-- The samples of operands joined with `or` are their union by key. -/
theorem samplesAt_joinOr :
  ∀ (operands : List Expr) (h : operands ≠ []) (x : Sample V),
    x ∈ samplesAt E t (joinOr operands h) ↔
      KeyedUnion.FirstHas sampleKey (operands.map (samplesAt E t)) x
  | first :: rest, _, x => by
      rw [List.map_cons, ← KeyedUnion.mem_foldl_orElse, joinOr, samplesAt_foldl_or]

/-- A clone of the query has the samples of the query, whatever group is injected. -/
theorem groupSamples_same {clone : Expr} (h : expr.Same clone) (g : Group) :
  groupSamples E t cfg clone g = groupSamples E t cfg expr g
  := by
  obtain ⟨reorder, rfl, hsame⟩ := h
  rw [groupSamples, groupSamples, samplesAt, samplesAt, injectTenantToExpression,
    injectTenantToExpression, updateSelectors_updateSelectors, eval_updateSelectors_congr]
  intro vs hvs
  apply injectGroup_same cfg.labels g (hsame vs hvs)

/-- The samples of the rewritten query. -/
theorem mem_samplesAt_createSecureORExpression
    {P : Parser} (hreparse : P.Reparses expr) {tenants : List VMTenant} (h : tenants ≠ [])
    (x : Sample V) :
  x ∈ samplesAt E t (createSecureORExpression P expr tenants cfg h) ↔
    KeyedUnion.FirstHas sampleKey ((optimizeGroups tenants).map (groupSamples E t cfg expr)) x
  := by
  rw [createSecureORExpression]
  split
  · rename_i group hgroup
    rw [hgroup]
    simp [KeyedUnion.FirstHas, groupSamples]
  · obtain ⟨clone, hclone, hsame⟩ := hreparse
    have hsamples : groupSamples E t cfg expr = groupSamples E t cfg clone := by
      funext g
      rw [groupSamples_same hsame]
    rw [samplesAt_joinOr, orExpressions, Operands.exprs_foldl _ _ _ ⟨expr, []⟩ hclone, hsamples]
    simp only [Operands.exprs, List.map_nil, List.nil_append, List.map_map]
    rfl

/-! ### Queries that keep the groups apart -/

/-- Whether a group lets a project through. -/
def acceptsProject (re : GoString → GoString → Bool) (cfg : LabelsConfig) (g : Group)
    (project : GoString) : Bool :=
  (projectMatchers g cfg.projectLabel cfg.useProjectID).all
    (fun m => m.matches re (fun _ => project))

/-- No two groups let the same project through. -/
def ProjectsDisjoint (re : GoString → GoString → Bool) (cfg : LabelsConfig)
    (tenants : List VMTenant) : Prop :=
  ∀ g ∈ optimizeGroups tenants, ∀ g' ∈ optimizeGroups tenants, g ≠ g' → ∀ project,
    acceptsProject re cfg g project = true → acceptsProject re cfg g' project = false

/-- The query keeps the account label, or it keeps the project label and no two groups let the
same project through.  `keepsFunc` tells which functions keep a label. -/
def KeepsApart (re : GoString → GoString → Bool) (cfg : LabelsConfig)
    (keepsFunc : GoString → GoString → Bool) (expr : Expr) (tenants : List VMTenant) : Prop :=
  cfg.tenantLabel ≠ metricName ∧ expr.keeps (keepsFunc cfg.tenantLabel) cfg.tenantLabel = true ∨
    cfg.projectLabel ≠ metricName ∧
      expr.keeps (keepsFunc cfg.projectLabel) cfg.projectLabel = true ∧
      ProjectsDisjoint re cfg tenants

theorem name_of_mem_projectMatchers {g : Group} {label : GoString} {useProjectID : Bool}
    {m : Matcher} (h : m ∈ projectMatchers g label useProjectID) :
  m.name = label
  := by
  rw [projectMatchers.eq_def] at h
  split at h
  · split at h
    · cases h
    · rw [List.mem_singleton.mp h]
    · rw [List.mem_singleton.mp h]
  · cases h

/-- The matchers of a group depend on the project only. -/
theorem matches_projectMatchers_iff {re : GoString → GoString → Bool} {labels : LabelsConfig}
    {g : Group} {s : Series} :
  (∀ m ∈ projectMatchers g labels.projectLabel labels.useProjectID, m.matches re s = true) ↔
    acceptsProject re labels g (s labels.projectLabel) = true
  := by
  rw [acceptsProject, List.all_eq_true]
  apply forall₂_congr
  intro m hm
  rw [← name_of_mem_projectMatchers hm]
  rfl

/-- If the series a group lets through have certain values of a label that the query keeps, then
so have the samples of the group. -/
theorem labels_of_mem_groupSamples {label : GoString} (hlabel : label ≠ metricName)
    {keepsFunc : GoString → Bool} (hfunc : ∀ func, keepsFunc func = true → E.FuncKeeps label func)
    (hkeeps : expr.keeps keepsFunc label = true) {g : Group} {values : Set GoString}
    (hvalues : ∀ vs ∈ expr.selectors, ∀ s : Series,
      (injectGroup cfg.labels g vs).selects E.regexp s = true → s label ∈ values)
    {x : Sample V} (hx : x ∈ groupSamples E t cfg expr g) :
  x.labels label ∈ values
  := by
  apply (eval_all hlabel hfunc (injectTenantToExpression expr g cfg.labels) _ _ t).1 x hx
  · rw [injectTenantToExpression, keeps_updateSelectors]
    apply hkeeps
  · rw [selectors_injectTenantToExpression]
    intro vs hvs
    obtain ⟨original, horiginal, rfl⟩ := List.mem_map.mp hvs
    apply hvalues original horiginal

/-- Nothing is dropped if the samples of different groups differ in a label. -/
theorem contained_of_disjoint {P : Parser} (hreparse : P.Reparses expr) {tenants : List VMTenant}
    (h : tenants ≠ []) {label : GoString} (hlabel : label ≠ metricName)
    (values : Group → Set GoString)
    (hvalues : ∀ g ∈ optimizeGroups tenants, ∀ x ∈ groupSamples E t cfg expr g,
      x.labels label ∈ values g)
    (hdisjoint : ∀ g ∈ optimizeGroups tenants, ∀ g' ∈ optimizeGroups tenants, g ≠ g' →
      ∀ value ∈ values g, value ∉ values g') :
  Contained E t P expr cfg tenants h
  := by
  intro g hg x hx
  rw [mem_samplesAt_createSecureORExpression hreparse]
  apply KeyedUnion.firstHas_of_forall
  · use groupSamples E t cfg expr g, List.mem_map_of_mem hg
    apply hx
  · intro samples hsamples
    obtain ⟨other, hother, rfl⟩ := List.mem_map.mp hsamples
    by_cases heq : g = other
    · left
      rw [← heq]
      apply hx
    · right
      intro y hy hkey
      have hvalue := congrFun hkey label
      rw [sampleKey, sampleKey, dropName_apply hlabel, dropName_apply hlabel] at hvalue
      apply hdisjoint g hg other hother heq _ (hvalues g hg x hx)
      rw [← hvalue]
      apply hvalues other hother y hy

section

variable {P : Parser} (hreparse : P.Reparses expr) {tenants : List VMTenant} (h : tenants ≠ [])
  (hlabels : ∀ vs ∈ expr.selectors, hasLabel vs cfg.labels.tenantLabel = false)
  {keepsFunc : GoString → Bool}

include hreparse hlabels

theorem contained_of_keeps_account (hname : cfg.labels.tenantLabel ≠ metricName)
    (hfunc : ∀ func, keepsFunc func = true → E.FuncKeeps cfg.labels.tenantLabel func)
    (hkeeps : expr.keeps keepsFunc cfg.labels.tenantLabel = true) :
  Contained E t P expr cfg tenants h
  := by
  apply contained_of_disjoint hreparse h hname (fun g => {g.accountID})
  · intro g _ x hx
    apply labels_of_mem_groupSamples hname hfunc hkeeps _ hx
    intro vs hvs s hs
    apply ((selects_injectGroup (hlabels vs hvs)).mp hs).2.1
  · rintro g hg g' hg' hne _ rfl haccount
    apply hne
    rw [(mem_optimizeGroups.mp hg).1, (mem_optimizeGroups.mp hg').1,
      Set.mem_singleton_iff.mp haccount]

theorem contained_of_keeps_project (hname : cfg.labels.projectLabel ≠ metricName)
    (hfunc : ∀ func, keepsFunc func = true → E.FuncKeeps cfg.labels.projectLabel func)
    (hkeeps : expr.keeps keepsFunc cfg.labels.projectLabel = true)
    (hdisjoint : ProjectsDisjoint E.regexp cfg.labels tenants) :
  Contained E t P expr cfg tenants h
  := by
  apply contained_of_disjoint hreparse h hname
    (fun g => {project | acceptsProject E.regexp cfg.labels g project = true})
  · intro g _ x hx
    apply labels_of_mem_groupSamples hname hfunc hkeeps _ hx
    intro vs hvs s hs
    apply matches_projectMatchers_iff.mp ((selects_injectGroup (hlabels vs hvs)).mp hs).2.2
  · intro g hg g' hg' hne project hproject hproject'
    apply absurd hproject'
    rw [Set.mem_ofPred_eq, hdisjoint g hg g' hg' hne project hproject]
    apply Bool.false_ne_true

end

end

/-! ### Aggregations -/

section

variable {V : Type} {E : Engine V}

/-- An aggregation of one sample. -/
theorem aggregateVector_singleton {op : AggregateOp} (hchooses : op.chooses = false)
    (hcount : op ≠ .countValues) {grouping : List GoString} {without : Bool} (x : Sample V) :
  E.aggregateVector op none grouping without {x}
    = {⟨groupLabels grouping without x.labels, E.aggregate op none {x}⟩}
  := by
  have hgroup : {y ∈ ({x} : Set (Sample V)) | groupLabels grouping without y.labels
      = groupLabels grouping without x.labels} = {x} := by
    ext y
    constructor
    · rintro ⟨hy, -⟩
      apply hy
    · rintro rfl
      use rfl
  ext z
  simp only [Engine.aggregateVector, hchooses, Bool.false_eq_true, if_false,
    Set.mem_singleton_iff, exists_eq_left]
  rw [← hgroup]
  rfl

/-- An aggregation has at most one sample with given labels. -/
theorem eq_of_mem_aggregateVector {op : AggregateOp} (hchooses : op.chooses = false)
    {grouping : List GoString} {without : Bool} {v : Set (Sample V)} {x y : Sample V}
    (hx : x ∈ E.aggregateVector op none grouping without v)
    (hy : y ∈ E.aggregateVector op none grouping without v) (h : x.labels = y.labels) :
  x = y
  := by
  simp only [Engine.aggregateVector, hchooses, Bool.false_eq_true, if_false] at hx hy
  obtain ⟨a, ha, rfl⟩ := hx
  obtain ⟨b, hb, rfl⟩ := hy
  simp only at h
  simp only [h]

/-- The labels of a group do not depend on a label the aggregation does not keep. -/
theorem groupLabels_update {op : AggregateOp} (hchooses : op.chooses = false)
    (hcount : op ≠ .countValues) {label : GoString} {grouping : List GoString} {without : Bool}
    (h : op.keeps label grouping without = false) (labels : Series) (value : GoString) :
  groupLabels grouping without (Function.update labels label value)
    = groupLabels grouping without labels
  := by
  rw [AggregateOp.keeps, hchooses, Bool.false_or, decide_eq_true hcount, Bool.true_and] at h
  cases without with
  | true =>
    have hmem : label ∈ grouping := by simpa using h
    have hremove : remove grouping (Function.update labels label value)
        = remove grouping labels := by
      funext name
      rw [remove, remove]
      split
      · rfl
      · rename_i hname
        have hne : name ≠ label := fun heq => hname (heq ▸ hmem)
        rw [Function.update_of_ne hne]
    rw [groupLabels, groupLabels, if_pos rfl, if_pos rfl, hremove]
  | false =>
    have hnot : label ∉ grouping := by simpa using h
    have hrestrict : restrictTo grouping (Function.update labels label value)
        = restrictTo grouping labels := by
      funext name
      rw [restrictTo, restrictTo]
      split
      · rename_i hname
        have hne : name ≠ label := fun heq => hnot (heq ▸ hname)
        rw [Function.update_of_ne hne]
      · rfl
    rw [groupLabels, groupLabels, if_neg Bool.false_ne_true, if_neg Bool.false_ne_true, hrestrict]

/-- A vector selector does not depend on a label it has no matcher on. -/
theorem selects_update {re : GoString → GoString → Bool} {vs : VectorSelector} {label : GoString}
    (h : hasLabel vs label = false) (s : Series) (value : GoString) :
  vs.selects re (Function.update s label value) = vs.selects re s
  := by
  rw [hasLabel, List.any_eq_false] at h
  have hmatches : ∀ m ∈ vs.labelMatchers,
      m.matches re (Function.update s label value) = m.matches re s := by
    intro m hm
    have hne : m.name ≠ label := by simpa using h m hm
    rw [Matcher.matches, Matcher.matches, Function.update_of_ne hne]
  rw [Bool.eq_iff_iff, VectorSelector.selects, VectorSelector.selects, List.all_eq_true,
    List.all_eq_true]
  apply forall₂_congr
  intro m hm
  rw [hmatches m hm]

/-- Of two stored series, a vector selector selects the one it matches. -/
theorem selectInstant_pair {vs : VectorSelector} {t : ℤ} {r r' : RangeSample V} {v : V}
    (hr : vs.selects E.regexp r.labels = true) (hr' : vs.selects E.regexp r'.labels ≠ true)
    (hlatest : E.latest r.points (E.shift vs.modifier t) = some v) :
  Engine.selectInstant { E with series := {r, r'} } vs t = {⟨r.labels, v⟩}
  := by
  ext x
  constructor
  · rintro ⟨s, rfl | rfl, hs, hlabels, hvalue⟩
    · have heq : some v = some x.value := hlatest.symm.trans hvalue
      rw [Option.some.inj heq, ← hlabels]
      rfl
    · apply absurd hs hr'
  · rintro rfl
    apply Exists.intro r ⟨Or.inl rfl, hr, rfl, hlatest⟩

/-- A series with another account and another project. -/
def placed (cfg : LabelsConfig) (s : Series) (account project : GoString) : Series :=
  Function.update (Function.update s cfg.tenantLabel account) cfg.projectLabel project

theorem modifier_injectGroup (cfg : LabelsConfig) (g : Group) (vs : VectorSelector) :
  (injectGroup cfg g vs).modifier = vs.modifier
  := by
  rw [injectGroup, injectTenantToVectorSelector]
  split
  · rfl
  · rfl

/-- Two placed series fall in one group of an aggregation that keeps neither the account nor, if
they differ in it, the project. -/
theorem groupLabels_placed {op : AggregateOp} (hchooses : op.chooses = false)
    (hcount : op ≠ .countValues) {cfg : LabelsConfig} (hne : cfg.tenantLabel ≠ cfg.projectLabel)
    {grouping : List GoString} {without : Bool}
    (htenant : op.keeps cfg.tenantLabel grouping without = false) {project project' : GoString}
    (hproject : op.keeps cfg.projectLabel grouping without = false ∨ project = project')
    (s : Series) (account account' : GoString) :
  groupLabels grouping without (placed cfg s account project)
    = groupLabels grouping without (placed cfg s account' project')
  := by
  obtain hnot | rfl := hproject
  · simp only [placed, groupLabels_update hchooses hcount hnot,
      groupLabels_update hchooses hcount htenant]
  · simp only [placed, Function.update_comm hne, groupLabels_update hchooses hcount htenant]

/-- Two groups have series that differ in no label an aggregation keeps, if it does not keep the
groups apart. -/
theorem exists_together {re : GoString → GoString → Bool} {cfg : LabelsConfig} {expr : Expr}
    {tenants : List VMTenant} {keepsFunc : GoString → GoString → Bool}
    (hname : cfg.projectLabel ≠ metricName) (hnot : ¬ KeepsApart re cfg keepsFunc expr tenants)
    (htwo : ∃ g ∈ optimizeGroups tenants, ∃ g' ∈ optimizeGroups tenants, g ≠ g')
    (hprojects : ∀ g ∈ optimizeGroups tenants, ∃ project, acceptsProject re cfg g project = true) :
  ∃ g ∈ optimizeGroups tenants, ∃ g' ∈ optimizeGroups tenants, g ≠ g' ∧
    ∃ project, acceptsProject re cfg g project = true ∧
    ∃ project', acceptsProject re cfg g' project' = true ∧
      (expr.keeps (keepsFunc cfg.projectLabel) cfg.projectLabel = false ∨ project = project')
  := by
  cases hkeeps : expr.keeps (keepsFunc cfg.projectLabel) cfg.projectLabel with
  | false =>
    obtain ⟨g, hg, g', hg', hne⟩ := htwo
    obtain ⟨project, hproject⟩ := hprojects g hg
    obtain ⟨project', hproject'⟩ := hprojects g' hg'
    use g, hg, g', hg', hne, project, hproject, project', hproject'
    apply Or.inl rfl
  | true =>
    have hcommon : ¬ ProjectsDisjoint re cfg tenants :=
      fun hdisjoint => hnot (Or.inr ⟨hname, hkeeps, hdisjoint⟩)
    simp only [ProjectsDisjoint, not_forall, Bool.not_eq_false] at hcommon
    obtain ⟨g, hg, g', hg', hne, project, hproject, hproject'⟩ := hcommon
    use g, hg, g', hg', hne, project, hproject, project, hproject'
    apply Or.inr rfl

section

variable {cfg : FilterConfig} {vs : VectorSelector} {s : Series}
  (hs : vs.selects E.regexp s = true)
  (htenant : hasLabel vs cfg.labels.tenantLabel = false)
  (hproject : hasLabel vs cfg.labels.projectLabel = false)
  (hne : cfg.labels.tenantLabel ≠ cfg.labels.projectLabel)

include hs htenant hproject hne

/-- With a group injected, a vector selector selects the series of the account and of the projects
the group lets through. -/
theorem selects_placed_iff (g : Group) (account project : GoString) :
  (injectGroup cfg.labels g vs).selects E.regexp (placed cfg.labels s account project) = true ↔
    account = g.accountID ∧ acceptsProject E.regexp cfg.labels g project = true
  := by
  have haccount : placed cfg.labels s account project cfg.labels.tenantLabel = account := by
    rw [placed, Function.update_of_ne hne, Function.update_self]
  have hselects : vs.selects E.regexp (placed cfg.labels s account project) = true := by
    rw [placed, selects_update hproject, selects_update htenant]
    apply hs
  have hvalue : placed cfg.labels s account project cfg.labels.projectLabel = project :=
    Function.update_self _ _ _
  rw [selects_injectGroup htenant, matches_projectMatchers_iff, haccount, hvalue,
    and_iff_right hselects]

variable {t : ℤ} {op : AggregateOp} (hchooses : op.chooses = false) (hcount : op ≠ .countValues)
  (hsingle : ∀ x : Sample V, E.aggregate op none {x} = x.value)

include hchooses hcount hsingle

/-- Of two stored series of different accounts, an aggregation has, with the group of the first one
injected, the value of the first one. -/
theorem groupSamples_pair (grouping : List GoString) (without : Bool) {g : Group}
    {project other : GoString} (project' : GoString) {points : ℤ → Option V}
    (points' : ℤ → Option V) {v : V} (hother : other ≠ g.accountID)
    (hg : acceptsProject E.regexp cfg.labels g project = true)
    (hlatest : E.latest points (E.shift vs.modifier t) = some v) :
  groupSamples { E with series := {⟨placed cfg.labels s g.accountID project, points⟩,
      ⟨placed cfg.labels s other project', points'⟩} } t cfg
      (.aggregateExpr op (.vectorSelector vs) none grouping without) g
    = {⟨groupLabels grouping without (placed cfg.labels s g.accountID project), v⟩}
  := by
  have hselect : ∀ E' : Engine V, groupSamples E' t cfg
      (.aggregateExpr op (.vectorSelector vs) none grouping without) g
      = E'.aggregateVector op none grouping without
        (E'.selectInstant (injectGroup cfg.labels g vs) t) := fun _ => rfl
  rw [hselect, selectInstant_pair (v := v), aggregateVector_singleton hchooses hcount]
  · simp only [hsingle]
  · apply (selects_placed_iff hs htenant hproject hne g _ _).mpr ⟨rfl, hg⟩
  · intro hselects
    apply hother ((selects_placed_iff hs htenant hproject hne g _ _).mp hselects).1
  · rw [modifier_injectGroup]
    apply hlatest

variable (hlatest : ∀ v, ∃ points, E.latest points (E.shift vs.modifier t) = some v)
  {P : Parser} {tenants : List VMTenant} (h : tenants ≠ []) {grouping : List GoString}
  {without : Bool}
  (hreparse : P.Reparses (.aggregateExpr op (.vectorSelector vs) none grouping without))

include hlatest hreparse

/-- If series of two groups fall in one group of the aggregation, one of two such series with
different values is dropped. -/
theorem exists_not_contained [Nontrivial V] {g g' : Group} (hg : g ∈ optimizeGroups tenants)
    (hg' : g' ∈ optimizeGroups tenants) (hgroups : g ≠ g') {project project' : GoString}
    (hp : acceptsProject E.regexp cfg.labels g project = true)
    (hp' : acceptsProject E.regexp cfg.labels g' project' = true)
    (hlabels : groupLabels grouping without (placed cfg.labels s g.accountID project)
      = groupLabels grouping without (placed cfg.labels s g'.accountID project')) :
  ∃ series, ¬ Contained { E with series := series } t P
    (.aggregateExpr op (.vectorSelector vs) none grouping without) cfg tenants h
  := by
  have haccounts : g.accountID ≠ g'.accountID := by
    intro heq
    apply hgroups
    rw [(mem_optimizeGroups.mp hg).1, (mem_optimizeGroups.mp hg').1, heq]
  obtain ⟨v, v', hvalues⟩ := exists_pair_ne V
  obtain ⟨points, hpoints⟩ := hlatest v
  obtain ⟨points', hpoints'⟩ := hlatest v'
  use {⟨placed cfg.labels s g.accountID project, points⟩,
    ⟨placed cfg.labels s g'.accountID project', points'⟩}
  intro hcontained
  have hx := groupSamples_pair hs htenant hproject hne hchooses hcount hsingle grouping without
    project' points' haccounts.symm hp hpoints
  have hx' := groupSamples_pair hs htenant hproject hne hchooses hcount hsingle grouping without
    project points haccounts hp' hpoints'
  rw [Set.pair_comm] at hx'
  have hfirst := (mem_samplesAt_createSecureORExpression hreparse h _).mp
    (hcontained g hg _ (hx.ge rfl))
  have hsecond := (mem_samplesAt_createSecureORExpression hreparse h _).mp
    (hcontained g' hg' _ (hx'.ge rfl))
  -- both samples are among those of one group, which has one sample for the labels
  obtain ⟨samples, hsamples, hmem, hmem'⟩ :=
    KeyedUnion.exists_mem_of_firstHas hfirst hsecond (congrArg dropName hlabels)
  obtain ⟨g'', -, rfl⟩ := List.mem_map.mp hsamples
  have heq := eq_of_mem_aggregateVector hchooses hmem hmem' hlabels
  apply hvalues (Sample.mk.inj heq).2

/-- For an aggregation that has the value of a single sample, over a vector selector that matches
some series: nothing is dropped on any stored series exactly if the aggregation keeps the groups
apart. -/
theorem aggregation_contained_iff [Nontrivial V] (hname : cfg.labels.tenantLabel ≠ metricName)
    (hname' : cfg.labels.projectLabel ≠ metricName)
    (htwo : ∃ g ∈ optimizeGroups tenants, ∃ g' ∈ optimizeGroups tenants, g ≠ g')
    (hprojects : ∀ g ∈ optimizeGroups tenants,
      ∃ project, acceptsProject E.regexp cfg.labels g project = true) :
  (∀ series, Contained { E with series := series } t P
      (.aggregateExpr op (.vectorSelector vs) none grouping without) cfg tenants h) ↔
    KeepsApart E.regexp cfg.labels (fun _ _ => false)
      (.aggregateExpr op (.vectorSelector vs) none grouping without) tenants
  := by
  constructor
  · intro hall
    by_contra hnot
    have hkeeps : ∀ label, Expr.keeps (fun _ => false) label
        (.aggregateExpr op (.vectorSelector vs) none grouping without)
        = op.keeps label grouping without := fun label => Bool.and_true _
    have haccount : op.keeps cfg.labels.tenantLabel grouping without = false := by
      rw [← hkeeps, ← Bool.not_eq_true]
      intro hkept
      apply hnot (Or.inl ⟨hname, hkept⟩)
    obtain ⟨g, hg, g', hg', hgroups, project, hp, project', hp', htogether⟩ :=
      exists_together hname' hnot htwo hprojects
    rw [hkeeps] at htogether
    obtain ⟨series, hdropped⟩ := exists_not_contained hs htenant hproject hne hchooses hcount
      hsingle hlatest h hreparse hg hg' hgroups hp hp'
      (groupLabels_placed hchooses hcount hne haccount htogether s _ _)
    apply hdropped (hall series)
  · intro hapart series
    have hlabels : ∀ vs' ∈ (Expr.aggregateExpr op (.vectorSelector vs) none grouping
        without).selectors, hasLabel vs' cfg.labels.tenantLabel = false := by
      intro vs' hvs'
      rw [List.mem_singleton.mp hvs']
      apply htenant
    have hfunc : ∀ label func, (fun _ _ : GoString => false) label func = true →
        Engine.FuncKeeps { E with series := series } label func := by
      rintro label func ⟨⟩
    obtain ⟨hname, hkept⟩ | ⟨hname, hkept, hdisjoint⟩ := hapart
    · apply contained_of_keeps_account hreparse h hlabels hname (hfunc _) hkept
    · apply contained_of_keeps_project hreparse h hlabels hname (hfunc _) hkept hdisjoint

end

end

/-! ### The sum over two accounts -/

/-- The vector selector for a metric. -/
def metricSelector (name : GoString) : VectorSelector where
  name := name
  labelMatchers := [⟨.equal, metricName, name⟩]
  modifier := ⟨0, none, none⟩

section

variable {name : GoString}

theorem readable_metricSelector (h : QueryText.isMetricName name = true) :
  QueryText.Readable (metricSelector name)
  := by
  constructor
  · apply h
  · rfl
  · apply List.mem_cons_self

theorem acceptsSelector_metricSelector (h : name ≠ []) :
  QueryText.wordRules.acceptsSelector (metricSelector name) = true
  := by
  simp [Rules.acceptsSelector, Rules.acceptsMatcher, VectorSelector.allowsMatcher, metricSelector,
    VectorSelector.nameMatcher, QueryText.wordRules, h]

theorem sortedMatchers_metricSelector (table : Char → Bool) :
  QueryText.sortedMatchers table (metricSelector name) = []
  := by
  have hfilter : (metricSelector name).labelMatchers.filter
      (fun m => m != (metricSelector name).nameMatcher) = [] := by
    simp [metricSelector, VectorSelector.nameMatcher]
  rw [QueryText.sortedMatchers, hfilter, List.mergeSort_nil]

theorem readSelector_metricSelector (table : Char → Bool) :
  QueryText.readSelector table (metricSelector name) = metricSelector name
  := by
  rw [QueryText.readSelector, sortedMatchers_metricSelector]
  rfl

end

/-- The vector selector `up`. -/
def upSelector : VectorSelector := metricSelector (str "up")

/-- The series `up` of an account. -/
def upSeries (account : GoString) : Series := fun label =>
  if label = str "vm_account_id" then account
  else if label = metricName then str "up"
  else []

/-- A store with the series `up` of the accounts `1` and `2`, with the values 1 and 2. -/
noncomputable def upEngine : Engine ℤ where
  series := {⟨upSeries (str "1"), fun _ => some 1⟩, ⟨upSeries (str "2"), fun _ => some 2⟩}
  regexp := QueryText.wordRules.regexp
  start := 0
  stop := 0
  defaultStep := 1
  latest := fun points t => points t
  literal := fun _ => 0
  negate := fun x => -x
  binary := fun _ _ x y => some (x + y)
  aggregate := fun _ _ samples => ∑ᶠ x ∈ samples, x.value
  chosen := fun _ _ _ _ => True
  text := fun _ => []
  call := fun _ _ _ => .vector ∅

/-- A user of all projects of the accounts `1` and `2`. -/
def twoAccounts : List VMTenant := [⟨str "1", []⟩, ⟨str "2", []⟩]

theorem twoAccounts_ne_nil : twoAccounts ≠ [] := List.cons_ne_nil _ _

theorem optimizeGroups_twoAccounts :
  optimizeGroups twoAccounts = [⟨str "1", [], true⟩, ⟨str "2", [], true⟩]
  := by
  have hsort : optimizeGroups twoAccounts
      = List.mergeSort [⟨str "2", [], true⟩, ⟨str "1", [], true⟩]
        (fun x y => decide (x.accountID ≤ y.accountID)) := rfl
  have hle : ¬ str "2" ≤ str "1" := by decide
  simp [hsort, List.mergeSort, List.MergeSort.Internal.splitInTwo, hle]

/-- The sum of `up` by some labels. -/
def sumUpBy (names : List GoString) : Expr :=
  .aggregateExpr .sum (.vectorSelector upSelector) none names false

theorem isMetricName_up :
  QueryText.isMetricName (str "up") = true
  := by
  decide +kernel

section

variable {names : List GoString} (h : ∀ name ∈ names, QueryText.isClauseLabel name = true)

include h

theorem operand_sumUpBy :
  QueryText.Operand (sumUpBy names)
  := by
  apply QueryText.Operand.aggregate (by decide) (readable_metricSelector isMetricName_up) h

/-- The text of the sum is read as the sum. -/
theorem parseExpr_sumUpBy :
  QueryText.wordParser.parseExpr
    (str "sum" ++ QueryText.groupingText names false ++ str "(" ++ str "up" ++ str ")")
      = .ok (sumUpBy names)
  := by
  have htext : str "sum" ++ QueryText.groupingText names false ++ str "(" ++ str "up" ++ str ")"
      = QueryText.exprText (fun _ => false) (sumUpBy names) := by
    rw [sumUpBy, QueryText.exprText, QueryText.exprText, QueryText.selectorText_eq,
      upSelector, sortedMatchers_metricSelector]
    rfl
  rw [htext]
  apply (QueryText.parseExpr_operand _ _ (operand_sumUpBy h) _).mpr
  constructor
  · intro vs hvs
    rw [List.mem_singleton.mp hvs]
    apply acceptsSelector_metricSelector (by decide)
  · rw [sumUpBy, Expr.updateSelectors, Expr.updateSelectors, upSelector,
      readSelector_metricSelector]
    rfl

theorem reparses_sumUpBy :
  QueryText.wordParser.Reparses (sumUpBy names)
  := by
  apply QueryText.reparses_operand _ _ (operand_sumUpBy h)
  intro vs hvs
  rw [List.mem_singleton.mp hvs]
  apply acceptsSelector_metricSelector (by decide)

end

theorem isClauseLabel_account :
  ∀ name ∈ [str "vm_account_id"], QueryText.isClauseLabel name = true
  := by
  decide +kernel

/-- A query without matchers on the account label drops no sample of any group, whatever is
stored, if it keeps the account label, or if it keeps the project label and no two groups let the
same project through. -/
theorem contained_of_keepsApart
    {V : Type} (E : Engine V) (t : ℤ) (P : Parser) (expr : Expr) (hreparse : P.Reparses expr)
    (cfg : FilterConfig) (tenants : List VMTenant) (h : tenants ≠ [])
    (hlabels : ∀ vs ∈ expr.selectors, hasLabel vs cfg.labels.tenantLabel = false)
    (keepsFunc : GoString → GoString → Bool)
    (hfunc : ∀ label func, keepsFunc label func = true → E.FuncKeeps label func)
    (hapart : KeepsApart E.regexp cfg.labels keepsFunc expr tenants) :
  Contained E t P expr cfg tenants h
  := by
  obtain ⟨hname, hkeeps⟩ | ⟨hname, hkeeps, hdisjoint⟩ := hapart
  · apply contained_of_keeps_account hreparse h hlabels hname (hfunc _) hkeeps
  · apply contained_of_keeps_project hreparse h hlabels hname (hfunc _) hkeeps hdisjoint

/-- The query `sum by (vm_account_id) (up)` for the accounts `1` and `2` loses nothing. -/
theorem sum_by_account_contained :
  QueryText.wordParser.parseExpr (str "sum by (vm_account_id) (up)")
      = .ok (sumUpBy [str "vm_account_id"]) ∧
    (optimizeGroups twoAccounts).length = 2 ∧
    Contained upEngine 0 QueryText.wordParser (sumUpBy [str "vm_account_id"]) defaultFilter
      twoAccounts twoAccounts_ne_nil
  := by
  refine ⟨?_, ?_, ?_⟩
  · have hparse := parseExpr_sumUpBy isClauseLabel_account
    have htext : str "sum by (vm_account_id) (up)"
        = str "sum" ++ QueryText.groupingText [str "vm_account_id"] false ++ str "(" ++ str "up"
          ++ str ")" := by
      decide +kernel
    rw [htext]
    apply hparse
  · rw [optimizeGroups_twoAccounts]
    rfl
  · apply contained_of_keepsApart upEngine 0 _ _ (reparses_sumUpBy isClauseLabel_account)
      defaultFilter twoAccounts _ (by decide) (fun _ _ => false)
    · rintro label func ⟨⟩
    · left
      decide

/-- The sample of an account in the store. -/
def upSample (account : GoString) : Sample ℤ :=
  ⟨upSeries account, if account = str "1" then 1 else 2⟩

/-- With an account injected, `up` selects the sample of the account. -/
theorem selectInstant_up {account : GoString} (h : account = str "1" ∨ account = str "2") :
  upEngine.selectInstant (injectGroup defaultFilter.labels ⟨account, [], true⟩ upSelector) 0
    = {upSample account}
  := by
  ext x
  obtain ⟨labels, value⟩ := x
  constructor
  · rintro ⟨s, hs, hselects, hlabels, hvalue⟩
    obtain ⟨-, haccount, -⟩ := (selects_injectGroup (by decide)).mp hselects
    obtain rfl | rfl := hs
    · obtain rfl : account = str "1" := haccount.symm
      obtain rfl : labels = upSeries (str "1") := hlabels
      obtain rfl : 1 = value := Option.some.inj hvalue
      rfl
    · obtain rfl : account = str "2" := haccount.symm
      obtain rfl : labels = upSeries (str "2") := hlabels
      obtain rfl : 2 = value := Option.some.inj hvalue
      rfl
  · rintro hx
    obtain rfl | rfl := h
    · obtain ⟨rfl, rfl⟩ := Sample.mk.inj hx
      use ⟨upSeries (str "1"), fun _ => some 1⟩, Or.inl rfl
      refine ⟨by decide, rfl, rfl⟩
    · obtain ⟨rfl, rfl⟩ := Sample.mk.inj hx
      use ⟨upSeries (str "2"), fun _ => some 2⟩, Or.inr rfl
      refine ⟨by decide, rfl, rfl⟩

/-- With an account injected, `sum(up)` has the number of the account, and no labels. -/
theorem groupSamples_sumUp {account : GoString} (h : account = str "1" ∨ account = str "2") :
  groupSamples upEngine 0 defaultFilter (sumUpBy []) ⟨account, [], true⟩
    = {⟨fun _ => [], (upSample account).value⟩}
  := by
  have hsum : groupSamples upEngine 0 defaultFilter (sumUpBy []) ⟨account, [], true⟩
      = upEngine.aggregateVector .sum none [] false (upEngine.selectInstant
        (injectGroup defaultFilter.labels ⟨account, [], true⟩ upSelector) 0) := rfl
  have hvalue : upEngine.aggregate .sum none {upSample account} = (upSample account).value :=
    finsum_mem_singleton
  rw [hsum, selectInstant_up h, aggregateVector_singleton rfl (by rintro ⟨⟩), hvalue]
  rfl

/-- `sum(up)` for the accounts `1` and `2` loses the number of the account `2`. -/
theorem second_sum_dropped :
  QueryText.wordParser.parseExpr (str "sum(up)") = .ok (sumUpBy []) ∧
    (optimizeGroups twoAccounts).length = 2 ∧
    (∀ vs ∈ (sumUpBy []).selectors, hasLabel vs defaultFilter.labels.tenantLabel = false ∧
      hasLabel vs defaultFilter.labels.projectLabel = false) ∧
    ∃ g ∈ optimizeGroups twoAccounts,
      ∃ x ∈ samplesAt upEngine 0 (injectTenantToExpression (sumUpBy []) g defaultFilter.labels),
        x ∉ samplesAt upEngine 0 (createSecureORExpression QueryText.wordParser (sumUpBy [])
          twoAccounts defaultFilter twoAccounts_ne_nil)
  := by
  have hnames : ∀ name ∈ ([] : List GoString), QueryText.isClauseLabel name = true := by
    rintro name ⟨⟩
  rw [optimizeGroups_twoAccounts]
  refine ⟨?_, rfl, by decide, ⟨str "2", [], true⟩, by simp, ⟨fun _ => [], 2⟩, ?_, ?_⟩
  · have hparse := parseExpr_sumUpBy hnames
    have htext : str "sum(up)"
        = str "sum" ++ QueryText.groupingText [] false ++ str "(" ++ str "up" ++ str ")" := by
      decide +kernel
    rw [htext]
    apply hparse
  · have h := groupSamples_sumUp (Or.inr (Eq.refl (str "2")))
    rw [groupSamples] at h
    rw [h]
    rfl
  · rw [mem_samplesAt_createSecureORExpression (reparses_sumUpBy hnames),
      optimizeGroups_twoAccounts, List.map_cons, KeyedUnion.FirstHas,
      groupSamples_sumUp (Or.inl rfl)]
    rintro (hx | ⟨hne, -⟩)
    · obtain ⟨-, ⟨⟩⟩ := Sample.mk.inj hx
    · apply hne _ rfl rfl

end Tenant

end VmProxyAuth
