import VmProxyAuth.Tenant.Reading

/-!
# Rewritten queries that are accepted

`BuildSecureQuery` returns the text of a tree that no parser has checked.  `or` is allowed
between instant vectors only, so for tenants of several accounts the text is accepted exactly if
the query is an instant vector and the matchers added to it can be read
(`rewritten_accepted_iff`).
-/

namespace VmProxyAuth

namespace Tenant

open PromQL

/-! ### Matchers the parser accepts -/

/-- All tenants are of one account. -/
def OneAccount (tenants : List VMTenant) : Prop :=
  ∀ t ∈ tenants, ∀ t' ∈ tenants, t.accountID = t'.accountID

instance (tenants : List VMTenant) : Decidable (OneAccount tenants) :=
  inferInstanceAs (Decidable (∀ t ∈ tenants, ∀ t' ∈ tenants, _))

/-- The parser accepts the names of the labels and the projects of the tenants in the vector
selectors of a query that do not name an account: they can be read, and none of them is a second
metric name. -/
def Injectable (R : Rules) (cfg : LabelsConfig) (expr : Expr) (tenants : List VMTenant) : Prop :=
  ∀ vs ∈ expr.selectors, hasLabel vs cfg.tenantLabel = false → ∀ t ∈ tenants,
    R.validName cfg.tenantLabel = true ∧
      ∀ m ∈ projectMatchers (groupOf tenants t.accountID) cfg.projectLabel cfg.useProjectID,
        R.acceptsMatcher m = true ∧ vs.allowsMatcher m = true

/-- The account is not a second metric name of a vector selector that does not name one. -/
theorem allowsMatcher_account {R : Rules} {vs : VectorSelector}
    (hvs : R.acceptsSelector vs = true) {label : GoString} (hlabel : hasLabel vs label = false)
    (account : GoString) :
  vs.allowsMatcher ⟨.equal, label, account⟩ = true
  := by
  rw [VectorSelector.allowsMatcher]
  by_cases hname : vs.name = []
  · simp [hname]
  · rw [Rules.acceptsSelector, Bool.and_eq_true, if_neg hname, decide_eq_true_eq] at hvs
    rw [hasLabel, List.any_eq_false] at hlabel
    have hne : metricName ≠ label := by
      have hmatcher := hlabel _ hvs.2
      rwa [decide_eq_true_eq] at hmatcher
    simp [hne.symm]

/-- The matchers a group adds to a vector selector. -/
def addedMatchers (cfg : LabelsConfig) (group : Group) (vs : VectorSelector) : List Matcher :=
  if hasLabel vs cfg.tenantLabel then []
  else ⟨.equal, cfg.tenantLabel, group.accountID⟩
    :: projectMatchers group cfg.projectLabel cfg.useProjectID

theorem injectGroup_eq (cfg : LabelsConfig) (group : Group) (vs : VectorSelector) :
  injectGroup cfg group vs = vs.addMatchers (addedMatchers cfg group vs)
  := by
  rw [injectGroup, injectTenantToVectorSelector, addedMatchers]
  split
  · simp [VectorSelector.addMatchers]
  · simp [VectorSelector.addMatchers]

/-- An accepted vector selector with a group injected. -/
theorem acceptsSelector_injectGroup {R : Rules} (cfg : LabelsConfig) {vs : VectorSelector}
    (hvs : R.acceptsSelector vs = true) (group : Group) :
  R.acceptsSelector (injectGroup cfg group vs) = true ↔
    (hasLabel vs cfg.tenantLabel = false →
      R.validName cfg.tenantLabel = true ∧
        ∀ m ∈ projectMatchers group cfg.projectLabel cfg.useProjectID,
          R.acceptsMatcher m = true ∧ vs.allowsMatcher m = true)
  := by
  rw [injectGroup_eq, Rules.acceptsSelector_addMatchers hvs, addedMatchers]
  cases hlabel : hasLabel vs cfg.tenantLabel with
  | true => simp
  | false =>
    have haccount : R.acceptsMatcher ⟨.equal, cfg.tenantLabel, group.accountID⟩
        = R.validName cfg.tenantLabel := by
      simp [Rules.acceptsMatcher]
    rw [if_neg Bool.false_ne_true, List.forall_mem_cons, haccount,
      allowsMatcher_account hvs hlabel]
    simp

/-- The matchers of the groups are accepted exactly if the tenants can be injected. -/
theorem acceptedFor_iff {R : Rules} (cfg : LabelsConfig) {expr : Expr} (hexpr : R.Accepts expr)
    (tenants : List VMTenant) :
  (∀ group ∈ optimizeGroups tenants, AcceptedFor R cfg expr group) ↔
    Injectable R cfg expr tenants
  := by
  constructor
  · intro haccepted vs hvs hlabel t ht
    have hgroup : groupOf tenants t.accountID ∈ optimizeGroups tenants := by
      rw [mem_optimizeGroups, accountID_groupOf]
      use rfl, t, ht
    apply (acceptsSelector_injectGroup cfg (hexpr.selectors vs hvs) _).mp _ hlabel
    apply haccepted _ hgroup vs hvs
  · intro hinjectable group hgroup vs hvs
    obtain ⟨heq, t, ht, haccount⟩ := mem_optimizeGroups.mp hgroup
    rw [acceptsSelector_injectGroup cfg (hexpr.selectors vs hvs), heq, ← haccount]
    intro hlabel
    apply hinjectable vs hvs hlabel t ht

/-- There is one group exactly if the tenants are of one account. -/
theorem oneAccount_iff {tenants : List VMTenant} {first : Group} {rest : List Group}
    (h : optimizeGroups tenants = first :: rest) :
  OneAccount tenants ↔ rest = []
  := by
  have haccounts := mem_map_accountID_optimizeGroups tenants
  rw [h] at haccounts
  constructor
  · intro hone
    cases rest with
    | nil => rfl
    | cons second rest =>
      have hlt := (isOptimized_optimizeGroups tenants).pairwise_lt
      rw [h, List.pairwise_cons] at hlt
      obtain ⟨t, ht, hfirst⟩ := List.mem_map.mp ((haccounts first.accountID).mp (by simp))
      obtain ⟨t', ht', hsecond⟩ := List.mem_map.mp ((haccounts second.accountID).mp (by simp))
      apply absurd (hlt.1 second List.mem_cons_self)
      rw [← hfirst, ← hsecond, hone t ht t' ht']
      apply List.lt_irrefl
  · rintro rfl t ht t' ht'
    have hfirst : ∀ t ∈ tenants, t.accountID = first.accountID := by
      intro t ht
      simpa using (haccounts t.accountID).mpr (List.mem_map_of_mem ht)
    rw [hfirst t ht, hfirst t' ht']

/-- What `BuildSecureQuery` returns for an accepted query. -/
theorem buildSecureQuery_of_parse {P : Parser} {query : GoString} {expr : Expr}
    (hquery : P.parseExpr query = .ok expr) {tenants : List VMTenant} (h : tenants ≠ [])
    (cfg : FilterConfig) :
  buildSecureQuery P query tenants cfg
    = .ok (P.exprString (secureExprOf P expr cfg.labels (optimizeGroups tenants)))
  := by
  have hsome := toOption_buildSecureQuery P query cfg h
  rw [hquery] at hsome
  cases hbuild : buildSecureQuery P query tenants cfg with
  | error err =>
    rw [hbuild] at hsome
    cases hsome
  | ok result =>
    rw [hbuild] at hsome
    rw [Option.some.inj hsome]

/-! ### Two accounts -/

section

open QueryText

theorem injectable_twoAccounts (expr : Expr) :
  Injectable wordRules defaultFilter.labels expr twoAccounts
  := by
  intro vs _ _ t ht
  use rfl
  intro m hm
  have hgroup : ∀ t ∈ twoAccounts, (groupOf twoAccounts t.accountID).isWildcard = true := by
    decide
  rw [projectMatchers, hgroup t ht] at hm
  cases hm

/-- The query for all projects of an account. -/
def forAccount (account : GoString) (expr : Expr) : Expr :=
  injectTenantToExpression expr ⟨account, [], true⟩ defaultFilter.labels

/-- The tree for the accounts `1` and `2`, if the query is read with its matchers in order. -/
theorem secureExprOf_twoAccounts {P : Parser} {expr : Expr}
    (h : P.parseExpr (P.exprString expr) = .ok expr) :
  secureExprOf P expr defaultFilter.labels (optimizeGroups twoAccounts)
    = .binaryExpr .lor (forAccount (str "1") expr) (forAccount (str "2") expr) none false
  := by
  rw [optimizeGroups_twoAccounts, secureExprOf, Operands.exprs_foldl P _ _ ⟨expr, []⟩ h]
  · rfl
  · rintro group heq
    cases heq

/-- A metric for an account has the account as its one matcher. -/
theorem sortedMatchers_forAccount (table : Char → Bool) (name account : GoString) :
  sortedMatchers table (injectGroup defaultFilter.labels ⟨account, [], true⟩ (metricSelector name))
    = [⟨.equal, str "vm_account_id", account⟩]
  := by
  have hne : ¬ str "vm_account_id" = metricName := by decide
  have hfilter : (injectGroup defaultFilter.labels ⟨account, [], true⟩
      (metricSelector name)).labelMatchers.filter (fun m => m !=
        (injectGroup defaultFilter.labels ⟨account, [], true⟩ (metricSelector name)).nameMatcher)
      = [⟨.equal, metricName, name⟩, ⟨.equal, str "vm_account_id", account⟩].filter
        (fun m => m != ⟨.equal, metricName, name⟩) := rfl
  rw [sortedMatchers, hfilter]
  simp [hne]

/-- The text of a metric for an account. -/
theorem exprText_forAccount (table : Char → Bool) (name account : GoString) :
  exprText table (forAccount account (.vectorSelector (metricSelector name)))
    = name ++ bracesText table [⟨.equal, str "vm_account_id", account⟩]
  := by
  have hselector : forAccount account (.vectorSelector (metricSelector name))
      = .vectorSelector
        (injectGroup defaultFilter.labels ⟨account, [], true⟩ (metricSelector name)) := rfl
  rw [hselector, exprText, selectorText_eq, sortedMatchers_forAccount]
  rfl

/-- The assumption on the parser for the query `up`. -/
theorem readsQuery_up :
  ReadsQuery wordParser wordRules clauseText (readSelector (fun _ => false)) defaultFilter.labels
    (optimizeGroups twoAccounts) (.vectorSelector upSelector)
  := by
  apply readsQuery_textParser
  apply readableChain_operand (.selector (readable_metricSelector isMetricName_up))
  intro vs hvs
  rw [List.mem_singleton.mp hvs]
  apply acceptsSelector_metricSelector (by decide)

/-- The text of `up` is read as `up`. -/
theorem parse_exprString_up :
  wordParser.parseExpr (wordParser.exprString (.vectorSelector upSelector))
    = .ok (.vectorSelector upSelector)
  := by
  have hread : readSelector (fun _ => false) upSelector = upSelector :=
    readSelector_metricSelector _
  have hreparse := readsQuery_up.reparses
  rwa [Expr.updateSelectors, hread] at hreparse

theorem exprString_up :
  wordParser.exprString (.vectorSelector upSelector) = str "up"
  := by
  apply (selectorText_eq (fun _ => false) upSelector).trans
  rw [upSelector, sortedMatchers_metricSelector]
  rfl

/-- The text for the accounts `1` and `2`. -/
theorem buildSecureQuery_up :
  buildSecureQuery wordParser (str "up") twoAccounts defaultFilter
    = .ok (str "up\x7bvm_account_id=\"1\"\x7d or up\x7bvm_account_id=\"2\"\x7d")
  := by
  have hquery := parse_exprString_up
  rw [exprString_up] at hquery
  have hor : ∀ lhs rhs, wordParser.exprString (.binaryExpr .lor lhs rhs none false)
      = exprText (fun _ => false) lhs ++ clauseText none ++ exprText (fun _ => false) rhs :=
    fun _ _ => rfl
  rw [buildSecureQuery_of_parse hquery twoAccounts_ne_nil,
    secureExprOf_twoAccounts parse_exprString_up, hor, upSelector, exprText_forAccount,
    exprText_forAccount]
  apply congrArg
  decide +kernel

/-- The query returned for an accepted query is accepted and of the same type exactly if the
tenants are of one account or the query is an instant vector, and the tenants can be
injected. -/
theorem rewritten_accepted_iff
    {P : Parser} {R : Rules} {clauseText : Option VectorMatching → GoString}
    {reorder : VectorSelector → VectorSelector} {query : GoString} {expr : Expr}
    (hquery : P.parseExpr query = .ok expr) {tenants : List VMTenant} (hne : tenants ≠ [])
    (cfg : FilterConfig)
    (hP : ReadsQuery P R clauseText reorder cfg.labels (optimizeGroups tenants) expr) :
  (∃ result read, buildSecureQuery P query tenants cfg = .ok result ∧
      P.parseExpr result = .ok read ∧ read.type R = expr.type R) ↔
    (OneAccount tenants ∨ expr.type R = .vector) ∧ Injectable R cfg.labels expr tenants
  := by
  obtain ⟨first, rest, hgroups⟩ := List.exists_cons_of_ne_nil (optimizeGroups_ne_nil hne)
  rw [buildSecureQuery_of_parse hquery hne, oneAccount_iff hgroups,
    ← acceptedFor_iff cfg.labels hP.accepts, hgroups]
  constructor
  · rintro ⟨result, read, hresult, hread, -⟩
    cases hresult
    obtain ⟨htype, haccepted, -⟩ := (hP.parse_secureExprOf hgroups _).mp hread
    use htype
  · rintro ⟨htype, haccepted⟩
    refine ⟨_, readSecure reorder cfg.labels expr first rest, rfl, ?_, type_readSecure _ _ _ htype⟩
    apply (hP.parse_secureExprOf hgroups _).mpr ⟨htype, haccepted, rfl⟩

/-- The query `up` for the accounts `1` and `2`. -/
theorem up_accepted :
  wordParser.parseExpr (str "up") = .ok (.vectorSelector upSelector) ∧
    ∃ read,
      buildSecureQuery wordParser (str "up") twoAccounts defaultFilter
        = .ok (str "up\x7bvm_account_id=\"1\"\x7d or up\x7bvm_account_id=\"2\"\x7d") ∧
      wordParser.parseExpr
        (str "up\x7bvm_account_id=\"1\"\x7d or up\x7bvm_account_id=\"2\"\x7d") = .ok read ∧
      read.type wordRules = .vector
  := by
  have hquery := parse_exprString_up
  rw [exprString_up] at hquery
  obtain ⟨result, read, hresult, hread, htype⟩ :=
    (rewritten_accepted_iff hquery twoAccounts_ne_nil defaultFilter readsQuery_up).mpr
      ⟨Or.inr rfl, injectable_twoAccounts _⟩
  cases buildSecureQuery_up.symm.trans hresult
  use hquery, read, buildSecureQuery_up, hread, htype

/-- The query `1` for the accounts `1` and `2` becomes `1 or 1`, which is not accepted. -/
theorem number_rejected :
  wordParser.parseExpr (str "1") = .ok (.numberLiteral (str "1")) ∧
    buildSecureQuery wordParser (str "1") twoAccounts defaultFilter = .ok (str "1 or 1") ∧
    ¬ ∃ read, wordParser.parseExpr (str "1 or 1") = .ok read
  := by
  have hdigit : isDigit 0x31 = true := rfl
  have hquery : wordParser.parseExpr (str "1") = .ok (.numberLiteral (str "1")) := by
    apply (parseExpr_operand (fun _ => false) wordRules (.number hdigit) _).mpr
    use (by rintro vs ⟨⟩)
    rfl
  have hlinks : ∀ next ∈ [((none : Option VectorMatching), Expr.numberLiteral [0x31])],
      ClauseRead next.1 ∧ Operand next.2 := by
    intro next hnext
    rw [List.mem_singleton.mp hnext]
    constructor
    · rintro m ⟨⟩
    · apply Operand.number hdigit
  use hquery
  constructor
  · rw [buildSecureQuery_of_parse hquery twoAccounts_ne_nil, secureExprOf_twoAccounts hquery]
    rfl
  · rintro ⟨read, hread⟩
    have hparse := parseExpr_chainOf (fun _ => false) wordRules (.number hdigit) hlinks read
    obtain ⟨⟨⟩, -⟩ := hparse.mp hread

end

end Tenant

end VmProxyAuth
