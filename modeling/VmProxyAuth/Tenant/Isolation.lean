import VmProxyAuth.Tenant.QueryText
import VmProxyAuth.Tenant.Rewrite

/-!
# Isolation of the tenants

A vector selector is confined to a list of tenants if it only matches series whose account
and project some tenant of the list grants.  Two things let a vector selector of the
rewritten query out: a matcher on the account label that the query already has, which
stops the injection, and the regular expression made of several project names of one
account.  Apart from these the rewritten query is confined (`isolated_iff_safelyScoped`).
-/

namespace VmProxyAuth

namespace Tenant

open PromQL

section

variable (re : GoString → GoString → Bool) (cfg : LabelsConfig) (tenants : List VMTenant)

/-- A vector selector matches only series whose account and project are granted. -/
def Confined (vs : VectorSelector) : Prop :=
  ∀ s : Series, vs.selects re s → Granted tenants (s cfg.tenantLabel) (s cfg.projectLabel)

/-- Every vector selector occurring in an expression is confined. -/
def Isolated (expr : Expr) : Prop := ∀ vs ∈ expr.selectors, Confined re cfg tenants vs

/-- The pattern for the projects of an account accepts no other project among the series of
the account that the vector selector matches. -/
def PatternExact (vs : VectorSelector) (account : GoString) : Prop :=
  ∀ s : Series, vs.selects re s → s cfg.tenantLabel = account →
    re (projectPattern (distinctProjects tenants account)) (s cfg.projectLabel) →
    s cfg.projectLabel ∈ distinctProjects tenants account

/-- A vector selector with a matcher on the account label is confined as it stands, and for
one without, the pattern of every account with several projects is exact. -/
def SafelyScoped (vs : VectorSelector) : Prop :=
  if hasLabel vs cfg.tenantLabel then Confined re cfg tenants vs
  else ∀ account, hasWildcard tenants account = false →
    1 < (distinctProjects tenants account).length → PatternExact re cfg tenants vs account

variable {re cfg tenants}

/-- What a vector selector matches after the injection of a group. -/
theorem selects_injectGroup {g : Group} {vs : VectorSelector} {s : Series}
    (hlabel : hasLabel vs cfg.tenantLabel = false) :
  (injectGroup cfg g vs).selects re s ↔
    vs.selects re s ∧ s cfg.tenantLabel = g.accountID ∧
      ∀ m ∈ projectMatchers g cfg.projectLabel cfg.useProjectID, m.matches re s
  := by
  rw [injectGroup, injectTenantToVectorSelector, hlabel, if_neg Bool.false_ne_true,
    selects_addMatchers, selects_addMatchers, and_assoc]
  simp [Matcher.matches]

/-- The series a vector selector matches after the injection of an account's group are on
the account. -/
theorem confined_injectGroup_iff {vs : VectorSelector} {account : GoString}
    (hlabel : hasLabel vs cfg.tenantLabel = false) :
  Confined re cfg tenants (injectGroup cfg (groupOf tenants account) vs) ↔
    ∀ s : Series, vs.selects re s → s cfg.tenantLabel = account →
      (∀ m ∈ projectMatchers (groupOf tenants account) cfg.projectLabel cfg.useProjectID,
        m.matches re s) →
      (groupOf tenants account).Grants (s cfg.projectLabel)
  := by
  apply forall_congr'
  intro s
  rw [selects_injectGroup hlabel, accountID_groupOf]
  constructor
  · rintro h hs rfl hm
    rw [grants_groupOf_iff]
    apply h ⟨hs, rfl, hm⟩
  · rintro h ⟨hs, ha, hm⟩
    rw [ha, ← grants_groupOf_iff]
    apply h hs ha hm

/-- The injection of an account's group confines a vector selector without a matcher on the
account label, unless the account has several projects and their pattern is not exact. -/
theorem confined_injectGroup {vs : VectorSelector} {account : GoString}
    (huse : cfg.useProjectID = true) (hlabel : hasLabel vs cfg.tenantLabel = false)
    (htenant : ∃ t ∈ tenants, t.accountID = account) :
  Confined re cfg tenants (injectGroup cfg (groupOf tenants account) vs) ↔
    (hasWildcard tenants account = false → 1 < (distinctProjects tenants account).length →
      PatternExact re cfg tenants vs account)
  := by
  rw [confined_injectGroup_iff hlabel, groupOf, huse]
  cases hw : hasWildcard tenants account with
  | true => simp [Group.Grants]
  | false =>
    rw [if_neg Bool.false_ne_true, PatternExact]
    rcases hps : distinctProjects tenants account with _ | ⟨p, _ | ⟨q, ps⟩⟩
    · obtain ⟨t, ht, ha⟩ := htenant
      have hmem : t.projectID ∈ distinctProjects tenants account :=
        mem_distinctProjects.mpr (mem_projectsOf.mpr ⟨t, ht, ha, rfl⟩)
      rw [hps] at hmem
      cases hmem
    · simp [Group.Grants, projectMatchers, Matcher.matches]
    · simp [Group.Grants, projectMatchers, Matcher.matches]

/-- With a matcher on the account label nothing is injected. -/
theorem injectGroup_of_hasLabel {vs : VectorSelector} (g : Group)
    (hlabel : hasLabel vs cfg.tenantLabel = true) :
  injectGroup cfg g vs = vs
  := by
  rw [injectGroup, injectTenantToVectorSelector, if_pos hlabel]

/-- The injections of all groups confine a vector selector exactly when it is safely
scoped. -/
theorem safelyScoped_iff (vs : VectorSelector) (huse : cfg.useProjectID = true)
    (htenants : tenants ≠ []) :
  SafelyScoped re cfg tenants vs ↔
    ∀ g ∈ optimizeGroups tenants, Confined re cfg tenants (injectGroup cfg g vs)
  := by
  rw [SafelyScoped]
  split
  · rename_i hlabel
    simp only [injectGroup_of_hasLabel _ hlabel]
    constructor
    · intro h _ _
      apply h
    · intro h
      obtain ⟨g, hg⟩ := List.exists_mem_of_ne_nil _ (optimizeGroups_ne_nil htenants)
      apply h g hg
  · rename_i hlabel
    rw [Bool.not_eq_true] at hlabel
    constructor
    · intro h g hg
      obtain ⟨hgroup, htenant⟩ := mem_optimizeGroups.mp hg
      rw [hgroup, confined_injectGroup huse hlabel htenant]
      apply h
    · intro h account hw hlength
      obtain ⟨p, hp⟩ := List.exists_mem_of_length_pos (Nat.lt_of_succ_lt hlength)
      obtain ⟨t, ht, ha, -⟩ := mem_projectsOf.mp (mem_distinctProjects.mp hp)
      have htenant : ∃ t ∈ tenants, t.accountID = account := ⟨t, ht, ha⟩
      apply (confined_injectGroup huse hlabel htenant).mp _ hw hlength
      apply h
      apply mem_optimizeGroups.mpr
      rw [accountID_groupOf]
      use rfl

end

/-- Whether a vector selector is confined does not depend on the order of its matchers. -/
theorem confined_same {re : GoString → GoString → Bool} {cfg : LabelsConfig}
    {tenants : List VMTenant} {vs vs' : VectorSelector} (h : vs.Same vs') :
  Confined re cfg tenants vs ↔ Confined re cfg tenants vs'
  := by
  simp only [Confined, h.selects_eq]

/-- The rewritten query is isolated exactly when every vector selector of the query is
safely scoped. -/
theorem isolated_iff_safelyScoped
    (P : Parser) (re : GoString → GoString → Bool)
    (cfg : FilterConfig) (huse : cfg.labels.useProjectID = true)
    (tenants : List VMTenant) (htenants : tenants ≠ [])
    (query : GoString) (expr : Expr) (hexpr : P.parseExpr query = .ok expr)
    (hreparse : P.Reparses expr) :
  ∃ result, buildSecureExpr P query tenants cfg = .ok result ∧
    buildSecureQuery P query tenants cfg = .ok (P.exprString result) ∧
    (Isolated re cfg.labels tenants result ↔
      ∀ vs ∈ expr.selectors, SafelyScoped re cfg.labels tenants vs)
  := by
  obtain ⟨result, hresult, hselectors⟩ :=
    sameSelectors_buildSecureExpr hreparse hexpr htenants cfg
  use result, hresult
  constructor
  · rw [buildSecureQuery, hresult]
    rfl
  · simp only [safelyScoped_iff _ huse htenants, Isolated]
    constructor
    · intro h vs hvs g hg
      have hmem : injectGroup cfg.labels g vs
          ∈ injectedSelectors cfg.labels (optimizeGroups tenants) expr :=
        List.mem_flatMap.mpr ⟨g, hg, List.mem_map_of_mem hvs⟩
      obtain ⟨made, hmade, hsame⟩ := hselectors.right _ hmem
      apply (confined_same hsame).mp (h made hmade)
    · intro h made hmade
      obtain ⟨vs', hvs', hsame⟩ := hselectors.left made hmade
      obtain ⟨g, hg, hmem⟩ := List.mem_flatMap.mp hvs'
      obtain ⟨vs, hvs, rfl⟩ := List.mem_map.mp hmem
      apply (confined_same hsame).mpr (h vs hvs g hg)

/-! ### A query with a matcher on the account label -/

/-- The vector selector of the query `up{vm_account_id="2"}`. -/
def foreignSelector : VectorSelector where
  name := str "up"
  labelMatchers := [⟨.equal, str "vm_account_id", str "2"⟩, ⟨.equal, metricName, str "up"⟩]
  modifier := ⟨0, none, none⟩

/-- The text of the query. -/
def foreignQuery : GoString := str "up\x7bvm_account_id=\"2\"\x7d"

theorem operand_foreignSelector :
  QueryText.Operand (.vectorSelector foreignSelector)
  := by
  apply QueryText.Operand.selector
  constructor
  · decide +kernel
  · rfl
  · decide

theorem accepts_foreignSelector :
  ∀ vs ∈ (Expr.vectorSelector foreignSelector).selectors,
    QueryText.wordRules.acceptsSelector vs = true
  := by
  intro vs hvs
  rw [List.mem_singleton.mp hvs]
  decide +kernel

/-- The text is read as the vector selector. -/
theorem parseExpr_foreignQuery :
  QueryText.wordParser.parseExpr foreignQuery = .ok (.vectorSelector foreignSelector)
  := by
  have hsorted : QueryText.sortedMatchers (fun _ => false) foreignSelector
      = [⟨.equal, str "vm_account_id", str "2"⟩] := by
    rw [QueryText.sortedMatchers_eq]
    · decide
    · decide
  have htext : foreignQuery
      = QueryText.exprText (fun _ => false) (.vectorSelector foreignSelector) := by
    rw [QueryText.exprText, QueryText.selectorText_eq, hsorted]
    decide +kernel
  have hread : QueryText.readSelector (fun _ => false) foreignSelector = foreignSelector := by
    rw [QueryText.readSelector, hsorted]
    rfl
  rw [htext]
  apply (QueryText.parseExpr_operand _ _ operand_foreignSelector _).mpr
  rw [Expr.updateSelectors, hread]
  use accepts_foreignSelector

/-- A series of the account `2`. -/
def foreignSeries : Series := fun label =>
  if label = str "vm_account_id" then str "2"
  else if label = metricName then str "up"
  else []

/-- The filter with its default labels. -/
def defaultFilter : FilterConfig := ⟨str "orConditions", [], [], true⟩

/-- For a user of the one tenant `1:a` the query for the account `2` stays as it is and
matches a series of the account `2`. -/
theorem foreign_account_selected :
  ∃ result, buildSecureExpr QueryText.wordParser foreignQuery [⟨str "1", str "a"⟩] defaultFilter
      = .ok result ∧
    ∃ vs ∈ result.selectors,
      vs.selects (fun pattern value => pattern == value) foreignSeries ∧
      ¬ Granted [⟨str "1", str "a"⟩] (foreignSeries defaultFilter.labels.tenantLabel)
        (foreignSeries defaultFilter.labels.projectLabel)
  := by
  use .vectorSelector foreignSelector
  constructor
  · rw [buildSecureExpr, injectTenantLabels, parseExpr_foreignQuery]
    rfl
  · use foreignSelector, List.mem_singleton.mpr rfl
    decide

/-- A user with all projects of the account `2`. -/
def ownAccount : List VMTenant := [⟨str "2", str ""⟩, ⟨str "1", str "a"⟩]

/-- For this user the query is isolated after the rewriting. -/
theorem own_account_isolated :
  ∃ result,
    buildSecureExpr QueryText.wordParser foreignQuery ownAccount defaultFilter = .ok result ∧
    Isolated (fun pattern value => pattern == value) defaultFilter.labels ownAccount result
  := by
  obtain ⟨result, hresult, -, hiff⟩ := isolated_iff_safelyScoped QueryText.wordParser
    (fun pattern value => pattern == value) defaultFilter rfl ownAccount (List.cons_ne_nil _ _)
    foreignQuery _ parseExpr_foreignQuery
    (QueryText.reparses_operand _ _ operand_foreignSelector accepts_foreignSelector)
  use result, hresult
  apply hiff.mpr
  intro vs hvs
  rw [List.mem_singleton.mp hvs, SafelyScoped, if_pos (by decide)]
  intro s hs
  have haccount : s (str "vm_account_id") = str "2" := by
    have hmatch := List.all_eq_true.mp hs _ List.mem_cons_self
    apply eq_of_beq hmatch
  use ⟨str "2", str ""⟩, List.mem_cons_self, haccount.symm
  right
  rfl

end Tenant

end VmProxyAuth
