import VmProxyAuth.Tenant.Dropping

/-!
# The canonical form of the groups

The maps of `optimizeGroups` are visited in an order that is not specified, and the groups are
sorted by an algorithm that leaves groups of one account in any order.  Still there is one
result (`isOptimized_iff`), as no account has two groups.  It is a canonical form of what the
tenants grant (`exact_of_isOptimized`) and depends only on the set of tenants, and so does the
rewritten query (`secureQuery_congr`).
-/

namespace VmProxyAuth

namespace Tenant

open PromQL

/-! ### Projects -/

/-- The projects of an account are listed in order, each once. -/
theorem pairwise_distinctProjects (tenants : List VMTenant) (a : GoString) :
  (distinctProjects tenants a).Pairwise (· < ·)
  := by
  rw [distinctProjects, deduplicateStrings_eq]
  apply GoString.pairwise_lt_of_nodup id
  · apply (GoString.pairwise_mergeSort id _).sublist (firsts_sublist _)
  · apply nodup_map_firsts

theorem nodup_distinctProjects (tenants : List VMTenant) (a : GoString) :
  (distinctProjects tenants a).Nodup
  := by
  apply (pairwise_distinctProjects tenants a).imp
  rintro p q hlt rfl
  apply List.lt_irrefl p hlt

/-- The projects listed depend only on the set of tenants. -/
theorem distinctProjects_congr {tenants tenants' : List VMTenant}
    (h : ∀ t, t ∈ tenants ↔ t ∈ tenants') (a : GoString) :
  distinctProjects tenants a = distinctProjects tenants' a
  := by
  apply (pairwise_distinctProjects tenants a).eq_of_mem_iff (pairwise_distinctProjects tenants' a)
  intro p
  simp only [mem_distinctProjects, mem_projectsOf, h]

theorem groupOf_congr {tenants tenants' : List VMTenant}
    (h : ∀ t, t ∈ tenants ↔ t ∈ tenants') (a : GoString) :
  groupOf tenants a = groupOf tenants' a
  := by
  have hwildcard : hasWildcard tenants a = hasWildcard tenants' a := by
    rw [Bool.eq_iff_iff, hasWildcard_iff, hasWildcard_iff]
    simp only [h]
  rw [groupOf, groupOf, hwildcard, distinctProjects_congr h]

/-! ### The results of `optimizeGroups` -/

/-- The groups before they are sorted, for the maps visited in given orders. -/
def collectedGroups (tenants : List VMTenant) (accounts : List GoString)
    (entries : List (GoString × List GoString)) : List Group :=
  wildcardGroups accounts ++ projectGroups (Grouping.ofTenants tenants) entries

/-- A result of `optimizeGroups`: the maps are visited in some order, and no group comes after
one of a greater account. -/
def IsOptimized (tenants : List VMTenant) (groups : List Group) : Prop :=
  ∃ accounts entries,
    accounts.Perm (Grouping.ofTenants tenants).accountWildcards.keys ∧
    entries.Perm (Grouping.ofTenants tenants).accountGroups.items ∧
    groups.Perm (collectedGroups tenants accounts entries) ∧
    groups.Pairwise (fun x y => x.accountID ≤ y.accountID)

variable {tenants : List VMTenant} {accounts : List GoString}
  {entries : List (GoString × List GoString)} {groups : List Group}

/-- The order of the visits rearranges the groups. -/
theorem collectedGroups_perm
    (haccounts : accounts.Perm (Grouping.ofTenants tenants).accountWildcards.keys)
    (hentries : entries.Perm (Grouping.ofTenants tenants).accountGroups.items) :
  (collectedGroups tenants accounts entries).Perm
    (collectedGroups tenants (Grouping.ofTenants tenants).accountWildcards.keys
      (Grouping.ofTenants tenants).accountGroups.items)
  := by
  apply List.Perm.append
  · apply haccounts.map
  · apply (hentries.filter _).map

/-- No account has two groups: the keys of a map are different, and an account that has a
wildcard is left out of the second map. -/
theorem nodup_collectedGroups (tenants : List VMTenant) :
  ((collectedGroups tenants (Grouping.ofTenants tenants).accountWildcards.keys
    (Grouping.ofTenants tenants).accountGroups.items).map Group.accountID).Nodup
  := by
  rw [collectedGroups, List.map_append]
  apply List.Nodup.append
  · rw [wildcardGroups, List.map_map]
    apply List.Nodup.map Function.injective_id (AList.keys_nodup _)
  · rw [projectGroups, List.map_map]
    apply List.Sublist.nodup (List.filter_sublist.map Prod.fst) (GoMap.nodup_items_fst _)
  · intro a hwild hproject
    obtain ⟨g, hg, rfl⟩ := List.mem_map.mp hwild
    obtain ⟨g', hg', ha⟩ := List.mem_map.mp hproject
    have hmarked := (mem_wildcardGroups.mp hg).1
    have hnot := (mem_projectGroups.mp hg').1
    rw [ha, hmarked] at hnot
    cases hnot

/-- The groups are strictly sorted. -/
theorem IsOptimized.pairwise_lt (h : IsOptimized tenants groups) :
  groups.Pairwise (fun x y => x.accountID < y.accountID)
  := by
  obtain ⟨accounts, entries, haccounts, hentries, hperm, hsorted⟩ := h
  apply GoString.pairwise_lt_of_nodup Group.accountID hsorted
  apply ((hperm.trans (collectedGroups_perm haccounts hentries)).map _).nodup_iff.mpr
  apply nodup_collectedGroups

theorem IsOptimized.mem_iff (h : IsOptimized tenants groups) (g : Group) :
  g ∈ groups ↔ g ∈ optimizeGroups tenants
  := by
  obtain ⟨accounts, entries, haccounts, hentries, hperm, -⟩ := h
  rw [(hperm.trans (collectedGroups_perm haccounts hentries)).mem_iff, optimizeGroups,
    List.mem_mergeSort]
  rfl

theorem isOptimized_optimizeGroups (tenants : List VMTenant) :
  IsOptimized tenants (optimizeGroups tenants)
  := by
  refine ⟨_, _, List.Perm.refl _, List.Perm.refl _, List.mergeSort_perm _ _, ?_⟩
  apply GoString.pairwise_mergeSort

/-- `optimizeGroups` has one result. -/
theorem isOptimized_iff :
  IsOptimized tenants groups ↔ groups = optimizeGroups tenants
  := by
  constructor
  · intro h
    apply h.pairwise_lt.eq_of_mem_iff (isOptimized_optimizeGroups tenants).pairwise_lt
    apply h.mem_iff
  · rintro rfl
    apply isOptimized_optimizeGroups

/-- The groups depend only on the set of tenants. -/
theorem optimizeGroups_congr {tenants' : List VMTenant} (h : ∀ t, t ∈ tenants ↔ t ∈ tenants') :
  optimizeGroups tenants = optimizeGroups tenants'
  := by
  apply (isOptimized_optimizeGroups tenants).pairwise_lt.eq_of_mem_iff
    (isOptimized_optimizeGroups tenants').pairwise_lt
  intro g
  rw [mem_optimizeGroups, mem_optimizeGroups, groupOf_congr h]
  simp only [h]

/-! ### What the groups are -/

/-- The groups are a canonical form of what the tenants grant. -/
structure ExactGroups (tenants : List VMTenant) (groups : List Group) : Prop where
  grants_iff : ∀ account project,
    (∃ g ∈ groups, g.accountID = account ∧ g.Grants project) ↔ Granted tenants account project
  once : ∀ account, (groups.map Group.accountID).count account
    = if account ∈ tenants.map VMTenant.accountID then 1 else 0
  sorted : groups.Pairwise (fun x y => x.accountID < y.accountID)
  projects : ∀ g ∈ groups, g.isWildcard = false →
    g.projectIDs ≠ [] ∧ g.projectIDs.Pairwise (· < ·) ∧ g.projectIDs.Nodup
  wildcard : ∀ g ∈ groups, g.isWildcard = true → g.projectIDs = []

theorem mem_map_accountID_optimizeGroups (tenants : List VMTenant) (a : GoString) :
  a ∈ (optimizeGroups tenants).map Group.accountID ↔ a ∈ tenants.map VMTenant.accountID
  := by
  rw [List.mem_map, List.mem_map]
  constructor
  · rintro ⟨g, hg, rfl⟩
    apply (mem_optimizeGroups.mp hg).2
  · intro h
    use groupOf tenants a
    rw [mem_optimizeGroups, accountID_groupOf]
    use ⟨rfl, h⟩

/-- A group of the list without a wildcard lists the projects of its account. -/
theorem projectIDs_of_mem {g : Group} (hg : g ∈ optimizeGroups tenants)
    (h : g.isWildcard = false) :
  g.projectIDs = distinctProjects tenants g.accountID
  := by
  have hgroup := (mem_optimizeGroups.mp hg).1
  rw [groupOf] at hgroup
  split at hgroup
  · rw [hgroup] at h
    cases h
  · apply congrArg Group.projectIDs hgroup

/-- The groups grant exactly what the tenants grant, with one group for each account, in
canonical form. -/
theorem exact_of_isOptimized {tenants : List VMTenant} {groups : List Group}
    (h : IsOptimized tenants groups) :
  ExactGroups tenants groups
  := by
  have hsorted := h.pairwise_lt
  obtain rfl := isOptimized_iff.mp h
  constructor
  case grants_iff =>
    intro account project
    rw [← grants_groupOf_iff]
    constructor
    · rintro ⟨g, hg, rfl, hgrants⟩
      rw [← (mem_optimizeGroups.mp hg).1]
      apply hgrants
    · intro hgrants
      use groupOf tenants account
      rw [mem_optimizeGroups, accountID_groupOf]
      obtain ⟨t, ht, haccount, -⟩ := (grants_groupOf_iff tenants account project).mp hgrants
      use ⟨rfl, t, ht, haccount⟩
  case once =>
    intro account
    have hnodup : ((optimizeGroups tenants).map Group.accountID).Nodup := by
      apply List.pairwise_map.mpr
      apply hsorted.imp
      rintro x y hlt heq
      rw [heq] at hlt
      apply List.lt_irrefl _ hlt
    simp only [hnodup.count, mem_map_accountID_optimizeGroups]
  case sorted => apply hsorted
  case projects =>
    intro g hg hnot
    rw [projectIDs_of_mem hg hnot]
    refine ⟨?_, pairwise_distinctProjects _ _, nodup_distinctProjects _ _⟩
    obtain ⟨t, ht, haccount⟩ := (mem_optimizeGroups.mp hg).2
    apply List.ne_nil_of_mem (a := t.projectID)
    apply mem_distinctProjects.mpr (mem_projectsOf.mpr ⟨t, ht, haccount, rfl⟩)
  case wildcard =>
    intro g hg hwild
    have hgroup := (mem_optimizeGroups.mp hg).1
    rw [groupOf] at hgroup
    split at hgroup
    · apply congrArg Group.projectIDs hgroup
    · rw [hgroup] at hwild
      cases hwild

/-- A user of two projects of the account `1`, one of them twice, and of the account `2`. -/
def mixedTenants : List VMTenant :=
  [⟨str "1", str "a"⟩, ⟨str "2", str "c"⟩, ⟨str "2", []⟩, ⟨str "1", str "a"⟩, ⟨str "1", str "b"⟩]

theorem collectedGroups_mixedTenants :
  collectedGroups mixedTenants [str "2"]
      [(str "1", [str "a", str "a", str "b"]), (str "2", [str "c"])]
    = [⟨str "2", [], true⟩, ⟨str "1", [str "a", str "b"], false⟩]
  := by
  have hentries : collectedGroups mixedTenants [str "2"]
      [(str "1", [str "a", str "a", str "b"]), (str "2", [str "c"])]
      = [⟨str "2", [], true⟩, ⟨str "1",
        deduplicateStrings (GoString.sort [str "a", str "a", str "b"]), false⟩] := rfl
  rw [hentries, GoString.sort_eq_self (by decide)]
  rfl

theorem exact_mixedTenants :
  ExactGroups mixedTenants [⟨str "1", [str "a", str "b"], false⟩, ⟨str "2", [], true⟩]
  := by
  apply exact_of_isOptimized
  use [str "2"], [(str "1", [str "a", str "a", str "b"]), (str "2", [str "c"])]
  rw [collectedGroups_mixedTenants]
  decide +kernel

/-! ### The rewritten query -/

/-- The operands joined with `or`, from the left.  There is an operand, as there is a
tenant. -/
def joinOperands (originalExpr : Expr) : List Expr → Expr
  | [] => originalExpr
  | first :: rest =>
    rest.foldl (fun result operand => .binaryExpr .lor result operand none false) first

/-- The expression `createSecureORExpression` makes for the groups. -/
def secureExprOf (P : Parser) (originalExpr : Expr) (cfg : LabelsConfig) (groups : List Group) :
    Expr :=
  match groups with
  | [group] => injectTenantToExpression originalExpr group cfg
  | groups =>
    joinOperands originalExpr (groups.foldl (Operands.add P cfg) ⟨originalExpr, []⟩).exprs

/-- `BuildSecureQuery`, with the groups `optimizeGroups` returns. -/
def buildSecureQueryOf (P : Parser) (originalQuery : GoString) (tenants : List VMTenant)
    (cfg : FilterConfig) (groups : List Group) : Except GoError GoString :=
  match tenants with
  | [] => .error (.app AppError.noVMTenantsForFiltering)
  | [tenant] => (injectTenantLabels P originalQuery [tenant] cfg).map P.exprString
  | _ =>
    match P.parseExpr originalQuery with
    | .error err => .error (.wrapf "failed to parse original query: %w" [] err)
    | .ok expr => .ok (P.exprString (secureExprOf P expr cfg.labels groups))

theorem createSecureORExpression_eq (P : Parser) (expr : Expr) (cfg : FilterConfig)
    (h : tenants ≠ []) :
  createSecureORExpression P expr tenants cfg h
    = secureExprOf P expr cfg.labels (optimizeGroups tenants)
  := by
  have hjoin : ∀ operands (hne : operands ≠ []), joinOr operands hne
      = joinOperands expr operands := by
    intro operands hne
    obtain ⟨first, rest, rfl⟩ := List.exists_cons_of_ne_nil hne
    rfl
  simp only [createSecureORExpression, hjoin, orExpressions]
  rcases optimizeGroups tenants with - | ⟨group, - | ⟨group', groups⟩⟩
  · rfl
  · rfl
  · rfl

/-- With the groups of `optimizeGroups` in whatever order its maps are visited, the query is
the one of `buildSecureQuery`. -/
theorem buildSecureQueryOf_eq (P : Parser) (query : GoString) (cfg : FilterConfig)
    (h : IsOptimized tenants groups) :
  buildSecureQueryOf P query tenants cfg groups = buildSecureQuery P query tenants cfg
  := by
  obtain rfl := isOptimized_iff.mp h
  rcases tenants with - | ⟨first, - | ⟨second, rest⟩⟩
  · rfl
  · rfl
  · rw [buildSecureQuery, buildSecureExpr, buildSecureQueryOf.eq_def]
    simp only [createSecureORExpression_eq]
    cases P.parseExpr query with
    | error err => rfl
    | ok expr => rfl

theorem optimizeGroups_singleton (t : VMTenant) :
  optimizeGroups [t] = [groupOf [t] t.accountID]
  := by
  apply (isOptimized_optimizeGroups [t]).pairwise_lt.eq_of_mem_iff (List.pairwise_singleton _ _)
  intro g
  rw [mem_optimizeGroups_singleton, List.mem_singleton]

/-- For any tenants the rewritten query is the text of the expression made for their groups: a
single tenant is injected as its group is. -/
theorem toOption_buildSecureQuery (P : Parser) (query : GoString) (cfg : FilterConfig)
    (h : tenants ≠ []) :
  (buildSecureQuery P query tenants cfg).toOption
    = (P.parseExpr query).toOption.map
        (fun expr => P.exprString (secureExprOf P expr cfg.labels (optimizeGroups tenants)))
  := by
  rcases tenants with - | ⟨first, - | ⟨second, rest⟩⟩
  · exact absurd rfl h
  · rw [buildSecureQuery, buildSecureExpr, injectTenantLabels, optimizeGroups_singleton,
      injectTenantLabelsToVectorSelector_eq]
    cases P.parseExpr query with
    | error err => rfl
    | ok expr => rfl
  · rw [buildSecureQuery, buildSecureExpr]
    simp only [createSecureORExpression_eq]
    cases P.parseExpr query with
    | error err => rfl
    | ok expr => rfl

/-- For two lists of the same tenants, and in whatever orders maps are visited,
`BuildSecureQuery` returns the same query or fails for both. -/
theorem secureQuery_congr
    (P : Parser) (query : GoString) (cfg : FilterConfig) {tenants tenants' : List VMTenant}
    (hne : tenants ≠ []) (hsame : ∀ t, t ∈ tenants ↔ t ∈ tenants') {groups groups' : List Group}
    (hgroups : IsOptimized tenants groups) (hgroups' : IsOptimized tenants' groups') :
  (buildSecureQueryOf P query tenants cfg groups).toOption
    = (buildSecureQueryOf P query tenants' cfg groups').toOption
  := by
  have hne' : tenants' ≠ [] := by
    obtain ⟨t, ht⟩ := List.exists_mem_of_ne_nil tenants hne
    apply List.ne_nil_of_mem ((hsame t).mp ht)
  rw [buildSecureQueryOf_eq P query cfg hgroups, buildSecureQueryOf_eq P query cfg hgroups',
    toOption_buildSecureQuery P query cfg hne, toOption_buildSecureQuery P query cfg hne',
    optimizeGroups_congr hsame]

/-- A tenant given once and given twice. -/
theorem repeated_tenant_same :
  (buildSecureQueryOf QueryText.wordParser (str "up")
      [⟨str "1", str "a"⟩] defaultFilter [⟨str "1", [str "a"], false⟩]).toOption
    = (buildSecureQueryOf QueryText.wordParser (str "up")
      [⟨str "1", str "a"⟩, ⟨str "1", str "a"⟩] defaultFilter
      [⟨str "1", [str "a"], false⟩]).toOption
  := by
  have honce : optimizeGroups [⟨str "1", str "a"⟩] = [⟨str "1", [str "a"], false⟩] := by
    rw [optimizeGroups_singleton, groupOf_singleton]
    rfl
  have htwice : optimizeGroups [⟨str "1", str "a"⟩, ⟨str "1", str "a"⟩]
      = [⟨str "1", [str "a"], false⟩] := by
    rw [← honce]
    apply optimizeGroups_congr
    simp
  apply secureQuery_congr
  · apply List.cons_ne_nil
  · simp
  · apply isOptimized_iff.mpr honce.symm
  · apply isOptimized_iff.mpr htwice.symm

end Tenant

end VmProxyAuth
