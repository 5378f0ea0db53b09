import VmProxyAuth.Tenant.Service

/-!
# Reads and writes

The tenants of a user are read twice: a query is filtered by their groups, where an empty
project or `.*` stands for all projects of the account, and a write is checked by comparing
texts.  The two agree on a project of an account exactly if the account has no wildcard, or
the project is also listed by its name; and the tenant a write goes to without a tenant
header is a pattern exactly if the project of the user's first tenant is `.*`
(`reads_writes_agree_iff`).
-/

namespace VmProxyAuth

namespace Tenant

/-- No colon occurs in the account and in the project. -/
def ColonFree (t : VMTenant) : Prop := 58 ∉ t.accountID ∧ 58 ∉ t.projectID

/-- The groups grant a project of an account to queries. -/
def GrantedToQueries (tenants : List VMTenant) (account project : GoString) : Prop :=
  ∃ g ∈ optimizeGroups tenants, g.accountID = account ∧ g.Grants project

/-- A tenant identifier is that of an account that is granted, or of an account with a
project, not a pattern, that is granted. -/
def NamesGranted (tenants : List VMTenant) (tenant : GoString) : Prop :=
  (∃ g ∈ optimizeGroups tenants, g.isWildcard = true ∧ tenant = g.accountID) ∨
    ∃ account project, allProjects project = false ∧ tenant = account ++ str ":" ++ project ∧
      GrantedToQueries tenants account project

/-! ### Identifiers -/

theorem mem_pair (account project : GoString) :
  58 ∈ account ++ str ":" ++ project
  := by
  apply List.mem_append_left
  apply List.mem_append_right
  decide

theorem string_of_ne_nil {t : VMTenant} (h : t.projectID ≠ []) :
  t.string = t.accountID ++ str ":" ++ t.projectID
  := if_pos h

/-- The identifier of a tenant without colons is read in one way. -/
theorem string_eq_pair_iff {t : VMTenant} (ht : ColonFree t) {account project : GoString}
    (hproject : project ≠ []) :
  t.string = account ++ str ":" ++ project ↔ t = ⟨account, project⟩
  := by
  constructor
  · intro h
    by_cases hnil : t.projectID = []
    · have haccount : t.string = t.accountID := if_neg (not_not.mpr hnil)
      have hcolon := mem_pair account project
      rw [← h, haccount] at hcolon
      apply absurd hcolon ht.1
    · rw [string_of_ne_nil hnil, List.append_assoc, List.append_assoc] at h
      obtain ⟨haccount, -, hp⟩ := (List.append_cons_inj_of_notMem ht.1 ht.2).mp h
      have hp : t.projectID = project := hp
      rw [← haccount, ← hp]
  · rintro rfl
    apply string_of_ne_nil hproject

/-- A write may name an account with a project exactly if the user has that tenant. -/
theorem canAccessTenant_pair_iff {user : User} (hfree : ∀ t ∈ user.vmTenants, ColonFree t)
    {account project : GoString} (hproject : project ≠ []) :
  canAccessTenant user (account ++ str ":" ++ project) = true ↔
    ⟨account, project⟩ ∈ user.vmTenants
  := by
  rw [canAccessTenant, List.any_eq_true]
  constructor
  · rintro ⟨t, ht, heq⟩
    rw [Bool.or_eq_true, beq_iff_eq, beq_iff_eq, string_eq_pair_iff (hfree t ht) hproject] at heq
    obtain haccount | rfl := heq
    · have hcolon := mem_pair account project
      rw [← haccount] at hcolon
      apply absurd hcolon (hfree t ht).1
    · apply ht
  · intro hmem
    use ⟨account, project⟩, hmem
    rw [string_of_ne_nil hproject]
    simp

/-! ### Groups -/

/-- The groups grant to queries what the tenants grant. -/
theorem grantedToQueries_iff {tenants : List VMTenant} {account project : GoString} :
  GrantedToQueries tenants account project ↔ Granted tenants account project
  := by
  rw [← grants_groupOf_iff]
  constructor
  · rintro ⟨g, hg, rfl, hgrants⟩
    rw [← (mem_optimizeGroups.mp hg).1]
    apply hgrants
  · intro h
    obtain ⟨t, ht, haccount, -⟩ := (grants_groupOf_iff tenants account project).mp h
    use groupOf tenants account
    rw [mem_optimizeGroups, accountID_groupOf]
    use ⟨rfl, t, ht, haccount⟩, rfl

/-- A project is granted if it is listed, or if its account has a wildcard. -/
theorem granted_iff {tenants : List VMTenant} {account project : GoString} :
  Granted tenants account project ↔
    ⟨account, project⟩ ∈ tenants ∨ hasWildcard tenants account = true
  := by
  rw [hasWildcard_iff]
  constructor
  · rintro ⟨t, ht, rfl, rfl | hall⟩
    · apply Or.inl ht
    · right
      use t
  · rintro (hmem | ⟨t, ht, rfl, hall⟩)
    · use ⟨account, project⟩, hmem, rfl
      apply Or.inl rfl
    · use t, ht, rfl
      apply Or.inr hall

/-- The account of a group is the account of a tenant. -/
theorem colon_notMem_of_group {tenants : List VMTenant} (hfree : ∀ t ∈ tenants, ColonFree t)
    {g : Group} (hg : g ∈ optimizeGroups tenants) :
  58 ∉ g.accountID
  := by
  obtain ⟨-, t, ht, haccount⟩ := mem_optimizeGroups.mp hg
  rw [← haccount]
  apply (hfree t ht).1

/-- The identifier of a tenant names what is granted, unless its project is the pattern. -/
theorem namesGranted_string_iff {tenants : List VMTenant} (hfree : ∀ t ∈ tenants, ColonFree t)
    {t : VMTenant} (ht : t ∈ tenants) :
  NamesGranted tenants t.string ↔ t.projectID ≠ str ".*"
  := by
  constructor
  · rintro (⟨g, hg, -, hname⟩ | ⟨account, project, hconcrete, hname, -⟩) hpattern
    · have hcolon := colon_notMem_of_group hfree hg
      rw [← hname, string_of_ne_nil (by rw [hpattern]; decide)] at hcolon
      apply hcolon (mem_pair _ _)
    · have hproject : project ≠ [] := by
        rintro rfl
        cases hconcrete
      rw [string_eq_pair_iff (hfree t ht) hproject] at hname
      rw [hname] at hpattern
      obtain rfl : project = str ".*" := hpattern
      cases hconcrete
  · intro hpattern
    by_cases hnil : t.projectID = []
    · left
      have hw : hasWildcard tenants t.accountID = true := by
        rw [hasWildcard_iff]
        use t, ht, rfl
        rw [hnil]
        rfl
      use groupOf tenants t.accountID
      rw [mem_optimizeGroups, accountID_groupOf, groupOf, hw]
      use ⟨rfl, t, ht, rfl⟩, rfl
      apply if_neg (not_not.mpr hnil)
    · right
      use t.accountID, t.projectID
      constructor
      · simp [allProjects, hpattern, hnil]
      · use string_of_ne_nil hnil
        rw [grantedToQueries_iff, granted_iff]
        apply Or.inl ht

/-! ### Agreement -/

/-- For a user whose accounts and projects have no colons: a write may name a project of an
account exactly if queries are granted it, unless the account has a wildcard and the project
is not listed; and without a tenant header a write goes to a tenant that is granted, unless
the project of the first tenant is `.*`. -/
theorem reads_writes_agree_iff
    (user : User) (hfree : ∀ t ∈ user.vmTenants, ColonFree t) :
  (∀ account project, allProjects project = false →
    ((canAccessTenant user (account ++ str ":" ++ project) = true ↔
        GrantedToQueries user.vmTenants account project) ↔
      (hasWildcard user.vmTenants account = true → ⟨account, project⟩ ∈ user.vmTenants))) ∧
    ∀ r : Http.Request, explicitTenant r.header = none →
      ((∀ tenant, determineTargetTenant user r = .ok tenant →
          NamesGranted user.vmTenants tenant) ↔
        ∀ first ∈ user.vmTenants.head?, first.projectID ≠ str ".*")
  := by
  constructor
  · intro account project hconcrete
    have hproject : project ≠ [] := by
      rintro rfl
      cases hconcrete
    rw [canAccessTenant_pair_iff hfree hproject, grantedToQueries_iff, granted_iff]
    tauto
  · intro r hheader
    rw [determineTargetTenant, hheader]
    rcases htenants : user.vmTenants with _ | ⟨first, rest⟩
    · simp
    · rw [htenants] at hfree
      have hfirst := namesGranted_string_iff hfree List.mem_cons_self
      simp [hfirst]

/-! ### All projects of an account -/

/-- A user of a list of tenants. -/
def userOfTenants (tenants : List VMTenant) : User := ⟨str "bob", [], [], [], tenants, false, 0⟩

/-- A request without headers. -/
def bareRequest : Http.Request where
  method := str "POST"
  url := ⟨[], [], str "/api/v1/write", []⟩
  header := ∅
  body := Http.Body.received []

/-- A user of `1:.*` may query the project `a` of the account `1` but not write to it, and
their writes go to `1:.*`. -/
theorem wildcard_write_refused :
  canAccessTenant (userOfTenants [⟨str "1", str ".*"⟩]) (str "1" ++ str ":" ++ str "a") = false ∧
    GrantedToQueries [⟨str "1", str ".*"⟩] (str "1") (str "a") ∧
    determineTargetTenant (userOfTenants [⟨str "1", str ".*"⟩]) bareRequest = .ok (str "1:.*") ∧
    ¬ NamesGranted [⟨str "1", str ".*"⟩] (str "1:.*")
  := by
  have hfree : ∀ t ∈ [(⟨str "1", str ".*"⟩ : VMTenant)], ColonFree t := by
    simp only [ColonFree]
    decide
  refine ⟨by decide, ?_, rfl, ?_⟩
  · rw [grantedToQueries_iff]
    decide
  · intro h
    apply (namesGranted_string_iff hfree (List.mem_singleton_self _)).mp h rfl

/-- For a user of `1:a` and of all projects of `2`, writes and queries agree on the projects
of `1`, and writes go to a tenant that is granted. -/
theorem named_project_agrees :
  (canAccessTenant (userOfTenants [⟨str "1", str "a"⟩, ⟨str "2", []⟩])
      (str "1" ++ str ":" ++ str "a") = true ↔
    GrantedToQueries [⟨str "1", str "a"⟩, ⟨str "2", []⟩] (str "1") (str "a")) ∧
    ∀ tenant,
      determineTargetTenant (userOfTenants [⟨str "1", str "a"⟩, ⟨str "2", []⟩]) bareRequest
        = .ok tenant → NamesGranted [⟨str "1", str "a"⟩, ⟨str "2", []⟩] tenant
  := by
  have hfree : ∀ t ∈ [(⟨str "1", str "a"⟩ : VMTenant), ⟨str "2", []⟩], ColonFree t := by
    simp only [ColonFree]
    decide
  obtain ⟨hpairs, hdefault⟩ := reads_writes_agree_iff (userOfTenants _) hfree
  constructor
  · apply (hpairs (str "1") (str "a") (by decide)).mpr
    decide
  · apply (hdefault bareRequest rfl).mpr
    rintro first ⟨⟩
    decide

end Tenant

end VmProxyAuth
