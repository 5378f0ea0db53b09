import VmProxyAuth.Domain
import VmProxyAuth.Lib.Firsts

/-!
# Tenant groups

`optimizeGroups` collects a list of tenants into one group for each account: a wildcard
group if some tenant of the account names no project or all projects, and otherwise the
group of the projects named (`mem_optimizeGroups`).  A group grants a project exactly when
a tenant of the list does (`grants_groupOf_iff`).
-/

namespace VmProxyAuth

namespace Tenant

/-- An account with the projects granted: all of them for a wildcard group. -/
structure Group where
  accountID : GoString
  projectIDs : List GoString
  isWildcard : Bool
  deriving DecidableEq, Repr

/-- Whether a project of a tenant stands for all projects of its account. -/
def allProjects (projectID : GoString) : Bool := projectID == str ".*" || projectID == []

/-- A tenant grants its own account with its own project, or with every project. -/
def Grants (t : VMTenant) (account project : GoString) : Prop :=
  t.accountID = account ∧ (t.projectID = project ∨ allProjects t.projectID)

/-- Some tenant of the list grants the account with the project. -/
def Granted (tenants : List VMTenant) (account project : GoString) : Prop :=
  ∃ t ∈ tenants, Grants t account project

instance (t : VMTenant) (account project : GoString) : Decidable (Grants t account project) :=
  inferInstanceAs (Decidable (_ ∧ _))

instance (tenants : List VMTenant) (account project : GoString) :
    Decidable (Granted tenants account project) :=
  inferInstanceAs (Decidable (∃ t ∈ tenants, Grants t account project))

/-- A group grants the projects it lists, and every project if it is a wildcard group. -/
def Group.Grants (g : Group) (project : GoString) : Prop :=
  g.isWildcard ∨ project ∈ g.projectIDs

/-- Whether some tenant of the account stands for all its projects. -/
def hasWildcard (tenants : List VMTenant) (a : GoString) : Bool :=
  tenants.any (fun t => decide (t.accountID = a) && allProjects t.projectID)

theorem hasWildcard_iff {tenants : List VMTenant} {a : GoString} :
  hasWildcard tenants a ↔ ∃ t ∈ tenants, t.accountID = a ∧ allProjects t.projectID
  := by
  simp [hasWildcard]

/-- The projects named by the tenants of an account, in the order of the list. -/
def projectsOf (tenants : List VMTenant) (a : GoString) : List GoString :=
  (tenants.filter (fun t => t.accountID = a)).map VMTenant.projectID

theorem mem_projectsOf {tenants : List VMTenant} {a p : GoString} :
  p ∈ projectsOf tenants a ↔ ∃ t ∈ tenants, t.accountID = a ∧ t.projectID = p
  := by
  simp [projectsOf, and_assoc]

/-! ### Collecting the tenants by account -/

/-- The maps `optimizeGroups` fills: the projects named for each account, and the
accounts with a wildcard.  Accounts in the first have a project, accounts in the second
are marked. -/
structure Grouping where
  accountGroups : MultiMap GoString GoString
  accountWildcards : GoMap GoString Bool
  groups_ne_nil : ∀ a ps, accountGroups.lookup a = some ps → ps ≠ []
  wildcards_true : ∀ a b, accountWildcards.lookup a = some b → b = true

namespace Grouping

/-- No tenants. -/
def empty : Grouping where
  accountGroups := ∅
  accountWildcards := ∅
  groups_ne_nil := by
    intro a ps h
    cases h
  wildcards_true := by
    intro a b h
    cases h

/-- `accountWildcards[a]`. -/
def isWildcard (g : Grouping) (a : GoString) : Bool := (g.accountWildcards.lookup a).getD false

/-- An account is marked when it is a key of the map. -/
theorem isWildcard_iff_mem (g : Grouping) (a : GoString) :
  g.isWildcard a ↔ a ∈ g.accountWildcards.keys
  := by
  rw [isWildcard, ← AList.mem_keys, ← AList.lookup_isSome]
  cases h : g.accountWildcards.lookup a with
  | none => simp
  | some b => simp [g.wildcards_true a b h]

/-- Mark an account as having a wildcard. -/
def addWildcard (g : Grouping) (a : GoString) : Grouping where
  accountGroups := g.accountGroups
  accountWildcards := g.accountWildcards.insert a true
  groups_ne_nil := g.groups_ne_nil
  wildcards_true := by
    intro a' b h
    rw [GoMap.lookup_insert_eq_ite] at h
    split at h
    · exact (Option.some.inj h).symm
    · apply g.wildcards_true a' b h

/-- Append a project to an account. -/
def addProject (g : Grouping) (a p : GoString) : Grouping where
  accountGroups := g.accountGroups.add a p
  accountWildcards := g.accountWildcards
  groups_ne_nil := by
    intro a' ps h
    rw [MultiMap.add, GoMap.lookup_insert_eq_ite] at h
    split at h
    · obtain rfl := Option.some.inj h
      simp
    · apply g.groups_ne_nil a' ps h
  wildcards_true := g.wildcards_true

/-- The loop body: a wildcard marks its account, and a project is appended unless its
account is already marked. -/
def addTenant (g : Grouping) (t : VMTenant) : Grouping :=
  if allProjects t.projectID then g.addWildcard t.accountID
  else if !g.isWildcard t.accountID then g.addProject t.accountID t.projectID
  else g

theorem isWildcard_addWildcard (g : Grouping) (a a' : GoString) :
  (g.addWildcard a').isWildcard a = (decide (a = a') || g.isWildcard a)
  := by
  rw [isWildcard, addWildcard, GoMap.lookup_insert_eq_ite]
  by_cases h : a = a'
  · simp [h]
  · simp [h, isWildcard]

@[simp]
theorem isWildcard_addProject (g : Grouping) (a a' p : GoString) :
  (g.addProject a' p).isWildcard a = g.isWildcard a
  := rfl

theorem isWildcard_addTenant (g : Grouping) (t : VMTenant) (a : GoString) :
  (g.addTenant t).isWildcard a
    = (g.isWildcard a || decide (t.accountID = a ∧ allProjects t.projectID))
  := by
  rw [addTenant]
  split
  · rename_i h
    rw [isWildcard_addWildcard]
    simp [h, eq_comm, Bool.or_comm]
  · rename_i h
    split
    · simp [h]
    · simp [h]

theorem values_addTenant (g : Grouping) (t : VMTenant) {a : GoString}
    (h : (g.addTenant t).isWildcard a = false) :
  (g.addTenant t).accountGroups.values a
    = g.accountGroups.values a ++ if t.accountID = a then [t.projectID] else []
  := by
  rw [isWildcard_addTenant, Bool.or_eq_false_iff, decide_eq_false_iff_not] at h
  obtain ⟨hwild, hall⟩ := h
  rw [addTenant]
  split
  · rename_i hp
    rw [if_neg (fun ha => hall ⟨ha, hp⟩), List.append_nil]
    rfl
  · split
    · rw [addProject, MultiMap.values_add]
      simp only [eq_comm]
    · rename_i hmarked
      rw [if_neg, List.append_nil]
      rintro rfl
      apply hmarked
      rw [hwild]
      rfl

/-- The maps after the loop over the tenants. -/
def addTenants (g : Grouping) (tenants : List VMTenant) : Grouping := tenants.foldl addTenant g

/-- An account is marked when a tenant of it stands for all projects. -/
theorem isWildcard_addTenants (g : Grouping) (tenants : List VMTenant) (a : GoString) :
  (g.addTenants tenants).isWildcard a = (g.isWildcard a || hasWildcard tenants a)
  := by
  induction tenants generalizing g with
  | nil => simp [addTenants, hasWildcard]
  | cons t tenants ih =>
    rw [addTenants, List.foldl_cons, ← addTenants, ih, isWildcard_addTenant, hasWildcard,
      hasWildcard, List.any_cons, Bool.or_assoc]
    simp

/-- The projects collected for an account that is not marked are those of its tenants, in
order. -/
theorem values_addTenants (g : Grouping) (tenants : List VMTenant) {a : GoString}
    (h : (g.addTenants tenants).isWildcard a = false) :
  (g.addTenants tenants).accountGroups.values a
    = g.accountGroups.values a ++ projectsOf tenants a
  := by
  induction tenants generalizing g with
  | nil => simp [addTenants, projectsOf]
  | cons t tenants ih =>
    rw [addTenants, List.foldl_cons, ← addTenants] at h ⊢
    have hstep : (g.addTenant t).isWildcard a = false := by
      rw [isWildcard_addTenants, Bool.or_eq_false_iff] at h
      apply h.1
    rw [ih _ h, values_addTenant g t hstep, List.append_assoc]
    by_cases ha : t.accountID = a
    · simp [ha, projectsOf]
    · simp [ha, projectsOf]

/-- The maps of a list of tenants. -/
def ofTenants (tenants : List VMTenant) : Grouping := empty.addTenants tenants

theorem isWildcard_ofTenants (tenants : List VMTenant) (a : GoString) :
  (ofTenants tenants).isWildcard a = hasWildcard tenants a
  := by
  rw [ofTenants, isWildcard_addTenants]
  rfl

theorem values_ofTenants {tenants : List VMTenant} {a : GoString}
    (h : hasWildcard tenants a = false) :
  (ofTenants tenants).accountGroups.values a = projectsOf tenants a
  := by
  rw [← isWildcard_ofTenants] at h
  apply values_addTenants empty tenants h

end Grouping

/-! ### The groups -/

/-- The items without those that occurred before, in order. -/
def deduplicateStrings (input : List GoString) : List GoString :=
  input.foldl (fun result item => if item ∈ result then result else result ++ [item]) []

theorem deduplicateStrings_eq (input : List GoString) :
  deduplicateStrings input = firsts id input
  := by
  simp only [deduplicateStrings, firsts, List.map_id, id]

@[simp]
theorem mem_deduplicateStrings {input : List GoString} {p : GoString} :
  p ∈ deduplicateStrings input ↔ p ∈ input
  := by
  rw [deduplicateStrings_eq, ← List.map_id (firsts id input), mem_map_firsts, List.map_id]

/-- The wildcard groups, for the accounts in the order of a `range`. -/
def wildcardGroups (accounts : List GoString) : List Group :=
  accounts.map (fun a => ⟨a, [], true⟩)

/-- The groups of named projects, for the accounts without a wildcard in the order of a
`range`. -/
def projectGroups (g : Grouping) (entries : List (GoString × List GoString)) : List Group :=
  (entries.filter (fun e => !g.isWildcard e.1)).map
    (fun e => ⟨e.1, deduplicateStrings (GoString.sort e.2), false⟩)

/-- `optimizeGroups`: the groups of a list of tenants, sorted by account. -/
def optimizeGroups (tenants : List VMTenant) : List Group :=
  let g := Grouping.ofTenants tenants
  (wildcardGroups g.accountWildcards.keys ++
      projectGroups g (g.accountGroups.entries.map (fun e => (e.1, e.2)))).mergeSort
    (fun x y => decide (x.accountID ≤ y.accountID))

/-- The different projects named by the tenants of an account, sorted. -/
def distinctProjects (tenants : List VMTenant) (a : GoString) : List GoString :=
  deduplicateStrings (GoString.sort (projectsOf tenants a))

theorem mem_distinctProjects {tenants : List VMTenant} {a p : GoString} :
  p ∈ distinctProjects tenants a ↔ p ∈ projectsOf tenants a
  := by
  rw [distinctProjects, mem_deduplicateStrings, (GoString.sort_perm _).mem_iff]

/-- The group of an account. -/
def groupOf (tenants : List VMTenant) (a : GoString) : Group :=
  if hasWildcard tenants a then ⟨a, [], true⟩ else ⟨a, distinctProjects tenants a, false⟩

@[simp]
theorem accountID_groupOf (tenants : List VMTenant) (a : GoString) :
  (groupOf tenants a).accountID = a
  := by
  rw [groupOf]
  split
  · rfl
  · rfl

/-- The wildcard groups are those of the accounts with a wildcard. -/
theorem mem_wildcardGroups {tenants : List VMTenant} {g : Group} :
  g ∈ wildcardGroups (Grouping.ofTenants tenants).accountWildcards.keys ↔
    hasWildcard tenants g.accountID ∧ g = ⟨g.accountID, [], true⟩
  := by
  rw [← Grouping.isWildcard_ofTenants, Grouping.isWildcard_iff_mem]
  constructor
  · intro h
    obtain ⟨a, ha, rfl⟩ := List.mem_map.mp h
    use ha
  · rintro ⟨ha, hg⟩
    apply List.mem_map.mpr
    use g.accountID, ha
    apply hg.symm

/-- The entries of the map of projects for accounts without a wildcard. -/
theorem mem_accountGroups {tenants : List VMTenant} {a : GoString} {ps : List GoString}
    (h : hasWildcard tenants a = false) :
  (⟨a, ps⟩ : Sigma _) ∈ (Grouping.ofTenants tenants).accountGroups.entries ↔
    projectsOf tenants a ≠ [] ∧ ps = projectsOf tenants a
  := by
  have hvalues := Grouping.values_ofTenants h
  rw [← AList.mem_lookup_iff, Option.mem_def]
  constructor
  · intro hlookup
    rw [MultiMap.values, hlookup] at hvalues
    have hps : ps = projectsOf tenants a := hvalues
    use hps ▸ (Grouping.ofTenants tenants).groups_ne_nil a ps hlookup
  · rintro ⟨hne, rfl⟩
    cases hlookup : (Grouping.ofTenants tenants).accountGroups.lookup a with
    | none =>
      rw [MultiMap.values, hlookup] at hvalues
      exact absurd hvalues.symm hne
    | some ps =>
      rw [MultiMap.values, hlookup] at hvalues
      exact congrArg some hvalues

/-- The groups of named projects are those of the accounts that have tenants, none of them
a wildcard. -/
theorem mem_projectGroups {tenants : List VMTenant} {g : Group} :
  g ∈ projectGroups (Grouping.ofTenants tenants)
      ((Grouping.ofTenants tenants).accountGroups.entries.map (fun e => (e.1, e.2))) ↔
    hasWildcard tenants g.accountID = false ∧ projectsOf tenants g.accountID ≠ [] ∧
      g = ⟨g.accountID, distinctProjects tenants g.accountID, false⟩
  := by
  constructor
  · intro h
    obtain ⟨⟨a, ps⟩, he, rfl⟩ := List.mem_map.mp h
    obtain ⟨he, hmark⟩ := List.mem_filter.mp he
    obtain ⟨entry, hentry, ⟨⟩⟩ := List.mem_map.mp he
    rw [Grouping.isWildcard_ofTenants, Bool.not_eq_true'] at hmark
    obtain ⟨hne, hps⟩ := (mem_accountGroups hmark).mp hentry
    use hmark, hne
    rw [distinctProjects, ← hps]
  · rintro ⟨hmark, hne, hg⟩
    apply List.mem_map.mpr
    use (g.accountID, projectsOf tenants g.accountID)
    constructor
    · apply List.mem_filter.mpr
      constructor
      · apply List.mem_map.mpr
        use ⟨g.accountID, projectsOf tenants g.accountID⟩
        use (mem_accountGroups hmark).mpr ⟨hne, rfl⟩
      · rw [Grouping.isWildcard_ofTenants, hmark]
        rfl
    · apply hg.symm

/-- The groups are those of the accounts that have a tenant. -/
theorem mem_optimizeGroups {tenants : List VMTenant} {g : Group} :
  g ∈ optimizeGroups tenants ↔
    g = groupOf tenants g.accountID ∧ ∃ t ∈ tenants, t.accountID = g.accountID
  := by
  rw [optimizeGroups, List.mem_mergeSort, List.mem_append, mem_wildcardGroups,
    mem_projectGroups, groupOf]
  have hsome : projectsOf tenants g.accountID ≠ [] ↔ ∃ t ∈ tenants, t.accountID = g.accountID := by
    simp [projectsOf]
  cases hw : hasWildcard tenants g.accountID with
  | true =>
    obtain ⟨t, ht, ha, -⟩ := hasWildcard_iff.mp hw
    have : ∃ t ∈ tenants, t.accountID = g.accountID := ⟨t, ht, ha⟩
    simp [this]
  | false =>
    rw [hsome]
    simp [and_comm]

/-- A group grants a project exactly when a tenant of the list grants its account with the
project. -/
theorem grants_groupOf_iff (tenants : List VMTenant) (a project : GoString) :
  (groupOf tenants a).Grants project ↔ Granted tenants a project
  := by
  rw [Group.Grants, groupOf]
  cases hw : hasWildcard tenants a with
  | true =>
    obtain ⟨t, ht, ha, hall⟩ := hasWildcard_iff.mp hw
    have : Granted tenants a project := ⟨t, ht, ha, Or.inr hall⟩
    simp [this]
  | false =>
    have hnone : ∀ t ∈ tenants, t.accountID = a → ¬ allProjects t.projectID := by
      intro t ht ha hall
      have := hasWildcard_iff.mpr ⟨t, ht, ha, hall⟩
      rw [hw] at this
      cases this
    simp only [Bool.false_eq_true, if_false, false_or, mem_distinctProjects, mem_projectsOf]
    constructor
    · rintro ⟨t, ht, ha, hp⟩
      use t, ht, ha
      exact Or.inl hp
    · rintro ⟨t, ht, ha, hp | hall⟩
      · use t
      · exact absurd hall (hnone t ht ha)

/-- A non-empty list of tenants has a group. -/
theorem optimizeGroups_ne_nil {tenants : List VMTenant} (h : tenants ≠ []) :
  optimizeGroups tenants ≠ []
  := by
  obtain ⟨t, ht⟩ := List.exists_mem_of_ne_nil tenants h
  apply List.ne_nil_of_mem (a := groupOf tenants t.accountID)
  apply mem_optimizeGroups.mpr
  rw [accountID_groupOf]
  use rfl, t

/-! ### A single tenant -/

theorem groupOf_singleton (t : VMTenant) :
  groupOf [t] t.accountID
    = if allProjects t.projectID then ⟨t.accountID, [], true⟩
      else ⟨t.accountID, [t.projectID], false⟩
  := by
  have hw : hasWildcard [t] t.accountID = allProjects t.projectID := by
    simp [hasWildcard]
  have hps : distinctProjects [t] t.accountID = [t.projectID] := by
    simp [distinctProjects, projectsOf, GoString.sort, deduplicateStrings]
  rw [groupOf, hw, hps]

theorem mem_optimizeGroups_singleton {t : VMTenant} {g : Group} :
  g ∈ optimizeGroups [t] ↔ g = groupOf [t] t.accountID
  := by
  rw [mem_optimizeGroups]
  constructor
  · rintro ⟨hg, t', ht', ha⟩
    obtain rfl := List.mem_singleton.mp ht'
    rw [ha]
    apply hg
  · rintro rfl
    rw [accountID_groupOf]
    use rfl, t
    simp

end Tenant

end VmProxyAuth
