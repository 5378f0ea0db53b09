import VmProxyAuth.Auth.Service
import VmProxyAuth.Lib.Firsts
import VmProxyAuth.Tenant.Rewrite

/-!
# The permissions of a user

A user is granted the tenants of the mappings that share a group with them.  The tenants are
told apart by their identifiers, in which the account and the project are joined by a colon;
the account `a:b` and the project `b` of the account `a` have one identifier.  A user has
exactly the tenants granted if the tenants granted to them have different identifiers
(`exactPermissions_iff`), as they do if no account has a colon (`exact_of_no_colon`).
-/

namespace VmProxyAuth

/-! ### The configuration of tenants -/

namespace Tenant

/-- The loop over the parts of a configuration, which names the number of the first part that
is not valid. -/
def validateAll {α : Type} (validate : α → Except GoError Unit) (format : String) (i : ℕ) :
    List α → Except GoError Unit
  | [] => .ok ()
  | x :: rest =>
    match validate x with
    | .error err => .error (.wrapf format [.int i] err)
    | .ok () => validateAll validate format (i + 1) rest

/-- `LabelsConfig.Validate`. -/
def LabelsConfig.validate (l : LabelsConfig) : Except GoError Unit :=
  if l.account = [] then .error (.errorf "account label is required" [])
  else if l.project = [] then .error (.errorf "project label is required" [])
  else .ok ()

/-- `FilterConfig.Validate`. -/
def FilterConfig.validate (f : FilterConfig) : Except GoError Unit :=
  if f.strategy ∉ [str "orConditions", str "andConditions"] then
    .error (.errorf "invalid filter strategy: %s (valid: [orConditions andConditions])"
      [.string f.strategy])
  else f.labels.validate

/-- `VMTenantConfig.Validate`. -/
def validateVMTenant (t : VMTenant) : Except GoError Unit :=
  if t.accountID = [] then .error (.errorf "VM tenant account is required" []) else .ok ()

/-- The permissions that can be given. -/
def validPermissions : List GoString := [str "read", str "write"]

/-- `MappingConfig.Validate`. -/
def validateMapping (m : Auth.MappingConfig) : Except GoError Unit :=
  if m.groups = [] then .error (.errorf "at least one group is required in mapping" [])
  else if m.vmTenants = [] then
    .error (.errorf "at least one VM tenant is required in mapping" [])
  else
    match validateAll validateVMTenant "VM tenant %d validation failed: %w" 0 m.vmTenants with
    | .error err => .error err
    | .ok () =>
      match m.permissions.find? (fun perm => perm ∉ validPermissions) with
      | some perm =>
        .error (.errorf "invalid permission: %s (valid: [read write])" [.string perm])
      | none => .ok ()

/-- The configuration of the tenants. -/
structure Config where
  filter : FilterConfig
  mappings : List Auth.MappingConfig
  deriving DecidableEq, Repr

/-- `Config.Validate`. -/
def Config.validate (c : Config) : Except GoError Unit :=
  match c.filter.validate with
  | .error err => .error (.wrapf "filter validation failed: %w" [] err)
  | .ok () =>
    if c.mappings = [] then .error (.errorf "at least one tenant mapping is required" [])
    else validateAll validateMapping "mapping %d validation failed: %w" 0 c.mappings

end Tenant

namespace Auth

/-! ### What is granted -/

/-- A mapping shares a group with the user. -/
def Shares (userGroups : List GoString) (mapping : MappingConfig) : Prop :=
  ∃ group ∈ userGroups, group ∈ mapping.groups

instance (userGroups : List GoString) (mapping : MappingConfig) :
    Decidable (Shares userGroups mapping) :=
  inferInstanceAs (Decidable (∃ group ∈ userGroups, group ∈ mapping.groups))

/-- The tenants of the mappings that share a group with the user, in order. -/
def grants (tenantMaps : List MappingConfig) (userGroups : List GoString) : List VMTenant :=
  (tenantMaps.filter (Shares userGroups)).flatMap MappingConfig.vmTenants

/-- The user has the tenants granted to them and no other, each once, in the order of their
first occurrences; and if a mapping shares a group with them, they are not read-only exactly if
all such mappings list the permission to write. -/
structure ExactPermissions (tenantMaps : List MappingConfig) (userGroups : List GoString)
    (vmTenants : List VMTenant) (readOnly : Bool) : Prop where
  tenants : ∀ t, t ∈ vmTenants ↔
    ∃ mapping ∈ tenantMaps, Shares userGroups mapping ∧ t ∈ mapping.vmTenants
  order : vmTenants.Pairwise (fun t t' => (grants tenantMaps userGroups).idxOf t
    < (grants tenantMaps userGroups).idxOf t')
  once : vmTenants.Nodup
  readOnly_iff : (∃ mapping ∈ tenantMaps, Shares userGroups mapping) →
    (readOnly = false ↔
      ∀ mapping ∈ tenantMaps, Shares userGroups mapping → str "write" ∈ mapping.permissions)
  writable : readOnly = false → ∀ t ∈ vmTenants, ∀ mapping ∈ tenantMaps,
    Shares userGroups mapping → t ∈ mapping.vmTenants → str "write" ∈ mapping.permissions

theorem mem_grants {tenantMaps : List MappingConfig} {userGroups : List GoString} {t : VMTenant} :
  t ∈ grants tenantMaps userGroups ↔
    ∃ mapping ∈ tenantMaps, Shares userGroups mapping ∧ t ∈ mapping.vmTenants
  := by
  simp [grants, List.mem_flatMap, and_assoc]

theorem hasGroupMatch_iff {userGroups requiredGroups : List GoString} :
  hasGroupMatch userGroups requiredGroups = true ↔ ∃ group ∈ userGroups, group ∈ requiredGroups
  := by
  simp [hasGroupMatch]

/-- The mappings that match are those that share a group. -/
theorem filter_hasGroupMatch (tenantMaps : List MappingConfig) (userGroups : List GoString) :
  tenantMaps.filter (fun mapping => hasGroupMatch userGroups mapping.groups)
    = tenantMaps.filter (Shares userGroups)
  := by
  apply List.filter_congr
  intro mapping hmapping
  rw [Bool.eq_iff_iff, hasGroupMatch_iff, decide_eq_true_eq, Shares]

theorem removeDuplicateVMTenants_eq (tenants : List VMTenant) :
  removeDuplicateVMTenants tenants = firsts VMTenant.string tenants
  := by
  rw [removeDuplicateVMTenants, firsts]
  congr! 5

theorem vmTenants_determineUserPermissions (tenantMaps : List MappingConfig)
    (userGroups : List GoString) :
  (determineUserPermissions tenantMaps userGroups).2.1
    = firsts VMTenant.string (grants tenantMaps userGroups)
  := by
  rw [determineUserPermissions, filter_hasGroupMatch]
  apply removeDuplicateVMTenants_eq

/-- A user has no tenants but those granted to them. -/
theorem mem_grants_of_mem_vmTenants {tenantMaps : List MappingConfig}
    {userGroups : List GoString} {t : VMTenant}
    (h : t ∈ (determineUserPermissions tenantMaps userGroups).2.1) :
  t ∈ grants tenantMaps userGroups
  := by
  rw [vmTenants_determineUserPermissions] at h
  apply (firsts_sublist _).subset h

/-- A user can write exactly if all mappings that share a group with them allow it. -/
theorem readOnly_determineUserPermissions (tenantMaps : List MappingConfig)
    (userGroups : List GoString) :
  (determineUserPermissions tenantMaps userGroups).2.2 = false ↔
    ∀ mapping ∈ tenantMaps, Shares userGroups mapping → str "write" ∈ mapping.permissions
  := by
  rw [determineUserPermissions, filter_hasGroupMatch]
  simp

/-- A user has exactly the tenants granted to them if these have different identifiers. -/
theorem exact_of_distinct {tenantMaps : List MappingConfig} {userGroups : List GoString}
    (h : ∀ t ∈ grants tenantMaps userGroups, ∀ t' ∈ grants tenantMaps userGroups,
      t.string = t'.string → t = t') :
  ExactPermissions tenantMaps userGroups (determineUserPermissions tenantMaps userGroups).2.1
    (determineUserPermissions tenantMaps userGroups).2.2
  := by
  have htenants := vmTenants_determineUserPermissions tenantMaps userGroups
  constructor
  case tenants =>
    intro t
    rw [← mem_grants]
    constructor
    · apply mem_grants_of_mem_vmTenants
    · rw [htenants]
      apply forall_mem_firsts_iff.mpr h
  case order =>
    rw [htenants]
    apply pairwise_idxOf_firsts h
  case once =>
    rw [htenants]
    apply List.Nodup.of_map _ (nodup_map_firsts _)
  case readOnly_iff =>
    intro _
    apply readOnly_determineUserPermissions
  case writable =>
    intro hwrites t _ mapping hmapping hshares _
    apply (readOnly_determineUserPermissions tenantMaps userGroups).mp hwrites mapping hmapping
      hshares

/-- A user has exactly the tenants granted to them if and only if no two of these have one
identifier. -/
theorem exactPermissions_iff (tenantMaps : List MappingConfig) (userGroups : List GoString) :
  ExactPermissions tenantMaps userGroups (determineUserPermissions tenantMaps userGroups).2.1
      (determineUserPermissions tenantMaps userGroups).2.2 ↔
    ∀ t ∈ grants tenantMaps userGroups, ∀ t' ∈ grants tenantMaps userGroups,
      t.string = t'.string → t = t'
  := by
  constructor
  · intro h
    apply forall_mem_firsts_iff.mp
    intro t ht
    rw [← vmTenants_determineUserPermissions]
    apply (h.tenants t).mpr (mem_grants.mp ht)
  · apply exact_of_distinct

/-- An account without a colon, and the project, can be read off the identifier. -/
theorem eq_before_after_string {t : VMTenant} (h : 58 ∉ t.accountID) :
  t = ⟨GoString.before 58 t.string, GoString.after 58 t.string⟩
  := by
  obtain ⟨account, project⟩ := t
  rw [VMTenant.string]
  split
  · have hjoin : account ++ str ":" ++ project = account ++ 58 :: project := by
      rw [List.append_assoc]
      rfl
    rw [hjoin, GoString.before_append h, GoString.after_append h]
  · rename_i hproject
    rw [GoString.before_eq_self h, GoString.after_eq_nil h]
    apply congrArg (VMTenant.mk account) (not_not.mp hproject)

/-- A user has exactly the tenants granted to them if no account has a colon. -/
theorem exact_of_no_colon {tenantMaps : List MappingConfig} (userGroups : List GoString)
    (h : ∀ mapping ∈ tenantMaps, ∀ t ∈ mapping.vmTenants, 58 ∉ t.accountID) :
  ExactPermissions tenantMaps userGroups (determineUserPermissions tenantMaps userGroups).2.1
    (determineUserPermissions tenantMaps userGroups).2.2
  := by
  apply exact_of_distinct
  intro t ht t' ht' heq
  obtain ⟨mapping, hmapping, -, hmem⟩ := mem_grants.mp ht
  obtain ⟨mapping', hmapping', -, hmem'⟩ := mem_grants.mp ht'
  rw [eq_before_after_string (h mapping hmapping t hmem),
    eq_before_after_string (h mapping' hmapping' t' hmem'), heq]

/-! ### Two tenants with one identifier -/

/-- A group of users of the account `a:b`, and of the project `b` of the account `a`. -/
def collidingConfig : Tenant.Config where
  filter := ⟨str "orConditions", str "vm_account_id", str "vm_project_id", true⟩
  mappings := [⟨[str "users"], [⟨str "a:b", []⟩, ⟨str "a", str "b"⟩], [str "read"]⟩]

/-- The users lose the second of the two tenants. -/
theorem second_tenant_lost :
  collidingConfig.validate = .ok () ∧
    ⟨str "a", str "b"⟩ ∈ grants collidingConfig.mappings [str "users"] ∧
    (determineUserPermissions collidingConfig.mappings [str "users"]).2.1 = [⟨str "a:b", []⟩] ∧
    ¬ ExactPermissions collidingConfig.mappings [str "users"]
      (determineUserPermissions collidingConfig.mappings [str "users"]).2.1
      (determineUserPermissions collidingConfig.mappings [str "users"]).2.2
  := by
  refine ⟨by decide +kernel, by decide +kernel, by decide +kernel, ?_⟩
  intro h
  have hlost : (⟨str "a", str "b"⟩ : VMTenant)
      ∉ (determineUserPermissions collidingConfig.mappings [str "users"]).2.1 := by
    decide +kernel
  apply hlost ((h.tenants _).mpr (mem_grants.mp (by decide +kernel)))

end Auth

end VmProxyAuth
