import VmProxyAuth.Tenant.Rewrite

/-!
# The tenant service

What the gateway asks of the tenants of a user: the filtered text of a query, whether a
tenant identifier may be used, and the tenant a write goes to.
-/

namespace VmProxyAuth

namespace Tenant

open PromQL

/-- The tenant service: its configuration and the parser it uses. -/
structure Service where
  parser : Parser
  config : FilterConfig

/-- `TenantFilterStrategy.IsValid`. -/
def validStrategy (strategy : GoString) : Bool :=
  strategy == str "orConditions" || strategy == str "andConditions"

/-- `FilterQuery`. -/
def Service.filterQuery (S : Service) (user : User) (query : GoString) : Except GoError GoString :=
  if user.vmTenants = [] then .error (.app AppError.noVMTenants)
  else if !validStrategy S.config.strategy then
    .error (.errorf "invalid tenant filter strategy: %s (only '%s' is supported)"
      [.string S.config.strategy, .string (str "orConditions")])
  else
    match buildSecureQuery S.parser query user.vmTenants S.config with
    | .error _ => .error (.app AppError.promQLParsing)
    | .ok filteredQuery => .ok filteredQuery

/-- `CanAccessTenant`: the identifier is the account or the full identifier of a tenant of
the user. -/
def canAccessTenant (user : User) (tenantID : GoString) : Bool :=
  user.vmTenants.any (fun t => t.accountID == tenantID || t.string == tenantID)

/-- The headers that name a tenant, in the order they are looked at. -/
def tenantHeaders : List GoString := [str "X-Prometheus-Tenant", str "X-Tenant-ID"]

/-- The first tenant header with a value. -/
def explicitTenant (header : Http.Header) : Option GoString :=
  (tenantHeaders.map header.get).find? (fun value => decide (value ≠ []))

/-- `DetermineTargetTenant`. -/
def determineTargetTenant (user : User) (r : Http.Request) : Except GoError GoString :=
  match user.vmTenants with
  | [] => .error (.app AppError.noVMTenants)
  | first :: _ =>
    match explicitTenant r.header with
    | some tenantHeader =>
      if canAccessTenant user tenantHeader then .ok tenantHeader
      else .error (.app ⟨"FORBIDDEN", str "User cannot access tenant: " ++ tenantHeader, 403⟩)
    | none => .ok first.string

/-- A tenant that a write goes to is accessible to the user. -/
theorem canAccessTenant_of_determineTargetTenant {user : User} {r : Http.Request}
    {tenant : GoString} (h : determineTargetTenant user r = .ok tenant) :
  canAccessTenant user tenant
  := by
  rw [determineTargetTenant] at h
  split at h
  · cases h
  · rename_i first rest htenants
    split at h
    · split at h
      · rename_i haccess
        cases h
        apply haccess
      · cases h
    · cases h
      rw [canAccessTenant, htenants, List.any_cons]
      simp

/-- The tenant a write goes to is the first tenant header with a value, and the user's
first tenant if there is none. -/
theorem determineTargetTenant_eq_ok {user : User} {r : Http.Request} {tenant : GoString}
    (h : determineTargetTenant user r = .ok tenant) :
  ∃ first rest, user.vmTenants = first :: rest ∧
    tenant = (explicitTenant r.header).getD first.string
  := by
  rw [determineTargetTenant] at h
  split at h
  · cases h
  · rename_i first rest htenants
    use first, rest, htenants
    split at h
    · rename_i tenantHeader hexplicit
      split at h
      · cases h
        rw [hexplicit]
        rfl
      · cases h
    · rename_i hexplicit
      cases h
      rw [hexplicit]
      rfl

end Tenant

end VmProxyAuth
