import VmProxyAuth.Auth.Permissions
import VmProxyAuth.Gateway.TenantHeaders

/-!
# Write requests

Access control and the gateway tell writes by different methods and paths.  A user who may
write has only mappings with the write permission, so every tenant they can access is granted
for writing (`writeGranted_of_canAccessTenant`).  But the gateway determines the tenant only on
its own write endpoints; on the other write paths, and with the method `PATCH`, the client's
tenant header goes through.  The tenant header of a forwarded write is the one determined
exactly if the gateway writes it, or the client sent that tenant (`tenant_of_write_iff`).
-/

namespace VmProxyAuth

namespace Auth

/-- A mapping that matches the groups lists the write permission and has the tenant, by its
account or by its identifier. -/
def WriteGranted (tenantMaps : List MappingConfig) (groups : List GoString)
    (tenant : GoString) : Prop :=
  ∃ mapping ∈ tenantMaps, hasGroupMatch groups mapping.groups = true ∧
    str "write" ∈ mapping.permissions ∧
    ∃ t ∈ mapping.vmTenants, t.accountID = tenant ∨ t.string = tenant

/-- A user who is not read-only is granted every tenant they can access for writing. -/
theorem writeGranted_of_canAccessTenant {A : Service} {claims : Claims} {tenant : GoString}
    (hwrites : (A.userOf claims).readOnly = false)
    (haccess : Tenant.canAccessTenant (A.userOf claims) tenant = true) :
  WriteGranted A.tenantMaps claims.groups tenant
  := by
  obtain ⟨t, ht, heq⟩ := List.any_eq_true.mp haccess
  obtain ⟨mapping, hmapping, hshares, htenant⟩ := mem_grants.mp (mem_grants_of_mem_vmTenants ht)
  use mapping, hmapping, hasGroupMatch_iff.mpr hshares
  constructor
  · apply (readOnly_determineUserPermissions A.tenantMaps claims.groups).mp hwrites mapping
      hmapping hshares
  · use t, htenant
    simpa using heq

end Auth

namespace Gateway

open Http Proxy Tenant

/-- The paths of writes, for access control or for the gateway, other than those of the
administrator. -/
def writePrefixes : List GoString :=
  Access.writePaths.filter (fun path => path ≠ str "/api/v1/admin/") ++ writeEndpoints

/-- A request with a method that writes, for one of the paths of writes. -/
structure IsWrite (r : Request) : Prop where
  method : r.method ∈ Access.writeHTTPMethods
  path : Access.startsWithAny writePrefixes r.url.path = true

/-- A user whose write is forwarded is not read-only. -/
theorem readOnly_of_serveUser {S : Tenant.Service} {user : User} {r : Request}
    {req : ProxyRequest} (hwrite : IsWrite r) (h : serveUser S user r = .ok req) :
  user.readOnly = false
  := by
  have hoperation : Access.isWriteOperation r.method r.url.path = true := by
    rw [Access.isWriteOperation, decide_eq_true hwrite.method, Bool.true_or]
  cases hreadOnly : user.readOnly with
  | false => rfl
  | true =>
    rw [serveUser, Access.canAccess, hreadOnly, hoperation] at h
    cases h

/-- The target tenant is the one determined if the tenant header is written over. -/
theorem determineTargetTenant_of_overwritten {S : Tenant.Service} {user : User} {r : Request}
    {req : ProxyRequest} (hreq : serveUser S user r = .ok req)
    (hover : tenantOverwritten user r = true) :
  determineTargetTenant user r = .ok req.targetTenant
  := by
  obtain ⟨-, -, -, htenant⟩ := serveUser_eq_ok hreq
  rw [tenantOverwritten, Bool.and_eq_true] at hover
  rw [processTargetTenant, hover.1] at htenant
  apply htenant

/-- The tenant header of a forwarded write is the tenant determined for it, granted for
writing by a mapping of the user, exactly if the gateway writes the header, or the client sent
that tenant. -/
theorem tenant_of_write_iff
    (A : Auth.Service) (claims : Auth.Claims) (S : Tenant.Service)
    (urlParse : GoString → Except GoError URL) (r : Request) (hwrite : IsWrite r)
    (req : ProxyRequest) (hreq : serveUser S (A.userOf claims) r = .ok req)
    (backendURL : GoString) (body : Body) (out : Request)
    (hout : createBackendRequest urlParse (withBody req body) backendURL = .ok out) :
  (∃ tenant, determineTargetTenant (A.userOf claims) r = .ok tenant ∧
      out.header.values (canonicalHeaderKey (str "X-Prometheus-Tenant")) = [tenant] ∧
      Auth.WriteGranted A.tenantMaps claims.groups tenant) ↔
    tenantOverwritten (A.userOf claims) r = true ∨
      ∃ tenant, determineTargetTenant (A.userOf claims) r = .ok tenant ∧
        r.header.named (canonicalHeaderKey (str "X-Prometheus-Tenant")) = [tenant]
  := by
  have hwrites := readOnly_of_serveUser hwrite hreq
  have hsent := tenantHeader_sent hreq hout
  have hgranted : ∀ tenant, determineTargetTenant (A.userOf claims) r = .ok tenant →
      Auth.WriteGranted A.tenantMaps claims.groups tenant := by
    intro tenant h
    apply Auth.writeGranted_of_canAccessTenant hwrites
    apply canAccessTenant_of_determineTargetTenant h
  obtain ⟨hover, htarget⟩ | ⟨hover, htarget, -⟩ := targetTenant_cases hreq
  · rw [if_neg (not_not.mpr htarget)] at hsent
    rw [hsent, hover]
    constructor
    · rintro ⟨tenant, hdetermined, hheader, -⟩
      right
      use tenant
    · rintro (⟨⟨⟩⟩ | ⟨tenant, hdetermined, hheader⟩)
      use tenant, hdetermined, hheader
      apply hgranted tenant hdetermined
  · rw [if_pos htarget] at hsent
    have hdetermined := determineTargetTenant_of_overwritten hreq hover
    constructor
    · intro _
      apply Or.inl hover
    · intro _
      use req.targetTenant, hdetermined, hsent
      apply hgranted _ hdetermined

/-! ### A write that the gateway does not take for one -/

/-- A service with tenant mappings. -/
def mappedService (tenantMaps : List Auth.MappingConfig) : Auth.Service where
  config :=
    { algorithm := str "HS256"
      jwksURL := []
      secret := str "secret"
      validation := ⟨false, false, [], []⟩
      cache := ⟨Clock.second, Clock.second⟩ }
  verifier := ⟨str "secret", str "HS256", false⟩
  tenantMaps := tenantMaps
  lib := ⟨fun _ => none, fun _ _ => false⟩
  config_valid := by decide
  verifier_eq := by decide

/-- The claims of a user of the group `writers`. -/
def writerClaims : Auth.Claims := ⟨[], [str "writers"], str "bob", 10, 1, 0, [], []⟩

/-- A mapping of the group `writers` to the account `1`. -/
def writersMapping : Auth.MappingConfig := ⟨[str "writers"], [⟨str "1", []⟩], [str "write"]⟩

/-- A request to write that names the account `2`. -/
def foreignWrite : Request where
  method := str "POST"
  url := ⟨[], [], str "/write", []⟩
  header := MultiMap.add ∅ (str "X-Prometheus-Tenant") (str "2")
  body := Body.received []

/-- A request to write that names no account. -/
def importRequest : Request where
  method := str "POST"
  url := ⟨[], [], str "/api/v1/import", []⟩
  header := ∅
  body := Body.received []

/-- A write to the account `2` by a user of the account `1` is forwarded. -/
theorem foreign_write_forwarded :
  IsWrite foreignWrite ∧
    ∃ req out,
      serveUser plainService ((mappedService [writersMapping]).userOf writerClaims) foreignWrite
        = .ok req ∧
      createBackendRequest oneHost req (str "http://vm:8481") = .ok out ∧
      out.header.values (canonicalHeaderKey (str "X-Prometheus-Tenant")) = [str "2"] ∧
      ¬ Auth.WriteGranted [writersMapping] writerClaims.groups (str "2")
  := by
  refine ⟨⟨by decide, by decide⟩, _, _, rfl, rfl, by decide +kernel, ?_⟩
  rintro ⟨mapping, hmapping, -, -, t, ht, heq⟩
  obtain rfl := List.mem_singleton.mp hmapping
  obtain rfl := List.mem_singleton.mp ht
  revert heq
  decide

/-- A write without a tenant header is forwarded to the account of the mapping. -/
theorem import_sent_to_account :
  ∃ req out,
    serveUser plainService ((mappedService [writersMapping]).userOf writerClaims) importRequest
      = .ok req ∧
    createBackendRequest oneHost (withBody req (Body.received [])) (str "http://vm:8481")
      = .ok out ∧
    ∃ tenant,
      determineTargetTenant ((mappedService [writersMapping]).userOf writerClaims) importRequest
        = .ok tenant ∧
      out.header.values (canonicalHeaderKey (str "X-Prometheus-Tenant")) = [tenant] ∧
      Auth.WriteGranted [writersMapping] writerClaims.groups tenant
  := ⟨_, _, rfl, rfl, (tenant_of_write_iff (mappedService [writersMapping]) writerClaims
      plainService oneHost importRequest ⟨by decide, by decide⟩ _ rfl (str "http://vm:8481")
      (Body.received []) _ rfl).mpr (Or.inl (by decide))⟩

end Gateway

end VmProxyAuth
