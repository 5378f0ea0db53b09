import VmProxyAuth.Gateway.Handler

/-!
# Tenant headers sent upstream

The proxy copies the client's headers and sets the target tenant over them.  The tenant
service authorises the target tenant of a write; on other requests, and for the header the
target tenant is not written to, the client's values go through unchecked.  The tenant
headers sent are all authorised exactly when the client's values that go through are
(`tenantHeaders_authorised_iff`).
-/

namespace VmProxyAuth

namespace Gateway

open Http Proxy Tenant

/-- The values of the tenant headers of a request. -/
def sentTenants (r : Request) : List GoString :=
  tenantHeaders.flatMap (fun name => r.header.values (canonicalHeaderKey name))

/-- Whether the tenant header is written over: the request is a write and has a tenant
header with a value, or the user's first tenant has an identifier that is not empty. -/
def tenantOverwritten (user : User) (r : Request) : Bool :=
  isWriteEndpoint r.url.path r.method &&
    ((explicitTenant r.header).isSome ||
      user.vmTenants.head?.any (fun first => decide (first.string ≠ [])))

/-- The values of the client's tenant headers that go through. -/
def forwardedTenants (user : User) (r : Request) : List GoString :=
  (if tenantOverwritten user r then []
    else r.header.named (canonicalHeaderKey (str "X-Prometheus-Tenant"))) ++
    r.header.named (canonicalHeaderKey (str "X-Tenant-ID"))

/-- The tenant of an explicit tenant header is not empty. -/
theorem explicitTenant_ne_nil {header : Header} {tenant : GoString}
    (h : explicitTenant header = some tenant) :
  tenant ≠ []
  := by
  have := List.find?_some h
  simpa using this

/-- The target tenant is empty, or is accessible and is written over the tenant header. -/
theorem targetTenant_cases {S : Tenant.Service} {user : User} {r : Request} {req : ProxyRequest}
    (hreq : serveUser S user r = .ok req) :
  tenantOverwritten user r = false ∧ req.targetTenant = [] ∨
    tenantOverwritten user r = true ∧ req.targetTenant ≠ [] ∧
      canAccessTenant user req.targetTenant
  := by
  obtain ⟨-, -, -, htenant⟩ := serveUser_eq_ok hreq
  rw [processTargetTenant] at htenant
  cases hwrite : isWriteEndpoint r.url.path r.method with
  | false =>
    rw [hwrite] at htenant
    left
    rw [tenantOverwritten, hwrite]
    use rfl
    apply (Except.ok.inj htenant).symm
  | true =>
    rw [hwrite] at htenant
    obtain ⟨first, rest, htenants, htarget⟩ := determineTargetTenant_eq_ok htenant
    have haccess := canAccessTenant_of_determineTargetTenant htenant
    rw [tenantOverwritten, hwrite, htenants]
    cases hexplicit : explicitTenant r.header with
    | some tenant =>
      right
      rw [hexplicit, Option.getD_some] at htarget
      use rfl, htarget ▸ explicitTenant_ne_nil hexplicit
    | none =>
      rw [hexplicit, Option.getD_none] at htarget
      rw [htarget] at haccess ⊢
      by_cases hempty : first.string = []
      · left
        simp [hempty]
      · right
        simp [hempty, haccess]

/-- The tenant header sent is the target tenant, or the client's if there is none. -/
theorem tenantHeader_sent {S : Tenant.Service} {urlParse : GoString → Except GoError URL}
    {user : User} {r : Request} {req : ProxyRequest} {backendURL : GoString} {body : Body}
    {out : Request} (hreq : serveUser S user r = .ok req)
    (hout : createBackendRequest urlParse (withBody req body) backendURL = .ok out) :
  out.header.values (canonicalHeaderKey (str "X-Prometheus-Tenant"))
    = if req.targetTenant ≠ [] then [req.targetTenant]
      else r.header.named (canonicalHeaderKey (str "X-Prometheus-Tenant"))
  := by
  obtain ⟨received, hrequest, -, -⟩ := serveUser_eq_ok hreq
  obtain ⟨-, -, -, hheader, -⟩ := createBackendRequest_eq_ok hout
  rw [hheader, values_prepareRequestHeaders_tenant, withBody, hrequest]

/-- The tenant headers sent are the target tenant, if it is written over the client's, and
the client's values that go through. -/
theorem mem_sentTenants {S : Tenant.Service} {urlParse : GoString → Except GoError URL}
    {user : User} {r : Request} {req : ProxyRequest} {backendURL : GoString} {body : Body}
    {out : Request} (hreq : serveUser S user r = .ok req)
    (hout : createBackendRequest urlParse (withBody req body) backendURL = .ok out)
    (tenant : GoString) :
  tenant ∈ sentTenants out ↔
    tenantOverwritten user r = true ∧ tenant = req.targetTenant ∨
      tenant ∈ forwardedTenants user r
  := by
  obtain ⟨received, hrequest, -, -⟩ := serveUser_eq_ok hreq
  obtain ⟨-, -, -, hheader, -⟩ := createBackendRequest_eq_ok hout
  have htenantID : out.header.values (canonicalHeaderKey (str "X-Tenant-ID"))
      = r.header.named (canonicalHeaderKey (str "X-Tenant-ID")) := by
    rw [hheader, values_prepareRequestHeaders (by decide +kernel), withBody, hrequest]
  rw [sentTenants, tenantHeaders, List.flatMap_cons, List.flatMap_singleton, htenantID,
    tenantHeader_sent hreq hout, forwardedTenants]
  rcases targetTenant_cases hreq with ⟨hover, htarget⟩ | ⟨hover, htarget, -⟩
  · simp [hover, htarget]
  · simp [hover, htarget]

/-- Every tenant header sent upstream is accessible to the user exactly when the client's
values that go through are. -/
theorem tenantHeaders_authorised_iff
    (S : Tenant.Service) (urlParse : GoString → Except GoError URL) (user : User) (r : Request)
    (req : ProxyRequest) (hreq : serveUser S user r = .ok req) (backendURL : GoString)
    (body : Body) (out : Request)
    (hout : createBackendRequest urlParse (withBody req body) backendURL = .ok out) :
  (∀ tenant ∈ sentTenants out, canAccessTenant user tenant) ↔
    ∀ tenant ∈ forwardedTenants user r, canAccessTenant user tenant
  := by
  simp only [mem_sentTenants hreq hout]
  constructor
  · intro h tenant htenant
    apply h tenant
    exact Or.inr htenant
  · rintro h tenant (⟨hover, rfl⟩ | htenant)
    · rcases targetTenant_cases hreq with ⟨hnot, -⟩ | ⟨-, -, haccess⟩
      · rw [hover] at hnot
        cases hnot
      · apply haccess
    · apply h tenant htenant

/-! ### A read with a tenant header -/

/-- A request for the label names that names a tenant. -/
def labelsRequest (tenant : GoString) : Request where
  method := str "GET"
  url := ⟨[], [], str "/api/v1/labels", []⟩
  header := MultiMap.add ∅ (str "X-Prometheus-Tenant") tenant
  body := Body.received []

/-- A user of the account `1` reads with the tenant header of the account `2`. -/
theorem foreign_tenant_sent :
  ¬ ∀ req out,
    serveUser plainService accountUser (labelsRequest (str "2")) = .ok req →
    createBackendRequest oneHost req (str "http://vm:8481") = .ok out →
    ∀ tenant ∈ sentTenants out, canAccessTenant accountUser tenant
  := by
  intro h
  have haccess := h _ _ rfl rfl (str "2") (by decide +kernel)
  revert haccess
  decide

/-- With the header of their own account, the request is sent with authorised headers. -/
theorem own_tenant_sent :
  ∃ req out,
    serveUser plainService accountUser (labelsRequest (str "1")) = .ok req ∧
    createBackendRequest oneHost (withBody req (Body.received [])) (str "http://vm:8481")
      = .ok out ∧
    ∀ tenant ∈ sentTenants out, canAccessTenant accountUser tenant
  := ⟨_, _, rfl, rfl, (tenantHeaders_authorised_iff plainService oneHost accountUser
      (labelsRequest (str "1")) _ rfl (str "http://vm:8481") (Body.received []) _ rfl).mpr
      (by decide +kernel)⟩

end Gateway

end VmProxyAuth
