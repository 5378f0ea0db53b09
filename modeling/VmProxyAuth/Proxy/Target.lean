import VmProxyAuth.Domain

/-!
# Building a backend request

The request sent to a backend has the client's method, path and body, the client's query
string with the first `query` parameter replaced by its filtered text, and the client's
headers with the target tenant.
-/

namespace VmProxyAuth

namespace Proxy

/-- The proxy request with its body as it stands when an attempt is made. -/
def withBody (req : ProxyRequest) (body : Http.Body) : ProxyRequest :=
  { req with originalRequest := { req.originalRequest with body := body } }

/-- The query string of the target. -/
def targetRawQuery (req : ProxyRequest) : GoString :=
  if req.filteredQuery ≠ [] ∧ req.originalRequest.url.query.get (str "query") ≠ [] then
    Url.encode (MultiMap.set (Url.parseQuery req.originalRequest.url.rawQuery).1 (str "query")
      req.filteredQuery)
  else req.originalRequest.url.rawQuery

/-- `buildTargetURL`, where `urlParse` is `url.Parse`. -/
def buildTargetURL (urlParse : GoString → Except GoError Http.URL) (req : ProxyRequest)
    (backendURL : GoString) : Except GoError Http.URL :=
  match urlParse backendURL with
  | .error err => .error (.wrapf "invalid backend URL %s: %w" [.string backendURL] err)
  | .ok targetURL =>
    .ok { targetURL with
          path := req.originalRequest.url.path
          rawQuery := targetRawQuery req }

/-- `prepareRequestHeaders`. -/
def prepareRequestHeaders (header : Http.Header) (req : ProxyRequest) : Http.Header :=
  let header := header.addAll req.originalRequest.header
  if req.targetTenant ≠ [] then header.set (str "X-Prometheus-Tenant") req.targetTenant
  else header

/-- `createBackendRequest`. -/
def createBackendRequest (urlParse : GoString → Except GoError Http.URL) (req : ProxyRequest)
    (backendURL : GoString) : Except GoError Http.Request :=
  match buildTargetURL urlParse req backendURL with
  | .error err => .error err
  | .ok targetURL =>
    match Http.newRequest req.originalRequest.method targetURL req.originalRequest.body with
    | none => .error (.wrapf "failed to create backend request: %w" [] (.library "http.NewRequest"))
    | some httpReq => .ok { httpReq with header := prepareRequestHeaders httpReq.header req }

/-- A reading of every backend URL as that of one host. -/
def oneHost (_ : GoString) : Except GoError Http.URL := .ok ⟨str "http", str "vm:8481", [], []⟩

/-- What a backend request consists of. -/
theorem createBackendRequest_eq_ok {urlParse : GoString → Except GoError Http.URL}
    {req : ProxyRequest} {backendURL : GoString} {out : Http.Request}
    (h : createBackendRequest urlParse req backendURL = .ok out) :
  out.method = (if req.originalRequest.method = [] then str "GET"
      else req.originalRequest.method) ∧
    out.url.path = req.originalRequest.url.path ∧
    out.url.rawQuery = GoString.before 35 (targetRawQuery req) ∧
    out.header = prepareRequestHeaders ∅ req ∧
    out.body = req.originalRequest.body
  := by
  rw [createBackendRequest] at h
  split at h
  · cases h
  · rename_i targetURL htarget
    rw [buildTargetURL] at htarget
    split at htarget
    · cases htarget
    · cases htarget
      split at h
      · cases h
      · rename_i httpReq hnew
        cases h
        obtain ⟨hmethod, hurl, hheader, hbody⟩ := Http.newRequest_eq_some hnew
        rw [hurl, hheader]
        use hmethod

/-! ### Headers -/

/-- The headers of a backend request other than the target tenant are the client's. -/
theorem values_prepareRequestHeaders {req : ProxyRequest} {name : GoString}
    (h : name ≠ Http.canonicalHeaderKey (str "X-Prometheus-Tenant")) :
  (prepareRequestHeaders ∅ req).values name = req.originalRequest.header.named name
  := by
  rw [prepareRequestHeaders, ← Http.Header.values_addAll_empty]
  split
  · rw [Http.Header.values_set, if_neg h]
  · rfl

/-- The tenant header of a backend request is the target tenant, or the client's headers
if there is none. -/
theorem values_prepareRequestHeaders_tenant (req : ProxyRequest) :
  (prepareRequestHeaders ∅ req).values (Http.canonicalHeaderKey (str "X-Prometheus-Tenant"))
    = if req.targetTenant ≠ [] then [req.targetTenant]
      else req.originalRequest.header.named
        (Http.canonicalHeaderKey (str "X-Prometheus-Tenant"))
  := by
  rw [prepareRequestHeaders, ← Http.Header.values_addAll_empty]
  split
  · rw [Http.Header.values_set, if_pos rfl]
  · rfl

/-- Whether a backend request carries a form is decided by the client's headers. -/
theorem isForm_createBackendRequest {urlParse : GoString → Except GoError Http.URL}
    {req : ProxyRequest} {backendURL : GoString} {out : Http.Request}
    (h : createBackendRequest urlParse req backendURL = .ok out) :
  Http.isForm out.method out.header
    = Http.isForm req.originalRequest.method
      (Http.Header.addAll ∅ req.originalRequest.header)
  := by
  obtain ⟨hmethod, -, -, hheader, -⟩ := createBackendRequest_eq_ok h
  have hcontent : out.header.get (str "Content-Type")
      = (Http.Header.addAll ∅ req.originalRequest.header).get (str "Content-Type") := by
    rw [hheader, Http.Header.get, Http.Header.get, Http.Header.values_addAll_empty,
      values_prepareRequestHeaders (by decide +kernel)]
  rw [Http.isForm, Http.isForm, hcontent, hmethod]
  split
  · rename_i hempty
    rw [hempty]
    rfl
  · rfl

/-! ### Query parameters -/

/-- A substituted query string has the filtered text as its only `query` parameter and the
client's other parameters. -/
theorem values_targetRawQuery_of_substituted {req : ProxyRequest}
    (hfiltered : req.filteredQuery ≠ [])
    (hquery : req.originalRequest.url.query.get (str "query") ≠ []) (k : GoString) :
  (Url.parseQuery (GoString.before 35 (targetRawQuery req))).1.values k
    = if k = str "query" then [req.filteredQuery] else req.originalRequest.url.query.values k
  := by
  rw [targetRawQuery, if_pos ⟨hfiltered, hquery⟩, GoString.before_eq_self (Url.notMem_encode _),
    Url.values_parseQuery_encode, MultiMap.values_set]
  rfl

/-- Without a substitution the client's query string is sent, up to the first `#`. -/
theorem targetRawQuery_of_not_substituted {req : ProxyRequest}
    (h : ¬ (req.filteredQuery ≠ [] ∧ req.originalRequest.url.query.get (str "query") ≠ [])) :
  targetRawQuery req = req.originalRequest.url.rawQuery
  := by
  rw [targetRawQuery, if_neg h]

end Proxy

end VmProxyAuth
