import VmProxyAuth.Access
import VmProxyAuth.Proxy.Target
import VmProxyAuth.Tenant.Service

/-!
# The gateway handler

The handler takes the token from a request, has the user authenticated, checks their
access, filters the query of a query endpoint and determines the tenant of a write
endpoint.  The outcome is the error it answers with, or the proxy request it forwards.
-/

namespace VmProxyAuth

namespace Gateway

open Http

/-- `extractToken`: empty if there is no bearer token. -/
def extractToken (r : Request) : GoString :=
  let auth := r.header.get (str "Authorization")
  if GoString.hasPrefix auth (str "Bearer ") then auth.drop (str "Bearer ").length else []

/-- `extractQuery`, with the request as it leaves it: a form body is read, and restored
unless reading it fails. -/
def extractQuery (r : Request) : GoString × Request :=
  let query := r.url.query.get (str "query")
  if query ≠ [] then (query, r)
  else if isForm r.method r.header then
    match r.body.readAll with
    | none => ([], { r with body := r.body.advance r.body.rest.length })
    | some bodyBytes =>
      let r := { r with body := Body.buffer bodyBytes }
      match Url.parseQuery bodyBytes with
      | (_, true) => ([], r)
      | (bodyValues, false) => (bodyValues.get (str "query"), r)
  else ([], r)

/-- The paths of the query endpoints. -/
def queryEndpoints : List GoString :=
  [str "/api/v1/query", str "/api/v1/query_range", str "/api/v1/query_exemplars",
    str "/api/v1/series"]

/-- `isQueryEndpoint`. -/
def isQueryEndpoint (path : GoString) : Bool :=
  Access.startsWithAny queryEndpoints path ||
    GoString.contains path (str "/prometheus/api/v1/query")

/-- The paths of the write endpoints. -/
def writeEndpoints : List GoString := [str "/api/v1/write", str "/api/v1/import", str "/insert/"]

/-- `isWriteEndpoint`. -/
def isWriteEndpoint (path method : GoString) : Bool :=
  decide (method ∈ [str "POST", str "PUT", str "DELETE"]) &&
    Access.startsWithAny writeEndpoints path

/-- `processQueryFiltering`, with the request as it leaves it. -/
def processQueryFiltering (S : Tenant.Service) (user : User) (r : Request) :
    Except GoError (GoString × Request) :=
  if !isQueryEndpoint r.url.path then .ok ([], r)
  else
    let (originalQuery, r) := extractQuery r
    if originalQuery = [] then .ok ([], r)
    else
      match S.filterQuery user originalQuery with
      | .error err => .error err
      | .ok filteredQuery => .ok (filteredQuery, r)

/-- `processTargetTenant`. -/
def processTargetTenant (user : User) (r : Request) : Except GoError GoString :=
  if !isWriteEndpoint r.url.path r.method then .ok []
  else Tenant.determineTargetTenant user r

/-- `processRequest` up to the call of the proxy service. -/
def processRequest (S : Tenant.Service) (user : User) (r : Request) :
    Except GoError ProxyRequest :=
  match processQueryFiltering S user r with
  | .error err => .error err
  | .ok (filteredQuery, r) =>
    match processTargetTenant user r with
    | .error err => .error err
    | .ok targetTenant => .ok ⟨user, r, filteredQuery, targetTenant⟩

/-- The error an error is answered with: the application error it is or wraps, or a default
for other errors. -/
def answerWith (default : AppError) (err : GoError) : AppError := err.asApp.getD default

/-- `ServeHTTP` for an authenticated user, up to the call of the proxy service: the error
answered, or the request forwarded. -/
def serveUser (S : Tenant.Service) (user : User) (r : Request) : Except AppError ProxyRequest :=
  match Access.canAccess (some user) r.url.path r.method with
  | .error err => .error (answerWith AppError.forbidden err)
  | .ok () => (processRequest S user r).mapError (answerWith AppError.forbidden)

/-- `ServeHTTP` up to the call of the proxy service, with the authentication service as
`authenticate`. -/
def serveHTTP (S : Tenant.Service) (authenticate : GoString → Except GoError User)
    (r : Request) : Except AppError ProxyRequest :=
  let token := extractToken r
  if token = [] then .error AppError.unauthorized
  else
    match authenticate token with
    | .error err => .error (answerWith AppError.unauthorized err)
    | .ok user => serveUser S user r

/-! ### What is forwarded -/

/-- Extracting the query of a request changes nothing but its body. -/
theorem extractQuery_request (r : Request) :
  ∃ body, (extractQuery r).2 = { r with body := body }
  := by
  rw [extractQuery]
  dsimp only
  split
  · use r.body
  · split
    · split
      · use r.body.advance r.body.rest.length
      · rename_i bodyBytes _
        use Body.buffer bodyBytes
        split
        · rfl
        · rfl
    · use r.body

/-- A query in the URL is the one extracted. -/
theorem extractQuery_of_url {r : Request} (h : r.url.query.get (str "query") ≠ []) :
  extractQuery r = (r.url.query.get (str "query"), r)
  := by
  rw [extractQuery, if_pos h]

/-- Filtering the query of a request changes nothing but its body. -/
theorem processQueryFiltering_request {S : Tenant.Service} {user : User} {r r' : Request}
    {filteredQuery : GoString} (h : processQueryFiltering S user r = .ok (filteredQuery, r')) :
  ∃ body, r' = { r with body := body }
  := by
  rw [processQueryFiltering] at h
  split at h
  · cases h
    use r.body
  · obtain ⟨body, hbody⟩ := extractQuery_request r
    use body
    dsimp only at h
    split at h
    · cases h
      apply hbody
    · split at h
      · cases h
      · cases h
        apply hbody

/-- On a query endpoint a query in the URL is filtered. -/
theorem processQueryFiltering_of_url {S : Tenant.Service} {user : User} {r r' : Request}
    {filteredQuery : GoString} (h : processQueryFiltering S user r = .ok (filteredQuery, r'))
    (hpath : isQueryEndpoint r.url.path) (hquery : r.url.query.get (str "query") ≠ []) :
  S.filterQuery user (r.url.query.get (str "query")) = .ok filteredQuery
  := by
  rw [processQueryFiltering, hpath, extractQuery_of_url hquery] at h
  dsimp only at h
  rw [if_neg hquery] at h
  cases hfilter : S.filterQuery user (r.url.query.get (str "query")) with
  | error err =>
    rw [hfilter] at h
    cases h
  | ok filtered =>
    rw [hfilter] at h
    cases h
    rfl

/-- What a forwarded request consists of: the client's request but for its body, and the
outcomes of filtering the query and of determining the tenant. -/
theorem serveUser_eq_ok {S : Tenant.Service} {user : User} {r : Request} {req : ProxyRequest}
    (h : serveUser S user r = .ok req) :
  ∃ body, req.originalRequest = { r with body := body } ∧
    processQueryFiltering S user r = .ok (req.filteredQuery, req.originalRequest) ∧
    processTargetTenant user r = .ok req.targetTenant
  := by
  rw [serveUser] at h
  split at h
  · cases h
  · rw [processRequest] at h
    split at h
    · cases h
    · rename_i filteredQuery r' hfilter
      obtain ⟨body, rfl⟩ := processQueryFiltering_request hfilter
      split at h
      · cases h
      · rename_i targetTenant htenant
        cases h
        use body, rfl, hfilter
        apply htenant

/-! ### A small instance -/

/-- A tenant service that parses no query. -/
def plainService : Tenant.Service where
  parser := ⟨fun _ => .error (.library "parse error"), fun _ => []⟩
  config := ⟨str "orConditions", str "vm_account_id", str "vm_project_id", true⟩

/-- A user of the account `1`. -/
def accountUser : User where
  id := str "bob"
  email := []
  groups := []
  allowedTenants := []
  vmTenants := [⟨str "1", []⟩]
  readOnly := false
  expiresAt := 0

end Gateway

end VmProxyAuth
