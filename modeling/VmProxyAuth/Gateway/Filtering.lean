import VmProxyAuth.Gateway.Handler

/-!
# Filtering of the queries sent

On a query endpoint the gateway filters one value, the first `query` of the URL or of a
form body, and the proxy puts the filtered text back only in the URL, and only if the URL
had a first `query` itself.  Every other value of `query` and `match[]` is sent as the
client wrote it.  The queries sent are all filtered exactly when the values left in place
already are filtered texts (`sent_filtered_iff`).
-/

namespace VmProxyAuth

namespace Gateway

open Http Proxy

/-- The parameters that hold queries. -/
def queryParameters : List GoString := [str "query", str "match[]"]

/-- The values of the query parameters a request carries, in its URL and in its form. -/
def sentQueries (r : Request) : List GoString :=
  queryParameters.flatMap (fun k => r.url.query.values k ++ r.formValues k)

/-- A text the tenant service answers some query of the user with. -/
def IsFiltered (S : Tenant.Service) (user : User) (text : GoString) : Prop :=
  ∃ query, S.filterQuery user query = .ok text

/-- Whether the values of `query` in the URL are replaced: the first one is not empty and is
filtered to a text that is not empty. -/
def substituted (S : Tenant.Service) (user : User) (r : Request) : Bool :=
  decide (r.url.query.get (str "query") ≠ []) &&
    match S.filterQuery user (r.url.query.get (str "query")) with
    | .ok filteredQuery => decide (filteredQuery ≠ [])
    | .error _ => false

/-- The values of a parameter in the URL that are sent as the client wrote them: if `query`
is replaced, those of the other parameters, and otherwise those before the first `#`. -/
def urlLeft (S : Tenant.Service) (user : User) (r : Request) (k : GoString) : List GoString :=
  if substituted S user r then if k = str "query" then [] else r.url.query.values k
  else (Url.parseQuery (GoString.before 35 r.url.rawQuery)).1.values k

/-- The values of a parameter in the form, which are always sent as the client wrote them;
`body` is the body as it stands when the attempt is made. -/
def formLeft (r : Request) (body : Body) (k : GoString) : List GoString :=
  if isForm r.method (Header.addAll ∅ r.header) then (Url.parseQuery body.content).1.values k
  else []

/-- The values of the query parameters that are sent as the client wrote them. -/
def leftInPlace (S : Tenant.Service) (user : User) (r : Request) (body : Body) : List GoString :=
  queryParameters.flatMap (fun k => urlLeft S user r k ++ formLeft r body k)

section

variable {S : Tenant.Service} {urlParse : GoString → Except GoError URL} {user : User}
  {r : Request} {req : ProxyRequest} {backendURL : GoString} {body : Body} {out : Request}

/-- The form values sent are the client's. -/
theorem formValues_sent (hreq : serveUser S user r = .ok req)
    (hout : createBackendRequest urlParse (withBody req body) backendURL = .ok out)
    (k : GoString) :
  out.formValues k = formLeft r body k
  := by
  obtain ⟨received, hrequest, -, -⟩ := serveUser_eq_ok hreq
  obtain ⟨-, -, -, -, hbody⟩ := createBackendRequest_eq_ok hout
  rw [Request.formValues, isForm_createBackendRequest hout, hbody, withBody, hrequest, formLeft]

/-- Whether the proxy replaces the `query` of the URL. -/
theorem substituted_iff (hpath : isQueryEndpoint r.url.path) (hreq : serveUser S user r = .ok req) :
  substituted S user r ↔ req.filteredQuery ≠ [] ∧ r.url.query.get (str "query") ≠ []
  := by
  obtain ⟨-, -, hfilter, -⟩ := serveUser_eq_ok hreq
  by_cases hquery : r.url.query.get (str "query") = []
  · simp [substituted, hquery]
  · have hfiltered := processQueryFiltering_of_url hfilter hpath hquery
    simp [substituted, hquery, hfiltered]

/-- The values sent in the URL are the filtered text, if the `query` is replaced, and those
left in place. -/
theorem query_values_sent (hpath : isQueryEndpoint r.url.path)
    (hreq : serveUser S user r = .ok req)
    (hout : createBackendRequest urlParse (withBody req body) backendURL = .ok out)
    (k : GoString) :
  out.url.query.values k
    = if substituted S user r ∧ k = str "query" then [req.filteredQuery] else urlLeft S user r k
  := by
  obtain ⟨received, hrequest, -, -⟩ := serveUser_eq_ok hreq
  obtain ⟨-, -, hraw, -, -⟩ := createBackendRequest_eq_ok hout
  have hurl : (withBody req body).originalRequest.url = r.url := by
    rw [withBody, hrequest]
  have hsub := substituted_iff hpath hreq
  rw [URL.query, hraw, urlLeft]
  by_cases h : substituted S user r
  · obtain ⟨hfiltered, hquery⟩ := hsub.mp h
    have hsent : (withBody req body).filteredQuery ≠ [] := hfiltered
    rw [← hurl] at hquery
    rw [values_targetRawQuery_of_substituted hsent hquery, hurl, if_pos h]
    by_cases hk : k = str "query"
    · rw [if_pos hk, if_pos ⟨h, hk⟩]
      rfl
    · rw [if_neg hk, if_neg (fun hand => hk hand.2), if_neg hk]
  · have hnot : ¬ ((withBody req body).filteredQuery ≠ [] ∧
        (withBody req body).originalRequest.url.query.get (str "query") ≠ []) := by
      rw [hurl]
      intro hboth
      apply h (hsub.mpr hboth)
    rw [targetRawQuery_of_not_substituted hnot, hurl, if_neg h, if_neg (fun hand => h hand.1)]

/-- The filtered text of a replaced `query` is a filtered text. -/
theorem isFiltered_filteredQuery (hpath : isQueryEndpoint r.url.path)
    (hreq : serveUser S user r = .ok req) (h : substituted S user r) :
  IsFiltered S user req.filteredQuery
  := by
  obtain ⟨-, -, hfilter, -⟩ := serveUser_eq_ok hreq
  obtain ⟨-, hquery⟩ := (substituted_iff hpath hreq).mp h
  use r.url.query.get (str "query")
  apply processQueryFiltering_of_url hfilter hpath hquery

end

/-- On a query endpoint every query sent is a filtered text exactly when the values the
client's request leaves in place are. -/
theorem sent_filtered_iff
    (S : Tenant.Service) (urlParse : GoString → Except GoError URL) (user : User) (r : Request)
    (hpath : isQueryEndpoint r.url.path) (req : ProxyRequest)
    (hreq : serveUser S user r = .ok req) (backendURL : GoString) (body : Body) (out : Request)
    (hout : createBackendRequest urlParse (withBody req body) backendURL = .ok out) :
  (∀ text ∈ sentQueries out, IsFiltered S user text) ↔
    ∀ text ∈ leftInPlace S user r body, IsFiltered S user text
  := by
  simp only [sentQueries, leftInPlace, List.mem_flatMap, List.mem_append,
    formValues_sent hreq hout, query_values_sent hpath hreq hout]
  constructor
  · rintro h text ⟨k, hk, hurl | hform⟩
    · apply h
      use k, hk
      left
      by_cases hsub : substituted S user r ∧ k = str "query"
      · rw [urlLeft, if_pos hsub.1, if_pos hsub.2] at hurl
        cases hurl
      · rw [if_neg hsub]
        apply hurl
    · apply h
      use k, hk
      exact Or.inr hform
  · rintro h text ⟨k, hk, hurl | hform⟩
    · split at hurl
      · rename_i hsub
        obtain rfl := List.mem_singleton.mp hurl
        apply isFiltered_filteredQuery hpath hreq hsub.1
      · apply h
        use k, hk
        exact Or.inl hurl
    · apply h
      use k, hk
      exact Or.inr hform

/-! ### A series request -/

/-- The query `up`. -/
def upSelector : PromQL.VectorSelector where
  name := str "up"
  labelMatchers := [⟨.equal, str "__name__", str "up"⟩]
  modifier := ⟨0, none, none⟩

/-- The query `up` for the tenant `1:a`. -/
def upFiltered : GoString := str "up\x7bvm_account_id=\"1\",vm_project_id=\"a\"\x7d"

/-- A tenant service whose parser reads the query `up` and prints it for the tenant `1:a`. -/
def upService : Tenant.Service where
  parser :=
    { parseExpr := fun query =>
        if query = str "up" then .ok (.vectorSelector upSelector)
        else .error (.library "parse error")
      exprString := fun _ => upFiltered }
  config := ⟨str "orConditions", str "vm_account_id", str "vm_project_id", true⟩

/-- A user of the tenant `1:a`. -/
def tenantUser : User where
  id := str "alice"
  email := []
  groups := []
  allowedTenants := []
  vmTenants := [⟨str "1", str "a"⟩]
  readOnly := false
  expiresAt := 0

/-- A GET request without headers. -/
def getRequest (path rawQuery : GoString) : Request :=
  ⟨str "GET", ⟨[], [], path, rawQuery⟩, ∅, Body.received []⟩

/-- A request for the series of `up` is sent with the query `up`, which no query of the user
is filtered to. -/
theorem series_sent_unfiltered :
  ¬ ∀ req out,
    serveUser upService tenantUser (getRequest (str "/api/v1/series") (str "match[]=up"))
      = .ok req →
    createBackendRequest oneHost req (str "http://vm:8481") = .ok out →
    ∀ text ∈ sentQueries out, IsFiltered upService tenantUser text
  := by
  intro h
  obtain ⟨query, hquery⟩ := h _ _ rfl rfl (str "up") (by decide +kernel)
  rw [Tenant.Service.filterQuery, if_neg (by decide), if_neg (by decide)] at hquery
  split at hquery
  · cases hquery
  · rename_i text htext
    cases hquery
    rw [Tenant.buildSecureQuery] at htext
    cases hexpr : Tenant.buildSecureExpr upService.parser query tenantUser.vmTenants
        upService.config with
    | error err =>
      rw [hexpr] at htext
      cases htext
    | ok expr =>
      rw [hexpr] at htext
      have hup : upFiltered = str "up" := Except.ok.inj htext
      exact absurd hup (by decide +kernel)

/-- A request for the series of the filtered text of `up`. -/
def filteredSeries : Request :=
  getRequest (str "/api/v1/series")
    (str "match[]=up%7Bvm_account_id%3D%221%22%2Cvm_project_id%3D%22a%22%7D")

/-- A request for the series of the filtered text of `up` leaves only this text in place, and
is sent filtered. -/
theorem filtered_series_sent :
  ∃ req out,
    serveUser upService tenantUser filteredSeries = .ok req ∧
    createBackendRequest oneHost (withBody req (Body.received [])) (str "http://vm:8481")
      = .ok out ∧
    ∀ text ∈ sentQueries out, IsFiltered upService tenantUser text
  := by
  refine ⟨_, _, rfl, rfl, (sent_filtered_iff upService oneHost tenantUser filteredSeries
    (by decide +kernel) _ rfl (str "http://vm:8481") (Body.received []) _ rfl).mpr ?_⟩
  intro text htext
  have hleft : leftInPlace upService tenantUser filteredSeries (Body.received [])
      = [upFiltered] := by
    decide +kernel
  rw [hleft, List.mem_singleton] at htext
  use str "up"
  rw [htext]
  rfl

end Gateway

end VmProxyAuth
