import VmProxyAuth.Lib.UrlPath
import VmProxyAuth.Proxy.Target

/-!
# Encodings of paths in backend requests

`buildTargetURL` copies the decoded path of the client's URL and leaves the text it was decoded
from.  What the backend is asked for is then the standard encoding of the path, which is what
the client asked for exactly if the client wrote the standard encoding: an escaped slash in the
value of a label becomes a separator.
-/

namespace VmProxyAuth

namespace Proxy

/-- A URL with the text its path was decoded from, which is empty if this is the standard
encoding of the path. -/
structure FullURL extends Http.URL where
  rawPath : GoString
  deriving DecidableEq, Repr

/-- The path as it is written in a request. -/
def FullURL.escapedPath (u : FullURL) : GoString := Url.escapedPath u.path u.rawPath

/-- `buildTargetURL` on URLs with the texts of their paths: `RawPath` is that of the backend. -/
def buildFullTargetURL (urlParse : GoString → Except GoError FullURL) (req : ProxyRequest)
    (backendURL : GoString) : Except GoError FullURL :=
  match urlParse backendURL with
  | .error err => .error (.wrapf "invalid backend URL %s: %w" [.string backendURL] err)
  | .ok targetURL =>
    .ok { targetURL with
          path := req.originalRequest.url.path
          rawQuery := targetRawQuery req }

/-- Without the texts of the paths it is `buildTargetURL`. -/
theorem toURL_buildFullTargetURL (urlParse : GoString → Except GoError FullURL)
    (req : ProxyRequest) (backendURL : GoString) :
  (buildFullTargetURL urlParse req backendURL).map FullURL.toURL
    = buildTargetURL (fun text => (urlParse text).map FullURL.toURL) req backendURL
  := by
  rw [buildFullTargetURL, buildTargetURL]
  cases urlParse backendURL with
  | error err => rfl
  | ok targetURL => rfl

/-- The filtered query is put in place of the client's. -/
def Substituted (req : ProxyRequest) : Prop :=
  req.filteredQuery ≠ [] ∧ req.originalRequest.url.query.get (str "query") ≠ []

/-- The target asks for what a client asked for with a path decoded from `rawPath`, except for
the query put in its place. -/
structure Transparent (req : ProxyRequest) (rawPath : GoString) (target : FullURL) : Prop where
  /-- The path is written in the same way. -/
  path : target.escapedPath = Url.escapedPath req.originalRequest.url.path rawPath
  /-- Without a substitution the query string is the same. -/
  rawQuery : ¬ Substituted req → target.rawQuery = req.originalRequest.url.rawQuery
  /-- With one the other parameters have the same values in the same order. -/
  parameters : Substituted req → ∀ k, k ≠ str "query" →
    target.query.values k = req.originalRequest.url.query.values k

/-- The target for the backend at a host. -/
theorem buildFullTargetURL_eq {urlParse : GoString → Except GoError FullURL}
    {backendURL scheme host : GoString} (req : ProxyRequest)
    (h : urlParse backendURL = .ok ⟨⟨scheme, host, [], []⟩, []⟩) :
  buildFullTargetURL urlParse req backendURL
    = .ok ⟨⟨scheme, host, req.originalRequest.url.path, targetRawQuery req⟩, []⟩
  := by
  rw [buildFullTargetURL, h]

/-- A target with the client's path and the rewritten query string is transparent if the path is
written in the same way. -/
theorem transparent_iff_path (req : ProxyRequest) (rawPath scheme host : GoString) :
  Transparent req rawPath
      ⟨⟨scheme, host, req.originalRequest.url.path, targetRawQuery req⟩, []⟩ ↔
    Url.escapedPath req.originalRequest.url.path []
      = Url.escapedPath req.originalRequest.url.path rawPath
  := by
  constructor
  · intro htransparent
    apply htransparent.path
  · intro hpath
    refine ⟨hpath, targetRawQuery_of_not_substituted, ?_⟩
    intro hsubstituted k hk
    have hvalues := values_targetRawQuery_of_substituted hsubstituted.1 hsubstituted.2 k
    rw [if_neg hk, GoString.before_eq_self] at hvalues
    · apply hvalues
    · rw [targetRawQuery, if_pos ⟨hsubstituted.1, hsubstituted.2⟩]
      apply Url.notMem_encode

/-- A request to the backend at a host is transparent exactly if the client wrote its path in the
standard encoding, or not in an encoding of a path, or as `*`. -/
theorem transparent_target_iff {urlParse : GoString → Except GoError FullURL}
    {req : ProxyRequest} {backendURL scheme host text rawPath : GoString}
    (hbackend : urlParse backendURL = .ok ⟨⟨scheme, host, [], []⟩, []⟩)
    (hclient : Url.parsePath text = some (req.originalRequest.url.path, rawPath)) :
  (∃ target, buildFullTargetURL urlParse req backendURL = .ok target ∧
      Transparent req rawPath target) ↔
    Url.standardPath text = true ∨ Url.validEncodedPath text = false ∨ text = str "*"
  := by
  rw [← Url.escapedPath_parsePath_iff hclient, ← transparent_iff_path req rawPath scheme host,
    buildFullTargetURL_eq req hbackend]
  constructor
  · rintro ⟨target, htarget, htransparent⟩
    cases htarget
    apply htransparent
  · intro htransparent
    exact ⟨_, rfl, htransparent⟩

/-- A reading of every backend URL as that of one host. -/
def oneFullHost (_ : GoString) : Except GoError FullURL :=
  .ok ⟨⟨str "http", str "vm:8481", [], []⟩, []⟩

/-- A request for a path with a query whose filtered text is `up`. -/
def pathRequest (path : GoString) : ProxyRequest where
  user := ⟨str "alice", [], [], [], [], false, 0⟩
  originalRequest :=
    ⟨str "GET", ⟨[], [], path, str "query=down&time=1"⟩, ∅, Http.Body.received []⟩
  filteredQuery := str "up"
  targetTenant := []

/-- The values of a label whose name has an escaped space. -/
theorem transparent_space :
  ∃ target, buildFullTargetURL oneFullHost (pathRequest (str "/api/v1/label/a b/values"))
      (str "http://vm:8481") = .ok target ∧
    Transparent (pathRequest (str "/api/v1/label/a b/values")) [] target
  := by
  have hclient : Url.parsePath (str "/api/v1/label/a%20b/values")
      = some ((pathRequest (str "/api/v1/label/a b/values")).originalRequest.url.path, []) := by
    decide +kernel
  apply (transparent_target_iff rfl hclient).mpr
  left
  decide +kernel

/-- The values of the label `a/b` become another resource. -/
theorem escaped_slash_lost :
  Url.parsePath (str "/api/v1/label/a%2Fb/values")
      = some (str "/api/v1/label/a/b/values", str "/api/v1/label/a%2Fb/values") ∧
    Url.escapedPath (str "/api/v1/label/a/b/values") (str "/api/v1/label/a%2Fb/values")
      = str "/api/v1/label/a%2Fb/values" ∧
    (buildFullTargetURL oneFullHost (pathRequest (str "/api/v1/label/a/b/values"))
        (str "http://vm:8481")).map FullURL.escapedPath
      = .ok (str "/api/v1/label/a/b/values")
  := by
  decide +kernel

end Proxy

end VmProxyAuth
