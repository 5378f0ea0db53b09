import VmProxyAuth.Domain

/-!
# Access control

Which users may use which paths: a read-only user may not write, and only members of the
group `admin` may use the restricted paths.
-/

namespace VmProxyAuth

namespace Access

/-- Whether a path starts with one of the texts. -/
def startsWithAny (starts : List GoString) (path : GoString) : Bool :=
  starts.any (fun start => GoString.hasPrefix path start)

/-- The methods that write. -/
def writeHTTPMethods : List GoString := [str "POST", str "PUT", str "PATCH", str "DELETE"]

/-- The paths that write with any method. -/
def writePaths : List GoString :=
  [str "/api/v1/admin/", str "/api/v1/write", str "/write", str "/receive"]

/-- The paths only administrators may use. -/
def restrictedPaths : List GoString :=
  [str "/api/v1/admin/", str "/metrics", str "/debug/", str "/-/"]

/-- `isWriteOperation`. -/
def isWriteOperation (method path : GoString) : Bool :=
  decide (method ∈ writeHTTPMethods) || startsWithAny writePaths path

/-- `isRestrictedPath`. -/
def isRestrictedPath (path : GoString) : Bool := startsWithAny restrictedPaths path

/-- `isAdmin`. -/
def isAdmin (user : User) : Bool := decide (str "admin" ∈ user.groups)

/-- `CanAccess`. -/
def canAccess (user : Option User) (path method : GoString) : Except GoError Unit :=
  match user with
  | none => .error (.app AppError.unauthorized)
  | some user =>
    if user.readOnly && isWriteOperation method path then .error (.app AppError.readOnlyAccess)
    else if isRestrictedPath path && !isAdmin user then .error (.app AppError.adminRequired)
    else .ok ()

end Access

end VmProxyAuth
