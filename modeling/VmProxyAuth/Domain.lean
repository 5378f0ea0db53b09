import VmProxyAuth.Lib.Clock
import VmProxyAuth.Lib.Http

/-!
# Domain types

The errors, users, tenants and requests the services of the gateway exchange.
-/

namespace VmProxyAuth

/-! ### Errors -/

/-- An application error with the HTTP status it is answered with. -/
structure AppError where
  code : String
  message : GoString
  httpStatus : ℕ
  deriving DecidableEq, Repr

/-- An argument of a format. -/
inductive FmtArg where
  | string (s : GoString)
  | int (n : ℤ)
  | duration (d : ℤ)
  deriving DecidableEq, Repr

/-- An error value: an application error, a formatted text, a text wrapping another
error, or an error made by a library. -/
inductive GoError where
  | app (e : AppError)
  | errorf (format : String) (args : List FmtArg)
  | wrapf (format : String) (args : List FmtArg) (cause : GoError)
  | library (origin : String)
  deriving DecidableEq, Repr

/-- `errors.As(err, &appErr)`: the application error `err` is or wraps. -/
def GoError.asApp : GoError → Option AppError
  | .app e => some e
  | .wrapf _ _ cause => cause.asApp
  | .errorf _ _ => none
  | .library _ => none

namespace AppError

def unauthorized : AppError := ⟨"UNAUTHORIZED", str "Authentication required", 401⟩
def forbidden : AppError := ⟨"FORBIDDEN", str "Access denied", 403⟩

def readOnlyAccess : AppError :=
  ⟨"FORBIDDEN", str "Read-only user cannot perform write operations", 403⟩

def adminRequired : AppError := ⟨"FORBIDDEN", str "Admin access required", 403⟩

def noVMTenants : AppError := ⟨"TENANT_ERROR", str "User has no VM tenants configured", 403⟩

def promQLParsing : AppError :=
  ⟨"PROMQL_ERROR", str "Failed to parse PromQL query for VM tenant filtering", 400⟩

def noVMTenantsForFiltering : AppError :=
  ⟨"TENANT_ERROR", str "No VM tenants available for filtering", 400⟩

def invalidTokenClaims : AppError := ⟨"UNAUTHORIZED", str "Invalid token claims", 401⟩
def tokenExpiredClaims : AppError := ⟨"UNAUTHORIZED", str "Token has expired", 401⟩
def tokenNotValid : AppError := ⟨"UNAUTHORIZED", str "Token used before valid", 401⟩

def unexpectedSigningMethod : AppError :=
  ⟨"UNAUTHORIZED", str "Unexpected JWT signing method", 401⟩

def jwksKeyNotFound : AppError := ⟨"UNAUTHORIZED", str "Key not found in JWKS", 401⟩
def jwksEndpointError : AppError := ⟨"INTERNAL_ERROR", str "JWKS endpoint error", 500⟩

def noPublicKeyConfigured : AppError :=
  ⟨"INTERNAL_ERROR", str "No public key or JWKS URL configured for RS256", 500⟩

def tokenMissingKid : AppError := ⟨"UNAUTHORIZED", str "Token header missing kid claim", 401⟩

def unsupportedSigningMethod : AppError :=
  ⟨"UNAUTHORIZED", str "Unsupported signing method", 401⟩

def noHealthyBackends : AppError :=
  ⟨"UPSTREAM_ERROR", str "No healthy backends available", 503⟩

def queueFull : AppError := ⟨"RATE_LIMITED", str "Request queue is full", 429⟩
def queueEmpty : AppError := ⟨"INTERNAL_ERROR", str "Request queue is empty", 204⟩
def queueTimeout : AppError := ⟨"INTERNAL_ERROR", str "Request timeout in queue", 408⟩
def queueClosed : AppError := ⟨"INTERNAL_ERROR", str "Request queue is closed", 503⟩
def keyNotFound : AppError := ⟨"NOT_FOUND", str "Key not found in storage", 404⟩

end AppError

/-! ### Users and tenants -/

/-- A VictoriaMetrics tenant: an account and an optional project of it. -/
structure VMTenant where
  accountID : GoString
  projectID : GoString
  deriving DecidableEq, Repr

/-- The tenant identifier: the account, followed by the project if there is one. -/
def VMTenant.string (t : VMTenant) : GoString :=
  if t.projectID ≠ [] then t.accountID ++ str ":" ++ t.projectID else t.accountID

/-- An authenticated user with their permissions. -/
structure User where
  id : GoString
  email : GoString
  groups : List GoString
  allowedTenants : List GoString
  vmTenants : List VMTenant
  readOnly : Bool
  expiresAt : ℤ
  deriving DecidableEq, Repr

/-! ### Proxying -/

/-- The state of a backend. -/
inductive BackendState where
  | healthy
  | unhealthy
  | rateLimited
  | maintenance
  deriving DecidableEq, Repr

/-- `IsAvailable`. -/
def BackendState.isAvailable (state : BackendState) : Bool := decide (state = .healthy)

/-- `IsAvailableWithFallback`. -/
def BackendState.isAvailableWithFallback (state : BackendState) : Bool :=
  decide (state = .healthy) || decide (state = .rateLimited)

/-- An upstream server. -/
structure Backend where
  url : GoString
  weight : ℤ
  state : BackendState
  deriving DecidableEq, Repr

/-- A request to be proxied to an upstream. -/
structure ProxyRequest where
  user : User
  originalRequest : Http.Request
  filteredQuery : GoString
  targetTenant : GoString

/-- The response of an upstream. -/
structure ProxyResponse where
  statusCode : ℕ
  headers : Http.Header
  body : GoString

end VmProxyAuth
