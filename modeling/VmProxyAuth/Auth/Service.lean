import VmProxyAuth.Auth.Verifier
import VmProxyAuth.Lib.Machine

/-!
# The authentication service

`Authenticate` verifies a token, makes the user from its claims and the tenant mappings, and
caches the user under the token for a configured time; while the entry lasts, later calls
with the token are answered from the cache.
-/

namespace VmProxyAuth

namespace Auth

/-! ### Permissions -/

/-- A mapping from groups to tenants and permissions. -/
structure MappingConfig where
  groups : List GoString
  vmTenants : List VMTenant
  permissions : List GoString
  deriving DecidableEq, Repr

/-- `hasGroupMatch`. -/
def hasGroupMatch (userGroups requiredGroups : List GoString) : Bool :=
  userGroups.any (fun group => decide (group ∈ requiredGroups))

/-- `removeDuplicateVMTenants`: tenants are the same if their identifiers are. -/
def removeDuplicateVMTenants (tenants : List VMTenant) : List VMTenant :=
  tenants.foldl
    (fun result t => if t.string ∈ result.map VMTenant.string then result else result ++ [t]) []

/-- `determineUserPermissions`: the tenants and whether the user is read-only.  The list of
allowed tenants is always empty. -/
def determineUserPermissions (tenantMaps : List MappingConfig) (userGroups : List GoString) :
    List GoString × List VMTenant × Bool :=
  let matching := tenantMaps.filter (fun mapping => hasGroupMatch userGroups mapping.groups)
  ([], removeDuplicateVMTenants (matching.flatMap MappingConfig.vmTenants),
    matching.any (fun mapping => !decide (str "write" ∈ mapping.permissions)))

/-! ### Authentication -/

/-- The service: a valid configuration, the verifier made for it, the tenant mappings and the
JWT library. -/
structure Service where
  config : JWTConfig
  verifier : JWTVerifier
  tenantMaps : List MappingConfig
  lib : JwtLibrary
  config_valid : config.validate = .ok ()
  verifier_eq : config.verifier = .ok verifier

/-- A cached user, with the time the entry expires. -/
structure CachedUser where
  user : User
  expiresAt : ℤ
  deriving DecidableEq, Repr

/-- The users by their tokens. -/
abbrev UserCache : Type := GoMap GoString CachedUser

namespace Service

/-- The user with the claims. -/
def userOf (A : Service) (claims : Claims) : User :=
  let permissions := determineUserPermissions A.tenantMaps claims.groups
  { id := claims.userID
    email := claims.email
    groups := claims.groups
    allowedTenants := permissions.1
    vmTenants := permissions.2.1
    readOnly := permissions.2.2
    expiresAt := claims.expiresAt * Clock.second }

/-- The user cached under a token, if the entry has not expired. -/
def cachedUser (cache : UserCache) (now : ℤ) (token : GoString) : Option User :=
  (cache.lookup token).bind (fun cached =>
    if now < cached.expiresAt then some cached.user else none)

/-- `Authenticate` with a token without `Bearer`, when the cache has no user for it: the
entry under the token has been removed. -/
def authenticateUncached (A : Service) (keys : KeySet) (now : ℤ) (cache : UserCache)
    (token : GoString) : Except GoError User × UserCache :=
  match A.verifier.verifyToken A.lib keys now token with
  | .error _ => (.error (.app ⟨"invalid_token", str "Invalid or expired token", 401⟩), cache)
  | .ok claims =>
    if claims.userID = [] then
      (.error (.app ⟨"invalid_claims", str "Missing required user ID claim", 401⟩), cache)
    else
      let user := A.userOf claims
      (.ok user, cache.insert token ⟨user, now + A.config.cache.tokenTTL⟩)

/-- `Authenticate` at the time `now`, with the cache as it leaves it. -/
def authenticate (A : Service) (keys : KeySet) (now : ℤ) (cache : UserCache)
    (token : GoString) : Except GoError User × UserCache :=
  if token = [] then
    (.error (.app ⟨"missing_token", str "Authorization token is required", 401⟩), cache)
  else
    let token := GoString.trimPrefix token (str "Bearer ")
    match cachedUser cache now token with
    | some user => (.ok user, cache)
    | none => A.authenticateUncached keys now (cache.erase token) token

/-- `CleanupCache` at the time `now`. -/
def cleanupCache (now : ℤ) (cache : UserCache) : UserCache :=
  cache.mapFilter (fun _ cached => if cached.expiresAt < now then none else some cached)

end Service

/-! ### The machine -/

/-- A call of `Authenticate` that has returned a user: its token and its time. -/
structure Success where
  token : GoString
  time : ℤ
  user : User
  deriving DecidableEq, Repr

/-- The clock, the cache, and the calls that have returned a user. -/
structure State where
  now : ℤ
  cache : UserCache
  successes : List Success

/-- What can happen: a call of `Authenticate`, with what the key set gives then, a call of
`CleanupCache`, or time passes. -/
inductive Action where
  | authenticate (token : GoString) (keys : KeySet)
  | cleanupCache
  | tick (d : ℕ)

/-- The state with an empty cache. -/
def State.init (now : ℤ) : State := ⟨now, ∅, []⟩

/-- The calls that have returned a user after a call of `Authenticate`. -/
def recordResult (s : State) (token : GoString) : Except GoError User → List Success
  | .ok user => s.successes ++ [⟨token, s.now, user⟩]
  | .error _ => s.successes

/-- One step of the service. -/
def step (A : Service) (s : State) : Action → Option State
  | .authenticate token keys =>
    let result := A.authenticate keys s.now s.cache token
    some ⟨s.now, result.2, recordResult s token result.1⟩
  | .cleanupCache => some { s with cache := Service.cleanupCache s.now s.cache }
  | .tick d => some { s with now := s.now + d }

/-- The machine of the service. -/
def machine (A : Service) : Machine State Action := ⟨step A⟩

/-! ### What a call of `Authenticate` does -/

/-- How a call of `Authenticate` ends: it fails and caches nothing; it answers with a cached
user; or it verifies the token and caches the user. -/
theorem authenticate_cases (A : Service) (keys : KeySet) (now : ℤ) (cache : UserCache)
    (token : GoString) :
  (∃ err cache', A.authenticate keys now cache token = (.error err, cache') ∧
      ∀ k cached, cache'.lookup k = some cached → cache.lookup k = some cached) ∨
    (∃ cached, cache.lookup (GoString.trimPrefix token (str "Bearer ")) = some cached ∧
      now < cached.expiresAt ∧ A.authenticate keys now cache token = (.ok cached.user, cache)) ∨
    ∃ claims, token ≠ [] ∧
      Service.cachedUser cache now (GoString.trimPrefix token (str "Bearer ")) = none ∧
      A.verifier.verifyToken A.lib keys now (GoString.trimPrefix token (str "Bearer "))
        = .ok claims ∧
      claims.userID ≠ [] ∧
      A.authenticate keys now cache token
        = (.ok (A.userOf claims),
          (cache.erase (GoString.trimPrefix token (str "Bearer "))).insert
            (GoString.trimPrefix token (str "Bearer "))
            ⟨A.userOf claims, now + A.config.cache.tokenTTL⟩)
  := by
  have herased : ∀ k cached,
      (cache.erase (GoString.trimPrefix token (str "Bearer "))).lookup k = some cached →
      cache.lookup k = some cached := by
    intro k cached hk
    rw [GoMap.lookup_erase_eq_ite] at hk
    split at hk
    · cases hk
    · apply hk
  rw [Service.authenticate]
  split
  · exact Or.inl ⟨_, _, rfl, fun _ _ h => h⟩
  · rename_i htoken
    dsimp only
    cases hcached : Service.cachedUser cache now (GoString.trimPrefix token (str "Bearer ")) with
    | some user =>
      right
      left
      obtain ⟨cached, hlookup, hfresh⟩ := Option.bind_eq_some_iff.mp hcached
      split at hfresh
      · rename_i hnow
        cases hfresh
        use cached, hlookup, hnow
      · cases hfresh
    | none =>
      dsimp only
      rw [Service.authenticateUncached]
      cases hverify : A.verifier.verifyToken A.lib keys now
          (GoString.trimPrefix token (str "Bearer ")) with
      | error err => exact Or.inl ⟨_, _, rfl, herased⟩
      | ok claims =>
        dsimp only
        split
        · exact Or.inl ⟨_, _, rfl, herased⟩
        · rename_i huser
          right
          right
          use claims, htoken, rfl, rfl, huser

end Auth

end VmProxyAuth
