import VmProxyAuth.Domain

/-!
# Verification of tokens

The JWT library reads a token and checks its signature under a key; the verifier chooses
the key by the configured algorithm and checks the times claimed.
-/

namespace VmProxyAuth

namespace Auth

/-! ### Configuration -/

/-- Which claims are validated, and against what. -/
structure ValidationConfig where
  audience : Bool
  issuer : Bool
  requiredIssuer : GoString
  requiredAudience : List GoString
  deriving DecidableEq, Repr

/-- How long users and keys are cached. -/
structure CacheConfig where
  tokenTTL : ℤ
  jwksTTL : ℤ
  deriving DecidableEq, Repr

/-- The JWT configuration. -/
structure JWTConfig where
  algorithm : GoString
  jwksURL : GoString
  secret : GoString
  validation : ValidationConfig
  cache : CacheConfig
  deriving DecidableEq, Repr

/-- `JWTConfig.Validate`. -/
def JWTConfig.validate (j : JWTConfig) : Except GoError Unit :=
  if j.jwksURL = [] ∧ j.secret = [] then
    .error (.errorf "either jwksUrl or secret is required for JWT authentication" [])
  else if j.algorithm ≠ str "RS256" ∧ j.algorithm ≠ str "HS256" then
    .error (.errorf "unsupported JWT algorithm: %s (supported: RS256, HS256)"
      [.string j.algorithm])
  else if j.algorithm = str "RS256" ∧ j.jwksURL = [] then
    .error (.errorf "RS256 algorithm requires jwksUrl" [])
  else if j.algorithm = str "HS256" ∧ j.secret = [] then
    .error (.errorf "HS256 algorithm requires secret" [])
  else if j.validation.issuer ∧ j.validation.requiredIssuer = [] then
    .error (.errorf "requiredIssuer must be specified when issuer validation is enabled" [])
  else if j.validation.audience ∧ j.validation.requiredAudience = [] then
    .error (.errorf "requiredAudience must be specified when audience validation is enabled" [])
  else if j.cache.tokenTTL ≤ 0 then
    .error (.errorf "token TTL must be positive, got %v" [.duration j.cache.tokenTTL])
  else if j.cache.jwksTTL ≤ 0 then
    .error (.errorf "JWKS TTL must be positive, got %v" [.duration j.cache.jwksTTL])
  else .ok ()

/-! ### Tokens -/

/-- The claims of a token; numbers that are absent are zero. -/
structure Claims where
  email : GoString
  groups : List GoString
  userID : GoString
  expiresAt : ℤ
  issuedAt : ℤ
  notBefore : ℤ
  issuer : GoString
  audience : GoString
  deriving DecidableEq, Repr

/-- A token as read: the algorithm and the key identifier of its header, and its claims. -/
structure Token where
  alg : GoString
  kid : Option GoString
  claims : Claims
  deriving DecidableEq, Repr

/-- A key that signatures are checked with. -/
inductive Key where
  | rsa (key : GoString)
  | hmac (secret : GoString)
  deriving DecidableEq, Repr

/-- The JWT library: how it reads a token, and whether the signature of a token is valid
under a key. -/
structure JwtLibrary where
  parseUnverified : GoString → Option Token
  verify : GoString → Key → Bool

/-- What the key set gives for a key identifier. -/
abbrev KeySet : Type := GoString → Except GoError Key

/-- The algorithms whose method is `SigningMethodRSA`. -/
def isRSA (alg : GoString) : Bool := decide (alg ∈ [str "RS256", str "RS384", str "RS512"])

/-- The algorithms whose method is `SigningMethodHMAC`. -/
def isHMAC (alg : GoString) : Bool := decide (alg ∈ [str "HS256", str "HS384", str "HS512"])

/-- `JWTVerifier`: the secret, the algorithm, and whether keys are taken from a key set.  No
verifier is made with a static public key. -/
structure JWTVerifier where
  secret : GoString
  algorithm : GoString
  hasJWKS : Bool
  deriving DecidableEq, Repr

/-- The verifier `NewService` makes for a configuration. -/
def JWTConfig.verifier (cfg : JWTConfig) : Except GoError JWTVerifier :=
  if cfg.secret ≠ [] then .ok ⟨cfg.secret, cfg.algorithm, false⟩
  else if cfg.jwksURL ≠ [] then .ok ⟨[], cfg.algorithm, true⟩
  else .error
    (.errorf "jWT authentication requires either jwt_secret or jwks_url to be configured" [])

namespace JWTVerifier

/-- `getKeyFromJWKS`. -/
def getKeyFromJWKS (v : JWTVerifier) (keys : KeySet) (token : Token) : Except GoError Key :=
  if !v.hasJWKS then .error (.app AppError.noPublicKeyConfigured)
  else
    match token.kid with
    | none => .error (.app AppError.tokenMissingKid)
    | some kid =>
      match keys kid with
      | .error err => .error (.wrapf "failed to get public key from JWKS: %w" [] err)
      | .ok key => .ok key

/-- `keyFunc`. -/
def keyFunc (v : JWTVerifier) (keys : KeySet) (token : Token) : Except GoError Key :=
  if v.algorithm = str "RS256" then
    if isRSA token.alg then v.getKeyFromJWKS keys token
    else .error (.wrapf "%w: %v" [.string token.alg] (.app AppError.unexpectedSigningMethod))
  else if v.algorithm = str "HS256" then
    if isHMAC token.alg then .ok (.hmac v.secret)
    else .error (.wrapf "%w: %v" [.string token.alg] (.app AppError.unexpectedSigningMethod))
  else .error (.wrapf "%w: %s" [.string v.algorithm] (.app AppError.unsupportedSigningMethod))

/-- `validateClaims` at the time `now`. -/
def validateClaims (now : ℤ) (claims : Claims) : Except GoError Unit :=
  let now := Clock.unix now
  if claims.expiresAt = 0 then .error (.app AppError.invalidTokenClaims)
  else if claims.issuedAt = 0 then .error (.app AppError.invalidTokenClaims)
  else if claims.expiresAt < now then .error (.app AppError.tokenExpiredClaims)
  else if 0 < claims.notBefore ∧ now < claims.notBefore then .error (.app AppError.tokenNotValid)
  else if now < claims.issuedAt then .error (.app AppError.tokenNotValid)
  else .ok ()

/-- `VerifyToken` at the time `now`. -/
def verifyToken (v : JWTVerifier) (lib : JwtLibrary) (keys : KeySet) (now : ℤ)
    (tokenString : GoString) : Except GoError Claims :=
  match lib.parseUnverified tokenString with
  | none => .error (.wrapf "failed to parse token: %w" [] (.library "jwt"))
  | some token =>
    match v.keyFunc keys token with
    | .error err => .error (.wrapf "failed to parse token: %w" [] err)
    | .ok key =>
      if !lib.verify tokenString key then
        .error (.wrapf "failed to parse token: %w" [] (.library "jwt"))
      else
        match validateClaims now token.claims with
        | .error err => .error err
        | .ok () => .ok token.claims

/-- Claims that are valid have not expired. -/
theorem unix_le_expiresAt_of_validateClaims {now : ℤ} {claims : Claims}
    (h : validateClaims now claims = .ok ()) :
  Clock.unix now ≤ claims.expiresAt
  := by
  rw [validateClaims] at h
  split at h
  · cases h
  · split at h
    · cases h
    · split at h
      · cases h
      · rename_i hexpired
        omega

/-- A token is verified if the library reads it, its signature is valid under the key chosen
for it, and its claims are valid. -/
theorem verifyToken_eq_ok_iff {v : JWTVerifier} {lib : JwtLibrary} {keys : KeySet} {now : ℤ}
    {tokenString : GoString} {claims : Claims} :
  v.verifyToken lib keys now tokenString = .ok claims ↔
    ∃ token key, lib.parseUnverified tokenString = some token ∧ v.keyFunc keys token = .ok key ∧
      lib.verify tokenString key = true ∧ validateClaims now token.claims = .ok () ∧
      token.claims = claims
  := by
  constructor
  · intro h
    rw [verifyToken] at h
    split at h
    · cases h
    · rename_i token htoken
      split at h
      · cases h
      · rename_i key hkey
        split at h
        · cases h
        · rename_i hverify
          split at h
          · cases h
          · rename_i hvalid
            use token, key, htoken, hkey, by simpa using hverify, hvalid, Except.ok.inj h
  · rintro ⟨token, key, htoken, hkey, hverify, hvalid, rfl⟩
    simp only [verifyToken, htoken, hkey, hverify, hvalid, Bool.not_true, Bool.false_eq_true,
      if_false]

/-- A token that is verified is one the library reads, with claims that are valid. -/
theorem verifyToken_eq_ok {v : JWTVerifier} {lib : JwtLibrary} {keys : KeySet} {now : ℤ}
    {tokenString : GoString} {claims : Claims}
    (h : v.verifyToken lib keys now tokenString = .ok claims) :
  (lib.parseUnverified tokenString).map Token.claims = some claims ∧
    validateClaims now claims = .ok ()
  := by
  obtain ⟨token, key, htoken, -, -, hvalid, rfl⟩ := verifyToken_eq_ok_iff.mp h
  rw [htoken]
  use rfl, hvalid

end JWTVerifier

end Auth

end VmProxyAuth
