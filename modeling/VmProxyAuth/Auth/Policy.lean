import VmProxyAuth.Auth.Service

/-!
# The token policy

A configuration names one algorithm, and may require an issuer and an audience.  The service
accepts a token of any algorithm of the same family, and does not look at the issuer and the
audience (`authenticate_empty_iff`).  So the policy is enforced for a token exactly if the token
is not acceptable for other reasons, or complies in these three points (`enforced_iff`).
-/

namespace VmProxyAuth

namespace Auth

/-! ### Configurations -/

/-- What a valid configuration has. -/
theorem JWTConfig.of_validate {cfg : JWTConfig} (h : cfg.validate = .ok ()) :
  cfg.algorithm = str "RS256" ∧ cfg.jwksURL ≠ [] ∨
    cfg.algorithm = str "HS256" ∧ cfg.secret ≠ []
  := by
  rw [validate] at h
  split at h
  · cases h
  · split at h
    · cases h
    · split at h
      · cases h
      · split at h
        · cases h
        · grind

/-- The algorithms of the configured family. -/
def JWTConfig.sameFamily (cfg : JWTConfig) (alg : GoString) : Bool :=
  if cfg.algorithm = str "RS256" then isRSA alg else isHMAC alg

/-- A configuration gives a key for a token: its secret, or the key of the key set with the
token's identifier if there is no secret. -/
def JWTConfig.HasKey (cfg : JWTConfig) (keys : KeySet) (token : Token) (key : Key) : Prop :=
  if cfg.algorithm = str "RS256" then
    cfg.secret = [] ∧ ∃ kid, token.kid = some kid ∧ keys kid = .ok key
  else key = .hmac cfg.secret

/-- The verifier takes a key of the key set. -/
theorem JWTVerifier.getKeyFromJWKS_eq_ok_iff {v : JWTVerifier} {keys : KeySet} {token : Token}
    {key : Key} :
  v.getKeyFromJWKS keys token = .ok key ↔
    v.hasJWKS = true ∧ ∃ kid, token.kid = some kid ∧ keys kid = .ok key
  := by
  rw [getKeyFromJWKS]
  cases v.hasJWKS with
  | false => simp
  | true =>
    rcases token.kid with _ | kid
    · simp
    · rcases hkey : keys kid with err | found
      · simp [hkey]
      · simp [hkey]

/-- The verifier made for a configuration has its secret, and takes keys from the key set if
the secret is empty. -/
theorem JWTConfig.of_verifier {cfg : JWTConfig} {v : JWTVerifier} (h : cfg.verifier = .ok v) :
  v = ⟨cfg.secret, cfg.algorithm, decide (cfg.secret = [])⟩
  := by
  rw [verifier] at h
  split at h
  · rename_i hsecret
    rw [← Except.ok.inj h, decide_eq_false hsecret]
  · rename_i hsecret
    split at h
    · rw [← Except.ok.inj h, not_not.mp hsecret]
      rfl
    · cases h

/-- The verifier of a valid configuration chooses the key by the family of the algorithm. -/
theorem keyFunc_eq_ok_iff {cfg : JWTConfig} {v : JWTVerifier} (hcfg : cfg.validate = .ok ())
    (hv : cfg.verifier = .ok v) {keys : KeySet} {token : Token} {key : Key} :
  v.keyFunc keys token = .ok key ↔
    cfg.sameFamily token.alg = true ∧ cfg.HasKey keys token key
  := by
  have hne : str "HS256" ≠ str "RS256" := by decide
  obtain rfl := JWTConfig.of_verifier hv
  rw [JWTConfig.sameFamily, JWTConfig.HasKey, JWTVerifier.keyFunc]
  obtain ⟨halg, -⟩ | ⟨halg, -⟩ := JWTConfig.of_validate hcfg
  · rw [if_pos halg, if_pos halg, if_pos halg]
    cases isRSA token.alg with
    | false => simp
    | true => simp [JWTVerifier.getKeyFromJWKS_eq_ok_iff]
  · rw [halg, if_neg hne, if_neg hne, if_neg hne, if_pos rfl]
    cases isHMAC token.alg with
    | false => simp
    | true => simp [eq_comm]

/-! ### What is accepted, and what the policy is -/

section

variable (A : Service) (keys : KeySet) (now : ℤ)

/-- The text `Authenticate` verifies. -/
def tokenText (token : GoString) : GoString := GoString.trimPrefix token (str "Bearer ")

/-- The signature of a token is valid under a key of the configuration. -/
def Signed (token : GoString) (t : Token) : Prop :=
  ∃ key, A.config.HasKey keys t key ∧ A.lib.verify (tokenText token) key = true

/-- The token reads as `t`, of the configured family, is signed, has valid times and a
subject. -/
structure Acceptable (token : GoString) (t : Token) : Prop where
  ne_nil : token ≠ []
  read : A.lib.parseUnverified (tokenText token) = some t
  family : A.config.sameFamily t.alg = true
  signed : Signed A keys token t
  times : JWTVerifier.validateClaims now t.claims = .ok ()
  subject : t.claims.userID ≠ []

/-- The header has the configured algorithm, and the issuer and the audience are as the
configuration requires. -/
structure Complies (cfg : JWTConfig) (t : Token) : Prop where
  algorithm : t.alg = cfg.algorithm
  issuer : cfg.validation.issuer = true → t.claims.issuer = cfg.validation.requiredIssuer
  audience : cfg.validation.audience = true →
    t.claims.audience ∈ cfg.validation.requiredAudience

/-- The policy: the token is signed under the configured algorithm, its times are valid, it
has a subject, and its issuer and audience are as required. -/
structure Policy (token : GoString) (t : Token) : Prop where
  read : A.lib.parseUnverified (tokenText token) = some t
  signed : Signed A keys token t
  times : JWTVerifier.validateClaims now t.claims = .ok ()
  subject : t.claims.userID ≠ []
  complies : Complies A.config t

/-- A token is accepted on an empty cache exactly if it is acceptable. -/
theorem authenticate_empty_iff (token : GoString) :
  (∃ user cache, A.authenticate keys now ∅ token = (.ok user, cache)) ↔
    ∃ t, Acceptable A keys now token t
  := by
  have hverifies : ∀ claims, A.verifier.verifyToken A.lib keys now (tokenText token) = .ok claims ↔
      ∃ t, A.lib.parseUnverified (tokenText token) = some t ∧ A.config.sameFamily t.alg = true ∧
        Signed A keys token t ∧ JWTVerifier.validateClaims now t.claims = .ok () ∧
        t.claims = claims := by
    intro claims
    rw [JWTVerifier.verifyToken_eq_ok_iff]
    simp only [keyFunc_eq_ok_iff A.config_valid A.verifier_eq, Signed]
    constructor
    · rintro ⟨t, key, hread, ⟨hfamily, hkey⟩, hverify, htimes, hclaims⟩
      use t, hread, hfamily, ⟨key, hkey, hverify⟩, htimes, hclaims
    · rintro ⟨t, hread, hfamily, ⟨key, hkey, hverify⟩, htimes, hclaims⟩
      use t, key, hread, ⟨hfamily, hkey⟩, hverify, htimes, hclaims
  constructor
  · rintro ⟨user, cache, h⟩
    obtain ⟨err, cache', herr, -⟩ | ⟨cached, hcached, -⟩ | ⟨claims, hne, -, hverify, hsub, -⟩ :=
      authenticate_cases A keys now ∅ token
    · rw [herr] at h
      cases h
    · cases hcached
    · obtain ⟨t, hread, hfamily, hsigned, htimes, rfl⟩ := (hverifies claims).mp hverify
      use t, hne, hread, hfamily, hsigned, htimes, hsub
  · rintro ⟨t, ht⟩
    have hverify := (hverifies t.claims).mpr
      ⟨t, ht.read, ht.family, ht.signed, ht.times, rfl⟩
    rw [tokenText] at hverify
    rw [Service.authenticate, if_neg ht.ne_nil]
    dsimp only
    have hcached : Service.cachedUser ∅ now (GoString.trimPrefix token (str "Bearer ")) = none :=
      rfl
    rw [hcached]
    dsimp only
    rw [Service.authenticateUncached, hverify]
    dsimp only
    rw [if_neg ht.subject]
    exact ⟨_, _, rfl⟩

end

/-- A call of `Authenticate` on an empty cache succeeds only under the policy, exactly if the
token complies in its algorithm, issuer and audience whenever it is acceptable otherwise. -/
theorem enforced_iff
    (A : Service) (keys : KeySet) (now : ℤ) (token : GoString) :
  ((∃ user cache, A.authenticate keys now ∅ token = (.ok user, cache)) →
      ∃ t, Policy A keys now token t) ↔
    ∀ t, Acceptable A keys now token t → Complies A.config t
  := by
  rw [authenticate_empty_iff]
  constructor
  · intro h t ht
    obtain ⟨t', ht'⟩ := h ⟨t, ht⟩
    obtain rfl : t' = t := by
      apply Option.some.inj
      rw [← ht.read, ht'.read]
    apply ht'.complies
  · rintro h ⟨t, ht⟩
    use t, ht.read, ht.signed, ht.times, ht.subject
    apply h t ht

/-! ### A token of another issuer -/

/-- A configuration that requires an issuer and an audience. -/
def strictConfig : JWTConfig where
  algorithm := str "HS256"
  jwksURL := []
  secret := str "secret"
  validation := ⟨true, true, str "https://issuer", [str "metrics"]⟩
  cache := ⟨Clock.second, Clock.second⟩

/-- A token signed with `HS512` by another issuer for another audience. -/
def foreignToken : Token where
  alg := str "HS512"
  kid := none
  claims := ⟨[], [], str "alice", 10, 1, 0, str "https://other", str "other"⟩

/-- A service with the configuration, and a library that reads every text as the token and
finds it signed with the secret. -/
def strictService : Service where
  config := strictConfig
  verifier := ⟨str "secret", str "HS256", false⟩
  tenantMaps := []
  lib := ⟨fun _ => some foreignToken, fun _ key => key = .hmac (str "secret")⟩
  config_valid := by decide
  verifier_eq := by decide

/-- The token of another algorithm, issuer and audience is accepted. -/
theorem foreign_token_accepted :
  (∃ user cache, strictService.authenticate (fun _ => .error (.library "none")) (5 * Clock.second)
      ∅ (str "token") = (.ok user, cache)) ∧
    ∀ t, strictService.lib.parseUnverified (tokenText (str "token")) = some t →
      t.alg ≠ strictConfig.algorithm ∧ t.claims.issuer ≠ strictConfig.validation.requiredIssuer ∧
      t.claims.audience ∉ strictConfig.validation.requiredAudience
  := by
  constructor
  · exact ⟨_, _, rfl⟩
  · rintro t ⟨⟩
    decide

end Auth

end VmProxyAuth
