import VmProxyAuth.Auth.Service

/-!
# Expiry of tokens

A verified token has not expired, but the user is then cached for a fixed time, whatever
the remaining lifetime of the token.  No call returns a user for an expired token as long
as every token that is verified lives at least as long as the entry made for it
(`unexpired_of_outlivesEntry`); an entry that outlives its token is answered from after
the token has expired (`expired_user_returned`).
-/

namespace VmProxyAuth

namespace Auth

/-- The time a token claims to expire. -/
def Service.expiryOf (A : Service) (token : GoString) : Option ℤ :=
  (A.lib.parseUnverified (GoString.trimPrefix token (str "Bearer "))).map
    (fun t => t.claims.expiresAt)

/-- Every call that has returned a user was made before its token expired. -/
def Unexpired (A : Service) (s : State) : Prop :=
  ∀ success ∈ s.successes, ∃ e, A.expiryOf success.token = some e ∧ Clock.unix success.time ≤ e

/-- A token verified by a call of `Authenticate`, rather than found in the cache, expires no
earlier than the entry the call makes, if it makes one. -/
def outlivesEntry (A : Service) (s : State) : Action → Bool
  | .authenticate token keys =>
    let bare := GoString.trimPrefix token (str "Bearer ")
    match Service.cachedUser s.cache s.now bare, A.verifier.verifyToken A.lib keys s.now bare with
    | none, .ok claims =>
      decide (token = [] ∨ claims.userID = [] ∨
        s.now + A.config.cache.tokenTTL ≤ (claims.expiresAt + 1) * Clock.second)
    | _, _ => true
  | _ => true

/-- Every entry of the cache expires no later than its token. -/
def EntriesFit (A : Service) (cache : UserCache) : Prop :=
  ∀ token cached, cache.lookup token = some cached →
    ∃ e, (A.lib.parseUnverified token).map (fun t => t.claims.expiresAt) = some e ∧
      cached.expiresAt ≤ (e + 1) * Clock.second

theorem expiresAt_of_verifyToken {A : Service} {keys : KeySet} {now : ℤ} {token : GoString}
    {claims : Claims} (h : A.verifier.verifyToken A.lib keys now token = .ok claims) :
  (A.lib.parseUnverified token).map (fun t => t.claims.expiresAt) = some claims.expiresAt
  := by
  have hclaims := (JWTVerifier.verifyToken_eq_ok h).1
  obtain ⟨t, ht, rfl⟩ := Option.map_eq_some_iff.mp hclaims
  rw [ht]
  rfl

theorem EntriesFit.cleanupCache {A : Service} {cache : UserCache} (h : EntriesFit A cache)
    (now : ℤ) :
  EntriesFit A (Service.cleanupCache now cache)
  := by
  intro token cached hcached
  rw [Service.cleanupCache, GoMap.lookup_mapFilter] at hcached
  obtain ⟨before, hbefore, hkept⟩ := Option.bind_eq_some_iff.mp hcached
  split at hkept
  · cases hkept
  · cases hkept
    apply h token cached hbefore

theorem EntriesFit.insert {A : Service} {cache : UserCache} (h : EntriesFit A cache)
    {token : GoString} {cached : CachedUser} {e : ℤ}
    (he : (A.lib.parseUnverified token).map (fun t => t.claims.expiresAt) = some e)
    (hfits : cached.expiresAt ≤ (e + 1) * Clock.second) :
  EntriesFit A ((cache.erase token).insert token cached)
  := by
  intro token' cached' hlookup
  rw [GoMap.lookup_insert_eq_ite] at hlookup
  split at hlookup
  · rename_i htoken
    cases hlookup
    rw [htoken]
    use e, he, hfits
  · rename_i htoken
    rw [GoMap.lookup_erase_eq_ite, if_neg htoken] at hlookup
    apply h token' cached' hlookup

/-- The entries of the cache fit, and the users returned were not expired. -/
def Sound (A : Service) (s : State) : Prop := EntriesFit A s.cache ∧ Unexpired A s

/-- A step in which a verified token outlives its entry keeps the state sound. -/
theorem sound_step {A : Service} {s t : State} {a : Action} (hs : Sound A s)
    (ha : outlivesEntry A s a) (h : step A s a = some t) :
  Sound A t
  := by
  obtain ⟨hfit, hunexpired⟩ := hs
  cases a with
  | cleanupCache =>
    cases h
    use hfit.cleanupCache s.now
    apply hunexpired
  | tick d =>
    cases h
    use hfit
    apply hunexpired
  | authenticate token keys =>
    have hrecord : ∀ user e, A.expiryOf token = some e → Clock.unix s.now ≤ e →
        ∀ success ∈ recordResult s token (.ok user),
          ∃ e, A.expiryOf success.token = some e ∧ Clock.unix success.time ≤ e := by
      intro user e he hnow success hsuccess
      rcases List.mem_append.mp hsuccess with hold | hnew
      · apply hunexpired success hold
      · obtain rfl := List.mem_singleton.mp hnew
        use e
    rcases authenticate_cases A keys s.now s.cache token with
      ⟨err, cache', hresult, hkept⟩ | ⟨cached, hlookup, hnow, hresult⟩ |
      ⟨claims, htoken, hmiss, hverify, huser, hresult⟩
    · rw [step, hresult] at h
      cases h
      constructor
      · intro k cached hk
        apply hfit k cached (hkept k cached hk)
      · apply hunexpired
    · rw [step, hresult] at h
      cases h
      obtain ⟨e, he, hle⟩ := hfit _ cached hlookup
      use hfit
      apply hrecord cached.user e he
      apply Clock.unix_le_iff.mpr
      omega
    · rw [step, hresult] at h
      cases h
      have he := expiresAt_of_verifyToken hverify
      simp only [outlivesEntry, hmiss, hverify, decide_eq_true_eq, htoken, huser, false_or] at ha
      constructor
      · apply hfit.insert he ha
      · apply hrecord _ claims.expiresAt he
        apply JWTVerifier.unix_le_expiresAt_of_validateClaims
        apply (JWTVerifier.verifyToken_eq_ok hverify).2

/-- In every run in which the verified tokens outlive the entries made for them, no call
returns a user for an expired token. -/
theorem unexpired_of_outlivesEntry
    (A : Service) (now : ℤ) (actions : List Action)
    (h : (machine A).Meets (fun s a => outlivesEntry A s a) (State.init now) actions) :
  (machine A).Always (Unexpired A) (State.init now) actions
  := by
  have hinit : Sound A (State.init now) := by
    constructor
    · intro token cached hcached
      cases hcached
    · intro success hsuccess
      cases hsuccess
  apply (h.always (fun s a t => sound_step) hinit).imp
  intro s hs
  apply hs.2

/-- An entry that outlives its token is answered from when the token has expired. -/
theorem expired_user_returned {A : Service} {s : State} {token : GoString} {cached : CachedUser}
    {e : ℤ} (hcached : s.cache.lookup (GoString.trimPrefix token (str "Bearer ")) = some cached)
    (htoken : token ≠ []) (he : A.expiryOf token = some e)
    (hlonger : (e + 1) * Clock.second < cached.expiresAt)
    (hnow : s.now ≤ (e + 1) * Clock.second) (keys : KeySet) :
  ∃ d t, (machine A).run s [.tick d, .authenticate token keys] = some t ∧ ¬ Unexpired A t
  := by
  obtain ⟨d, hd⟩ := Int.eq_ofNat_of_zero_le (Int.sub_nonneg_of_le hnow)
  refine ⟨d, _, rfl, ?_⟩
  have htime : s.now + (d : ℤ) = (e + 1) * Clock.second := by
    omega
  intro hunexpired
  have hresult : A.authenticate keys (s.now + d) s.cache token = (.ok cached.user, s.cache) := by
    have huser : Service.cachedUser s.cache (s.now + d)
        (GoString.trimPrefix token (str "Bearer ")) = some cached.user := by
      rw [Service.cachedUser, hcached, Option.bind_some, if_pos]
      omega
    rw [Service.authenticate, if_neg htoken]
    dsimp only
    rw [huser]
  obtain ⟨e', he', hle⟩ := hunexpired ⟨token, s.now + d, cached.user⟩ (by
    simp [hresult, recordResult])
  obtain rfl : e = e' := Option.some.inj (he.symm.trans he')
  have hbefore : s.now + d < (e + 1) * Clock.second := Clock.unix_le_iff.mp hle
  omega

/-! ### An hour in the cache -/

/-- A token that expires in second 100. -/
def shortToken : Token where
  alg := str "HS256"
  kid := none
  claims := ⟨[], [], str "alice", 100, 1, 0, [], []⟩

/-- The configuration with a secret that caches users for an hour. -/
def hourConfig : JWTConfig where
  algorithm := str "HS256"
  jwksURL := []
  secret := str "secret"
  validation := ⟨false, false, [], []⟩
  cache := ⟨3600 * Clock.second, 3600 * Clock.second⟩

/-- A service that caches users for an hour, with a library that reads every text as the
token. -/
def hourService (token : Token) : Service where
  config := hourConfig
  verifier := ⟨str "secret", str "HS256", false⟩
  tenantMaps := []
  lib := ⟨fun _ => some token, fun _ _ => true⟩
  config_valid := by decide
  verifier_eq := by decide

/-- A key set without keys. -/
def noKeys : KeySet := fun _ => .error (.library "jwks")

/-- A token that expires in second 100 is verified in second 50 and accepted again in second
150. -/
theorem cached_user_outlives_token :
  ∃ t, (machine (hourService shortToken)).run (State.init (50 * Clock.second))
      [.authenticate (str "t") noKeys, .tick 100000000000, .authenticate (str "t") noKeys]
        = some t ∧
    ¬ Unexpired (hourService shortToken) t
  := by
  refine ⟨_, rfl, ?_⟩
  intro h
  obtain ⟨e, he, hle⟩ := h ⟨str "t", 150 * Clock.second, (hourService shortToken).userOf
    shortToken.claims⟩ (by decide +kernel)
  obtain rfl : 100 = e := Option.some.inj he
  revert hle
  decide

/-- A token that expires in second 10000 is verified in second 50, cached for an hour, and
accepted again in second 150. -/
theorem long_token_unexpired :
  (machine (hourService { shortToken with
      claims := { shortToken.claims with expiresAt := 10000 } })).Always
    (Unexpired (hourService { shortToken with
      claims := { shortToken.claims with expiresAt := 10000 } }))
    (State.init (50 * Clock.second))
    [.authenticate (str "t") noKeys, .tick 100000000000, .authenticate (str "t") noKeys]
  := unexpired_of_outlivesEntry _ _ _ (by decide +kernel)

end Auth

end VmProxyAuth
