import VmProxyAuth.Auth.Policy

/-!
# Configurations that lock everyone out

`JWTConfig.Validate` asks for a key set with `RS256` and for a secret with `HS256`, and lets both
be given.  `NewService` looks at the secret first.  With `RS256` and a secret the verifier has no
key set to take keys from, and no call of `Authenticate` ever returns a user.  With every other
valid configuration some token is accepted (`lockedOut_iff`).
-/

namespace VmProxyAuth

namespace Auth

/-- No service with the configuration ever returns a user, whatever the library reads and
verifies, the key set gives and the tenant mappings are. -/
def LockedOut (cfg : JWTConfig) : Prop :=
  ∀ A : Service, A.config = cfg → ∀ now actions t,
    (machine A).run (State.init now) actions = some t → t.successes = []

/-- No user is cached or has been returned. -/
structure Barred (s : State) : Prop where
  cache : ∀ token, s.cache.lookup token = none
  successes : s.successes = []

theorem verifyToken_of_secret {A : Service} (halg : A.config.algorithm = str "RS256")
    (hsecret : A.config.secret ≠ []) (keys : KeySet) (now : ℤ) (token : GoString)
    (claims : Claims) :
  A.verifier.verifyToken A.lib keys now token ≠ .ok claims
  := by
  intro h
  obtain ⟨t, key, -, hkey, -⟩ := JWTVerifier.verifyToken_eq_ok_iff.mp h
  rw [keyFunc_eq_ok_iff A.config_valid A.verifier_eq, JWTConfig.HasKey, if_pos halg] at hkey
  apply hsecret hkey.2.1

theorem Barred.step {A : Service} (halg : A.config.algorithm = str "RS256")
    (hsecret : A.config.secret ≠ []) {s t : State} {a : Action} (hs : Barred s)
    (h : step A s a = some t) :
  Barred t
  := by
  cases a with
  | tick d =>
    cases h
    exact ⟨hs.cache, hs.successes⟩
  | cleanupCache =>
    cases h
    refine ⟨?_, hs.successes⟩
    intro token
    rw [Service.cleanupCache, GoMap.lookup_mapFilter, hs.cache token]
    rfl
  | authenticate token keys =>
    rw [Auth.step] at h
    obtain ⟨err, cache', hresult, hkept⟩ | ⟨cached, hcached, -⟩ | ⟨claims, -, -, hverify, -⟩ :=
      authenticate_cases A keys s.now s.cache token
    · rw [hresult] at h
      cases h
      refine ⟨?_, hs.successes⟩
      intro k
      cases hk : cache'.lookup k with
      | none => rfl
      | some cached =>
        have hold := hkept k cached hk
        rw [hs.cache k] at hold
        cases hold
    · rw [hs.cache] at hcached
      cases hcached
    · exact absurd hverify (verifyToken_of_secret halg hsecret keys s.now _ claims)

/-- A library that reads every text as one token and finds it signed. -/
def trusting (alg : GoString) : JwtLibrary where
  parseUnverified _ := some ⟨alg, some [], ⟨[], [], str "alice", 10, 1, 0, [], []⟩⟩
  verify _ _ := true

/-- A valid configuration with `HS256`, or without a secret, accepts a token. -/
theorem exists_success {cfg : JWTConfig} (hcfg : cfg.validate = .ok ())
    (h : cfg.algorithm ≠ str "RS256" ∨ cfg.secret = []) :
  ∃ A : Service, A.config = cfg ∧ ∃ now actions t,
    (machine A).run (State.init now) actions = some t ∧ t.successes ≠ []
  := by
  have hne : str "HS256" ≠ str "RS256" := by decide
  obtain ⟨v, hv⟩ : ∃ v, cfg.verifier = .ok v := by
    rw [JWTConfig.verifier]
    obtain ⟨-, hjwks⟩ | ⟨-, hsecret⟩ := JWTConfig.of_validate hcfg
    · rw [if_pos hjwks]
      split
      · exact ⟨_, rfl⟩
      · exact ⟨_, rfl⟩
    · rw [if_pos hsecret]
      exact ⟨_, rfl⟩
  let A : Service := ⟨cfg, v, [], trusting cfg.algorithm, hcfg, hv⟩
  let keys : KeySet := fun _ => .ok (.rsa [])
  have hacceptable : Acceptable A keys (5 * Clock.second) (str "token")
      ⟨cfg.algorithm, some [], ⟨[], [], str "alice", 10, 1, 0, [], []⟩⟩ := by
    refine ⟨by decide, rfl, ?_, ?_, rfl, List.cons_ne_nil _ _⟩
    · change cfg.sameFamily cfg.algorithm = true
      rw [JWTConfig.sameFamily]
      obtain ⟨halg, -⟩ | ⟨halg, -⟩ := JWTConfig.of_validate hcfg
      · rw [if_pos halg, halg]
        decide
      · rw [halg, if_neg hne]
        decide
    · change ∃ key, cfg.HasKey keys _ key ∧ true = true
      by_cases halg : cfg.algorithm = str "RS256"
      · refine ⟨.rsa [], ?_, rfl⟩
        rw [JWTConfig.HasKey, if_pos halg]
        exact ⟨h.resolve_left (not_not_intro halg), [], rfl, rfl⟩
      · refine ⟨.hmac cfg.secret, ?_, rfl⟩
        rw [JWTConfig.HasKey, if_neg halg]
  obtain ⟨user, cache, hresult⟩ := (authenticate_empty_iff A keys _ _).mpr ⟨_, hacceptable⟩
  refine ⟨A, rfl, 5 * Clock.second, [.authenticate (str "token") keys],
    ⟨5 * Clock.second, cache, [⟨str "token", 5 * Clock.second, user⟩]⟩, ?_, by simp⟩
  have hstep : step A (State.init (5 * Clock.second)) (.authenticate (str "token") keys)
      = some ⟨5 * Clock.second, cache, [⟨str "token", 5 * Clock.second, user⟩]⟩ := by
    simp only [step, State.init, hresult]
    rfl
  exact (machine A).run_cons.mpr ⟨_, hstep, rfl⟩

/-- A valid configuration locks everyone out exactly if it has `RS256` and a secret. -/
theorem lockedOut_iff {cfg : JWTConfig} (hcfg : cfg.validate = .ok ()) :
  LockedOut cfg ↔ cfg.algorithm = str "RS256" ∧ cfg.secret ≠ []
  := by
  constructor
  · intro hlocked
    by_contra hnot
    obtain ⟨A, hA, now, actions, t, hrun, hne⟩ :=
      exists_success hcfg (by rw [not_and_or, not_not] at hnot; exact hnot)
    apply hne (hlocked A hA now actions t hrun)
  · rintro ⟨halg, hsecret⟩ A rfl now actions t hrun
    have hinit : Barred (State.init now) := ⟨fun _ => rfl, rfl⟩
    have hbarred : Barred t :=
      Machine.invariant_of_run (fun s a t hs => hs.step halg hsecret) hinit hrun
    apply hbarred.successes

/-- A configuration with a key set and a secret. -/
def bothConfig : JWTConfig where
  algorithm := str "RS256"
  jwksURL := str "https://issuer/keys"
  secret := str "secret"
  validation := ⟨false, false, [], []⟩
  cache := ⟨Clock.second, Clock.second⟩

theorem lockedOut_bothConfig :
  bothConfig.validate = .ok () ∧ LockedOut bothConfig
  := ⟨by decide, (lockedOut_iff (by decide)).mpr ⟨rfl, by decide⟩⟩

end Auth

end VmProxyAuth
