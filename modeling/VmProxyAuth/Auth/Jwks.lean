import VmProxyAuth.Domain
import VmProxyAuth.Lib.Base64

/-!
# The JSON web key set

`GetPublicKey` answers with a cached key while the cache is fresh, and fetches the key set
otherwise.  A fetch that succeeds replaces the cache by the keys of the set, one that fails
leaves it as it is; so the cache is always made of the last set fetched (`reflects_run`), and an
answer is the last key of the set with the identifier asked for (`answer_from_last_fetch`).

The modulus of a key is converted as it is.  The exponent is cut to 64 bits with a sign, and is
apply if it is below `2 ^ 63` (`exactConversion_iff`).
-/

namespace VmProxyAuth

namespace Auth

/-! ### Conversion of a key -/

/-- `JWK`, without the algorithm, which is not read. -/
structure JWK where
  kty : GoString
  use : GoString
  kid : GoString
  n : GoString
  e : GoString
  deriving DecidableEq, Repr

/-- `rsa.PublicKey`. -/
structure PublicKey where
  n : ℕ
  e : ℤ
  deriving DecidableEq, Repr

/-- `new(big.Int).SetBytes(bytes)`: the number with the bytes, the highest first. -/
def bigEndian (bytes : GoString) : ℕ := bytes.foldl (fun n b => n * 256 + b.toNat) 0

/-- `int(x.Int64())`: the lowest 64 bits, the highest of them the sign. -/
@[irreducible]
def int64 (x : ℕ) : ℤ := Int.bmod x (2 ^ 64)

/-- `jwkToRSAPublicKey`. -/
def jwkToRSAPublicKey (jwk : JWK) : Except GoError PublicKey :=
  if jwk.n = [] then .error (.errorf "missing required field 'n' (modulus) in JWK" [])
  else if jwk.e = [] then .error (.errorf "missing required field 'e' (exponent) in JWK" [])
  else
    match Base64.Encoding.rawURL.decode jwk.n with
    | none => .error (.wrapf "failed to decode n: %w" [] (.library "base64"))
    | some nBytes =>
      match Base64.Encoding.rawURL.decode jwk.e with
      | none => .error (.wrapf "failed to decode e: %w" [] (.library "base64"))
      | some eBytes => .ok ⟨bigEndian nBytes, int64 (bigEndian eBytes)⟩

/-- A number is kept exactly if it is below `2 ^ 63`. -/
theorem int64_eq_iff {x : ℕ} :
  int64 x = x ↔ x < 2 ^ 63
  := by
  unfold int64
  rw [Int.bmod_def]
  split
  · omega
  · omega

/-- When the conversion returns a key, and which. -/
theorem jwkToRSAPublicKey_eq_ok_iff {jwk : JWK} {key : PublicKey} :
  jwkToRSAPublicKey jwk = .ok key ↔
    ∃ nBytes eBytes, jwk.n ≠ [] ∧ jwk.e ≠ [] ∧
      Base64.Encoding.rawURL.decode jwk.n = some nBytes ∧
      Base64.Encoding.rawURL.decode jwk.e = some eBytes ∧
      key = ⟨bigEndian nBytes, int64 (bigEndian eBytes)⟩
  := by
  rw [jwkToRSAPublicKey]
  split
  · simp [*]
  · split
    · simp [*]
    · cases Base64.Encoding.rawURL.decode jwk.n with
      | none => simp
      | some nBytes =>
        cases Base64.Encoding.rawURL.decode jwk.e with
        | none => simp
        | some eBytes => simp [*, eq_comm]

/-- The key, if one is returned, has the numbers that are encoded. -/
def ExactConversion (jwk : JWK) : Prop :=
  ∀ key, jwkToRSAPublicKey jwk = .ok key →
    ∃ nBytes eBytes, Base64.Encoding.rawURL.decode jwk.n = some nBytes ∧
      Base64.Encoding.rawURL.decode jwk.e = some eBytes ∧
      key.n = bigEndian nBytes ∧ key.e = bigEndian eBytes

/-- The conversion is exact if and only if the modulus is missing or cannot be decoded, or the
exponent cannot be decoded or is below `2 ^ 63`. -/
theorem exactConversion_iff (jwk : JWK) :
  ExactConversion jwk ↔
    ∀ nBytes eBytes, jwk.n ≠ [] → Base64.Encoding.rawURL.decode jwk.n = some nBytes →
      Base64.Encoding.rawURL.decode jwk.e = some eBytes → bigEndian eBytes < 2 ^ 63
  := by
  constructor
  · intro h nBytes eBytes hn hnBytes heBytes
    by_cases he : jwk.e = []
    · rw [he] at heBytes
      cases heBytes
      decide
    · obtain ⟨-, eBytes', -, heBytes', -, hexact⟩ := h _
        (jwkToRSAPublicKey_eq_ok_iff.mpr ⟨nBytes, eBytes, hn, he, hnBytes, heBytes, rfl⟩)
      obtain rfl := Option.some.inj (heBytes.symm.trans heBytes')
      apply int64_eq_iff.mp hexact
  · intro h key hkey
    obtain ⟨nBytes, eBytes, hn, -, hnBytes, heBytes, rfl⟩ := jwkToRSAPublicKey_eq_ok_iff.mp hkey
    use nBytes, eBytes, hnBytes, heBytes, rfl
    apply int64_eq_iff.mpr (h nBytes eBytes hn hnBytes heBytes)

/-- A key with the exponent `2 ^ 64 + 3`. -/
def longExponent : JWK := ⟨str "RSA", str "sig", str "k", str "xQ", str "AQAAAAAAAAAD"⟩

/-- A key with the exponent `2 ^ 63 + 1`. -/
def negativeExponent : JWK := ⟨str "RSA", str "sig", str "k", str "xQ", str "gAAAAAAAAAE"⟩

/-- The first is accepted with the exponent 3, the second with a negative one. -/
theorem exponents_changed :
  jwkToRSAPublicKey longExponent = .ok ⟨197, 3⟩ ∧
    (Base64.Encoding.rawURL.decode longExponent.e).map bigEndian = some (2 ^ 64 + 3) ∧
    ¬ ExactConversion longExponent ∧
    jwkToRSAPublicKey negativeExponent = .ok ⟨197, -(2 ^ 63) + 1⟩ ∧
    (Base64.Encoding.rawURL.decode negativeExponent.e).map bigEndian = some (2 ^ 63 + 1) ∧
    ¬ ExactConversion negativeExponent
  := by
  have hlong : jwkToRSAPublicKey longExponent = .ok ⟨197, 3⟩ := by decide +kernel
  have hnegative : jwkToRSAPublicKey negativeExponent = .ok ⟨197, -(2 ^ 63) + 1⟩ := by
    decide +kernel
  have hlongE : (Base64.Encoding.rawURL.decode longExponent.e).map bigEndian
      = some (2 ^ 64 + 3) := by
    decide +kernel
  have hnegativeE : (Base64.Encoding.rawURL.decode negativeExponent.e).map bigEndian
      = some (2 ^ 63 + 1) := by
    decide +kernel
  refine ⟨hlong, hlongE, ?_, hnegative, hnegativeE, ?_⟩
  · intro h
    obtain ⟨-, eBytes, -, heBytes, -, hexact⟩ := h _ hlong
    rw [heBytes, Option.map_some, Option.some.injEq] at hlongE
    rw [hlongE] at hexact
    cases hexact
  · intro h
    obtain ⟨-, eBytes, -, heBytes, -, hexact⟩ := h _ hnegative
    rw [heBytes, Option.map_some, Option.some.injEq] at hnegativeE
    rw [hnegativeE] at hexact
    cases hexact

/-! ### The fetcher -/

/-- `JWKSFetcher`, without its HTTP client. -/
structure JWKSFetcher where
  jwksURL : GoString
  cache : GoMap GoString PublicKey
  cacheTime : ℤ
  cacheTTL : ℤ

/-- `NewJWKSFetcher`.  The cache has the zero time, which is before the epoch. -/
def newJWKSFetcher (jwksURL : GoString) (cacheTTL : ℤ) : JWKSFetcher :=
  ⟨jwksURL, ∅, -62135596800 * Clock.second, cacheTTL⟩

/-- What comes of a request to the endpoint: no request can be made, it is not answered, or it
is answered with a status and a body, which can fail to be read. -/
inductive Response where
  | badRequest (err : GoError)
  | transportError (err : GoError)
  | answer (status : ℕ) (body : Except GoError GoString)

/-- Whether a key is one for RSA signatures. -/
def JWK.signs (jwk : JWK) : Bool :=
  jwk.kty == str "RSA" && (jwk.use == str "sig" || jwk.use == [])

/-- The loop body over the keys of a set. -/
def cacheKey (cache : GoMap GoString PublicKey) (jwk : JWK) : GoMap GoString PublicKey :=
  if jwk.signs then
    match jwkToRSAPublicKey jwk with
    | .error _ => cache
    | .ok key => cache.insert jwk.kid key
  else cache

/-- The cache made of a key set. -/
def cacheOf (keys : List JWK) : GoMap GoString PublicKey := keys.foldl cacheKey ∅

namespace JWKSFetcher

variable (unmarshal : GoString → Except GoError (List JWK))

/-- `fetchJWKS`, with what comes of the request and the time it is dealt with. -/
def fetchJWKS (f : JWKSFetcher) (response : Response) (now : ℤ) :
    Except GoError Unit × JWKSFetcher :=
  match response with
  | .badRequest err => (.error (.wrapf "failed to create request: %w" [] err), f)
  | .transportError err =>
    (.error (.wrapf "failed to fetch JWKS from %s: %w" [.string f.jwksURL] err), f)
  | .answer status body =>
    if status ≠ 200 then
      (.error (.wrapf "%w: status %d" [.int status] (.app AppError.jwksEndpointError)), f)
    else
      match body with
      | .error err => (.error (.wrapf "failed to read JWKS response: %w" [] err), f)
      | .ok bytes =>
        match unmarshal bytes with
        | .error err => (.error (.wrapf "failed to parse JWKS: %w" [] err), f)
        | .ok keys => (.ok (), { f with cache := cacheOf keys, cacheTime := now })

/-- The key in the cache, if the cache is fresh at the time `now`. -/
def cached (f : JWKSFetcher) (kid : GoString) (now : ℤ) : Option PublicKey :=
  if Clock.sub now f.cacheTime < f.cacheTTL then f.cache.lookup kid else none

end JWKSFetcher

/-- A call of `GetPublicKey`: the key asked for and the time, and, if the key set is fetched,
what comes of the request and the time then. -/
structure Call where
  kid : GoString
  now : ℤ
  response : Response
  fetchedAt : ℤ

namespace JWKSFetcher

variable (unmarshal : GoString → Except GoError (List JWK))

/-- `GetPublicKey`. -/
def getPublicKey (f : JWKSFetcher) (c : Call) : Except GoError PublicKey × JWKSFetcher :=
  match f.cached c.kid c.now with
  | some key => (.ok key, f)
  | none =>
    match f.fetchJWKS unmarshal c.response c.fetchedAt with
    | (.error err, f) => (.error (.wrapf "failed to fetch JWKS: %w" [] err), f)
    | (.ok (), f) =>
      match f.cache.lookup c.kid with
      | some key => (.ok key, f)
      | none =>
        (.error (.wrapf "%w: kid '%s'" [.string c.kid] (.app AppError.jwksKeyNotFound)), f)

end JWKSFetcher

/-! ### The keys of a set -/

/-- The keys of a set that are for RSA signatures, have the identifier and are converted
without error, in order. -/
def candidates (keys : List JWK) (kid : GoString) : List PublicKey :=
  keys.filterMap (fun jwk =>
    if jwk.signs ∧ jwk.kid = kid then (jwkToRSAPublicKey jwk).toOption else none)

theorem lookup_cacheKey (cache : GoMap GoString PublicKey) (jwk : JWK) (kid : GoString) :
  (cacheKey cache jwk).lookup kid = (candidates [jwk] kid).getLast?.or (cache.lookup kid)
  := by
  rw [cacheKey, candidates]
  split
  · rename_i hsigns
    cases hkey : jwkToRSAPublicKey jwk with
    | error err => simp [Except.toOption, hkey]
    | ok key =>
      rw [GoMap.lookup_insert_eq_ite]
      by_cases hkid : kid = jwk.kid
      · simp [Except.toOption, hsigns, hkid, hkey]
      · simp [Ne.symm hkid, hkid]
  · rename_i hsigns
    simp [hsigns]

/-- The cache has the last of the keys with an identifier. -/
theorem lookup_cacheOf (keys : List JWK) (kid : GoString) :
  (cacheOf keys).lookup kid = (candidates keys kid).getLast?
  := by
  induction keys using List.reverseRecOn with
  | nil => rfl
  | append_singleton keys jwk ih =>
    have hcandidates : candidates (keys ++ [jwk]) kid
        = candidates keys kid ++ candidates [jwk] kid :=
      List.filterMap_append
    rw [cacheOf, List.foldl_concat, ← cacheOf, lookup_cacheKey, ih, hcandidates,
      List.getLast?_append]

/-! ### Runs -/

/-- A fetch that succeeded: the key set and the time. -/
structure Fetch where
  keys : List JWK
  time : ℤ

section

variable (unmarshal : GoString → Except GoError (List JWK))

/-- The key set of an answer, if it is one that can be read. -/
def Response.keys : Response → Option (List JWK)
  | .answer status (.ok bytes) => if status = 200 then (unmarshal bytes).toOption else none
  | _ => none

/-- The fetch a call makes, if it makes one that succeeds. -/
def JWKSFetcher.fetch (f : JWKSFetcher) (c : Call) : Option Fetch :=
  match f.cached c.kid c.now with
  | some _ => none
  | none => (c.response.keys unmarshal).map (fun keys => ⟨keys, c.fetchedAt⟩)

/-- The fetcher, with the fetches that have succeeded. -/
structure JwksState where
  fetcher : JWKSFetcher
  fetches : List Fetch

/-- The state after a call. -/
def JwksState.call (s : JwksState) (c : Call) : JwksState :=
  ⟨(s.fetcher.getPublicKey unmarshal c).2, s.fetches ++ (s.fetcher.fetch unmarshal c).toList⟩

/-- The state after calls. -/
def JwksState.run (s : JwksState) (calls : List Call) : JwksState :=
  calls.foldl (JwksState.call unmarshal) s

/-- The state of a new fetcher. -/
def JwksState.init (jwksURL : GoString) (cacheTTL : ℤ) : JwksState :=
  ⟨newJWKSFetcher jwksURL cacheTTL, []⟩

/-- A fetcher after a fetch that succeeds. -/
def JWKSFetcher.replaced (f : JWKSFetcher) (fetch : Fetch) : JWKSFetcher :=
  { f with cache := cacheOf fetch.keys, cacheTime := fetch.time }

/-- How a fetch ends: it has no key set and changes nothing, or replaces the cache. -/
theorem fetchJWKS_cases (f : JWKSFetcher) (response : Response) (now : ℤ) :
  (∃ err, response.keys unmarshal = none ∧
      f.fetchJWKS unmarshal response now = (.error err, f)) ∨
    ∃ keys, response.keys unmarshal = some keys ∧
      f.fetchJWKS unmarshal response now = (.ok (), f.replaced ⟨keys, now⟩)
  := by
  cases response with
  | badRequest err => apply Or.inl ⟨_, rfl, rfl⟩
  | transportError err => apply Or.inl ⟨_, rfl, rfl⟩
  | answer status body =>
    cases body with
    | error err =>
      left
      rw [JWKSFetcher.fetchJWKS]
      split
      · exact ⟨_, rfl, rfl⟩
      · exact ⟨_, rfl, rfl⟩
    | ok bytes =>
      by_cases hstatus : status = 200
      · rw [JWKSFetcher.fetchJWKS, if_neg (not_not.mpr hstatus), Response.keys, if_pos hstatus]
        cases hkeys : unmarshal bytes with
        | error err => apply Or.inl ⟨_, rfl, rfl⟩
        | ok keys => apply Or.inr ⟨keys, rfl, rfl⟩
      · rw [JWKSFetcher.fetchJWKS, if_pos hstatus, Response.keys, if_neg hstatus]
        apply Or.inl ⟨_, rfl, rfl⟩

/-- The answer of a call that has fetched the keys. -/
def answerFrom (keys : List JWK) (kid : GoString) : Except GoError PublicKey :=
  match (candidates keys kid).getLast? with
  | some key => .ok key
  | none => .error (.wrapf "%w: kid '%s'" [.string kid] (.app AppError.jwksKeyNotFound))

theorem answerFrom_eq_ok {keys : List JWK} {kid : GoString} {key : PublicKey}
    (h : answerFrom keys kid = .ok key) :
  (candidates keys kid).getLast? = some key
  := by
  rw [answerFrom] at h
  split at h
  · rename_i key' hlast
    rw [hlast, Except.ok.inj h]
  · cases h

/-- How a call ends: it is answered from the cache; the fetch it makes fails; or the fetch
succeeds and the call is answered from the keys fetched. -/
theorem getPublicKey_cases (f : JWKSFetcher) (c : Call) :
  (∃ key, f.cached c.kid c.now = some key ∧ f.fetch unmarshal c = none ∧
      f.getPublicKey unmarshal c = (.ok key, f)) ∨
    (∃ err, f.cached c.kid c.now = none ∧ f.fetch unmarshal c = none ∧
      f.getPublicKey unmarshal c = (.error err, f)) ∨
    ∃ fetch, f.cached c.kid c.now = none ∧ f.fetch unmarshal c = some fetch ∧
      f.getPublicKey unmarshal c = (answerFrom fetch.keys c.kid, f.replaced fetch)
  := by
  rw [JWKSFetcher.getPublicKey, JWKSFetcher.fetch]
  cases hcached : f.cached c.kid c.now with
  | some key => apply Or.inl ⟨key, rfl, rfl, rfl⟩
  | none =>
    right
    obtain ⟨err, hkeys, hfetch⟩ | ⟨keys, hkeys, hfetch⟩ :=
      fetchJWKS_cases unmarshal f c.response c.fetchedAt
    · left
      rw [hfetch, hkeys]
      exact ⟨_, rfl, rfl, rfl⟩
    · right
      rw [hfetch, hkeys]
      refine ⟨⟨keys, c.fetchedAt⟩, rfl, rfl, ?_⟩
      rw [answerFrom, ← lookup_cacheOf]
      dsimp only [JWKSFetcher.replaced]
      cases (cacheOf keys).lookup c.kid with
      | some key => rfl
      | none => rfl

/-- The cache is made of the last set fetched, and has its time. -/
def JwksState.Reflects (s : JwksState) : Prop :=
  match s.fetches.getLast? with
  | none => s.fetcher.cache = ∅
  | some fetch => s.fetcher.cache = cacheOf fetch.keys ∧ s.fetcher.cacheTime = fetch.time

theorem JwksState.Reflects.call {s : JwksState} (h : s.Reflects) (c : Call) :
  (s.call unmarshal c).Reflects ∧
    (s.call unmarshal c).fetcher.cacheTTL = s.fetcher.cacheTTL
  := by
  rw [JwksState.call]
  obtain ⟨key, -, hfetch, hanswer⟩ | ⟨err, -, hfetch, hanswer⟩ | ⟨fetch, -, hfetch, hanswer⟩ :=
    getPublicKey_cases unmarshal s.fetcher c
  · rw [hfetch, hanswer, Option.toList_none, List.append_nil]
    exact ⟨h, rfl⟩
  · rw [hfetch, hanswer, Option.toList_none, List.append_nil]
    exact ⟨h, rfl⟩
  · rw [hfetch, hanswer, Option.toList_some, JwksState.Reflects, List.getLast?_concat]
    exact ⟨⟨rfl, rfl⟩, rfl⟩

/-- After any calls, the cache is made of the last set fetched. -/
theorem reflects_run (jwksURL : GoString) (cacheTTL : ℤ) (calls : List Call) :
  (JwksState.run unmarshal (.init jwksURL cacheTTL) calls).Reflects ∧
    (JwksState.run unmarshal (.init jwksURL cacheTTL) calls).fetcher.cacheTTL = cacheTTL
  := by
  induction calls using List.reverseRecOn with
  | nil => exact ⟨rfl, rfl⟩
  | append_singleton calls c ih =>
    rw [JwksState.run, List.foldl_concat, ← JwksState.run]
    obtain ⟨hreflects, httl⟩ := ih.1.call unmarshal c
    use hreflects
    rw [httl, ih.2]

/-- A cached answer comes from the last set fetched, less than the lifetime of the cache
ago. -/
theorem JwksState.Reflects.cached {s : JwksState} (h : s.Reflects) {kid : GoString} {now : ℤ}
    {key : PublicKey} (hkey : s.fetcher.cached kid now = some key) :
  ∃ fetch, s.fetches.getLast? = some fetch ∧ (candidates fetch.keys kid).getLast? = some key ∧
    Clock.sub now fetch.time < s.fetcher.cacheTTL
  := by
  obtain ⟨hfresh, hlookup⟩ := Option.ite_none_right_eq_some.mp hkey
  rw [JwksState.Reflects] at h
  cases hlast : s.fetches.getLast? with
  | none =>
    rw [hlast] at h
    rw [h] at hlookup
    cases hlookup
  | some fetch =>
    rw [hlast] at h
    obtain ⟨hcache, htime⟩ := h
    rw [hcache, lookup_cacheOf] at hlookup
    rw [htime] at hfresh
    exact ⟨fetch, rfl, hlookup, hfresh⟩

/-- What is expected of a call: a key it returns is the last one with the identifier in the set
fetched last, in this call or less than the lifetime of the cache ago; if it makes a fetch that
fails, the cache and its time stay as they are; and if it fetches a set without such a key, it
reports that the key is not found. -/
structure CallSound (unmarshal : GoString → Except GoError (List JWK)) (cacheTTL : ℤ)
    (s : JwksState) (c : Call) : Prop where
  answered : ∀ key, (s.fetcher.getPublicKey unmarshal c).1 = .ok key →
    ∃ fetch, (s.call unmarshal c).fetches.getLast? = some fetch ∧
      (candidates fetch.keys c.kid).getLast? = some key ∧
      (s.fetcher.fetch unmarshal c = some fetch ∨ Clock.sub c.now fetch.time < cacheTTL)
  failed : s.fetcher.cached c.kid c.now = none →
    ∀ err, (s.fetcher.fetchJWKS unmarshal c.response c.fetchedAt).1 = .error err →
      (s.fetcher.getPublicKey unmarshal c).2.cache = s.fetcher.cache ∧
      (s.fetcher.getPublicKey unmarshal c).2.cacheTime = s.fetcher.cacheTime
  absent : ∀ fetch, s.fetcher.fetch unmarshal c = some fetch →
    candidates fetch.keys c.kid = [] →
      (s.fetcher.getPublicKey unmarshal c).1
        = .error (.wrapf "%w: kid '%s'" [.string c.kid] (.app AppError.jwksKeyNotFound))

end

/-- Every call after any calls, whatever comes of the requests and whatever the times, is
answered from the set fetched last. -/
theorem answer_from_last_fetch
    (unmarshal : GoString → Except GoError (List JWK)) (jwksURL : GoString) (cacheTTL : ℤ)
    (calls : List Call) (c : Call) :
  CallSound unmarshal cacheTTL (JwksState.run unmarshal (.init jwksURL cacheTTL) calls) c
  := by
  obtain ⟨hreflects, httl⟩ := reflects_run unmarshal jwksURL cacheTTL calls
  generalize JwksState.run unmarshal (.init jwksURL cacheTTL) calls = s at hreflects httl
  subst httl
  constructor
  case answered =>
    intro key hkey
    rw [JwksState.call]
    obtain ⟨key', hcached, hfetch, hanswer⟩ | ⟨err, -, -, hanswer⟩ | ⟨fetch, -, hfetch, hanswer⟩ :=
      getPublicKey_cases unmarshal s.fetcher c
    · rw [hanswer] at hkey
      cases hkey
      obtain ⟨fetch, hlast, hcandidate, hfresh⟩ := hreflects.cached hcached
      rw [hfetch, Option.toList_none, List.append_nil]
      exact ⟨fetch, hlast, hcandidate, Or.inr hfresh⟩
    · rw [hanswer] at hkey
      cases hkey
    · rw [hanswer] at hkey
      rw [hfetch, Option.toList_some, List.getLast?_concat]
      exact ⟨fetch, rfl, answerFrom_eq_ok hkey, Or.inl rfl⟩
  case failed =>
    intro hmissed err herr
    obtain ⟨err', -, hfetch⟩ | ⟨keys, -, hfetch⟩ :=
      fetchJWKS_cases unmarshal s.fetcher c.response c.fetchedAt
    · rw [JWKSFetcher.getPublicKey, hmissed, hfetch]
      exact ⟨rfl, rfl⟩
    · rw [hfetch] at herr
      cases herr
  case absent =>
    intro fetch hfetch hnone
    obtain ⟨-, -, hnot, -⟩ | ⟨-, -, hnot, -⟩ | ⟨fetch', -, hfetch', hanswer⟩ :=
      getPublicKey_cases unmarshal s.fetcher c
    · rw [hfetch] at hnot
      cases hnot
    · rw [hfetch] at hnot
      cases hnot
    · obtain rfl := Option.some.inj (hfetch.symm.trans hfetch')
      rw [hanswer, answerFrom, hnone]
      rfl

end Auth

end VmProxyAuth
