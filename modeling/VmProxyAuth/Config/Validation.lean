import VmProxyAuth.Auth.Policy
import VmProxyAuth.Auth.Permissions
import VmProxyAuth.Cluster.Bootstrap
import VmProxyAuth.Lib.Checks
import VmProxyAuth.Lib.Clock
import VmProxyAuth.Lib.HostPort
import VmProxyAuth.Proxy.Routing

/-!
# The configuration and its validation

The parts of the configuration with their checks.  `Config.Validate`, which is called when the
configuration is loaded, leaves out the metadata, the logging and the metrics, which
`ValidateConfig` checks too.  `ValidateConfig` ends with checks across the modules; none of them
ever fails there, as the modules have made them all before (`validateConfig_eq_ok_iff`).

The settings are text.  Those of the proxy, the tokens and the tenants are strings of bytes, as in
the modules that use them, where they end up in headers, tokens and queries that are read byte by
byte.  The others are of type `String`: names and addresses that are compared, split at ASCII
letters and passed on.
-/

namespace VmProxyAuth

namespace Config

open Checks HostPort

/-! ### Addresses and durations -/

/-- The error of `net.SplitHostPort`. -/
def addrError (addr : String) (err : AddrErr) : GoError :=
  if addr = "" then .errorf err.text []
  else .errorf ("address %s: " ++ err.text) [.string (str addr)]

/-- `net.SplitHostPort`. -/
def splitAddress (addr : String) : Except GoError (String × String) :=
  (splitHostPort addr).mapError (addrError addr)

@[simp]
theorem splitAddress_eq_ok_iff (addr : String) (p : String × String) :
  splitAddress addr = .ok p ↔ splitHostPort addr = .ok p
  := mapError_eq_ok_iff (addrError addr) (splitHostPort addr) p

/-- An address with a host and a port. -/
def IsAddress (addr : String) : Prop := ∃ p, splitHostPort addr = .ok p

instance (addr : String) : Decidable (IsAddress addr) :=
  match h : splitHostPort addr with
  | .ok p => isTrue ⟨p, h⟩
  | .error _ => isFalse (by rintro ⟨p, hp⟩; rw [h] at hp; cases hp)

/-- The check that an address can be split. -/
def checkAddress (wrapped : GoError → GoError) (addr : String) : Except GoError Unit :=
  wrap wrapped (do
    let _ ← splitAddress addr
    .ok ())

@[simp]
theorem checkAddress_eq_ok_iff (wrapped : GoError → GoError) (addr : String) (u : Unit) :
  checkAddress wrapped addr = .ok u ↔ IsAddress addr
  := by
  simp [checkAddress, IsAddress]

/-- The check that a duration is positive. -/
def positive (format : String) (d : ℤ) : Except GoError Unit :=
  refuse (d ≤ 0) (.errorf format [.duration d])

@[simp]
theorem positive_eq_ok_iff (format : String) (d : ℤ) (u : Unit) :
  positive format d = .ok u ↔ 0 < d
  := by
  simp [positive]

/-! ### Metadata, logging and metrics -/

/-- The configuration of the metadata. -/
structure MetadataConfig where
  nodeID : String
  role : String
  environment : String
  region : String
  deriving DecidableEq, Repr

/-- The check of the metadata. -/
def MetadataConfig.validate (m : MetadataConfig) : Except GoError Unit := do
  refuse (m.nodeID = "") (.errorf "node ID is required" [])
  refuse (m.role = "") (.errorf "role is required" [])
  refuse (m.environment = "") (.errorf "environment is required" [])
  refuse (m.region = "") (.errorf "region is required" [])
  refuse (64 < (str m.nodeID).length)
    (.errorf "node ID is too long (max %d characters): %d" [.int 64, .int (str m.nodeID).length])

/-- The configuration of the logging. -/
structure LoggingConfig where
  level : String
  format : String
  deriving DecidableEq, Repr

/-- The check of the logging. -/
def LoggingConfig.validate (l : LoggingConfig) : Except GoError Unit := do
  refuse (l.level ∉ ["debug", "info", "warn", "error"])
    (.errorf "invalid log level: %s (valid: [debug info warn error])" [.string (str l.level)])
  refuse (l.format ∉ ["json", "text"])
    (.errorf "invalid log format: %s (valid: [json text])" [.string (str l.format)])

/-- The configuration of the metrics. -/
structure MetricsConfig where
  enabled : Bool
  path : String
  deriving DecidableEq, Repr

/-- The check of the metrics. -/
def MetricsConfig.validate (m : MetricsConfig) : Except GoError Unit := do
  refuse (m.enabled ∧ m.path = "")
    (.errorf "metrics path is required when metrics are enabled" [])
  refuse (m.path ≠ "" ∧ ¬ "/".toList <+: m.path.toList)
    (.errorf "metrics path must start with /" [])

/-! ### The server -/

/-- The timeouts of the server. -/
structure Timeouts where
  read : ℤ
  write : ℤ
  idle : ℤ
  deriving DecidableEq, Repr

/-- The configuration of the server. -/
structure ServerConfig where
  address : String
  timeouts : Timeouts
  deriving DecidableEq, Repr

/-- The check of the server. -/
def ServerConfig.validate (c : ServerConfig) : Except GoError Unit := do
  refuse (c.address = "") (.errorf "server address is required" [])
  checkAddress (.wrapf "invalid server address format: %w" []) c.address
  positive "server read timeout must be positive, got %v" c.timeouts.read
  positive "server write timeout must be positive, got %v" c.timeouts.write
  positive "server idle timeout must be positive, got %v" c.timeouts.idle

/-! ### The storage -/

/-- `RedisPoolConfig`. -/
structure RedisPoolConfig where
  size : ℤ
  minIdle : ℤ
  deriving DecidableEq, Repr

/-- `RedisPoolConfig.Validate`. -/
def RedisPoolConfig.validate (p : RedisPoolConfig) : Except GoError Unit := do
  refuse (p.size ≤ 0) (.errorf "redis pool size must be positive, got %d" [.int p.size])
  refuse (p.minIdle < 0)
    (.errorf "redis min idle connections cannot be negative, got %d" [.int p.minIdle])
  refuse (p.size < p.minIdle)
    (.errorf "redis min idle connections (%d) cannot exceed pool size (%d)"
      [.int p.minIdle, .int p.size])

/-- `RedisTimeoutsConfig`. -/
structure RedisTimeoutsConfig where
  connect : ℤ
  read : ℤ
  write : ℤ
  deriving DecidableEq, Repr

/-- `RedisTimeoutsConfig.Validate`. -/
def RedisTimeoutsConfig.validate (t : RedisTimeoutsConfig) : Except GoError Unit := do
  positive "redis connect timeout must be positive, got %v" t.connect
  positive "redis read timeout must be positive, got %v" t.read
  positive "redis write timeout must be positive, got %v" t.write

/-- `BackoffConfig`. -/
structure BackoffConfig where
  min : ℤ
  max : ℤ
  deriving DecidableEq, Repr

/-- `RedisRetryConfig`. -/
structure RedisRetryConfig where
  maxAttempts : ℤ
  backoff : BackoffConfig
  deriving DecidableEq, Repr

/-- `RedisRetryConfig.Validate`. -/
def RedisRetryConfig.validate (r : RedisRetryConfig) : Except GoError Unit := do
  refuse (r.maxAttempts < 0)
    (.errorf "redis max retry attempts cannot be negative, got %d" [.int r.maxAttempts])
  refuse (r.backoff.min < 0)
    (.errorf "redis min retry backoff cannot be negative, got %v" [.duration r.backoff.min])
  refuse (r.backoff.max < 0)
    (.errorf "redis max retry backoff cannot be negative, got %v" [.duration r.backoff.max])
  refuse (r.backoff.max < r.backoff.min)
    (.errorf "redis min retry backoff (%v) cannot exceed max backoff (%v)"
      [.duration r.backoff.min, .duration r.backoff.max])

/-- `RedisConfig`. -/
structure RedisConfig where
  address : String
  password : String
  database : ℤ
  keyPrefix : String
  pool : RedisPoolConfig
  timeouts : RedisTimeoutsConfig
  retry : RedisRetryConfig
  deriving DecidableEq, Repr

/-- `RedisConfig.Validate`. -/
def RedisConfig.validate (r : RedisConfig) : Except GoError Unit := do
  refuse (r.address = "") (.errorf "redis address is required" [])
  refuse (r.database < 0) (.errorf "redis database must be non-negative, got %d" [.int r.database])
  wrap (.wrapf "redis pool validation failed: %w" []) r.pool.validate
  wrap (.wrapf "redis timeouts validation failed: %w" []) r.timeouts.validate
  wrap (.wrapf "redis retry validation failed: %w" []) r.retry.validate

/-- The configuration of the storage. -/
structure StorageConfig where
  type : String
  redis : RedisConfig
  raft : Cluster.RaftConfig
  deriving DecidableEq, Repr

/-- The check of the storage. -/
def StorageConfig.validate (c : StorageConfig) : Except GoError Unit := do
  refuse (c.type ∉ ["local", "redis", "raft"])
    (.errorf "invalid storage type: %s (valid: [local redis raft])" [.string (str c.type)])
  if c.type = "redis" then c.redis.validate
  else if c.type = "raft" then c.raft.validate
  else if c.type = "local" then .ok ()
  else .error (.errorf "unsupported storage type: %s" [.string (str c.type)])

/-! ### The cluster -/

/-- `PeersConfig`. -/
structure PeersConfig where
  join : List String
  encryption : String
  deriving DecidableEq, Repr

/-- `GossipConfig`. -/
structure GossipConfig where
  interval : ℤ
  nodes : ℤ
  deriving DecidableEq, Repr

/-- `GossipConfig.Validate`. -/
def GossipConfig.validate (g : GossipConfig) : Except GoError Unit := do
  positive "gossip interval must be positive, got %v" g.interval
  refuse (g.nodes ≤ 0) (.errorf "gossip nodes must be positive, got %d" [.int g.nodes])

/-- `ProbeConfig`. -/
structure ProbeConfig where
  interval : ℤ
  timeout : ℤ
  deriving DecidableEq, Repr

/-- `ProbeConfig.Validate`. -/
def ProbeConfig.validate (p : ProbeConfig) : Except GoError Unit := do
  positive "probe interval must be positive, got %v" p.interval
  positive "probe timeout must be positive, got %v" p.timeout
  refuse (p.interval ≤ p.timeout)
    (.errorf "probe timeout (%v) must be less than interval (%v)"
      [.duration p.timeout, .duration p.interval])

/-- `MemberlistConfig`. -/
structure MemberlistConfig where
  bindAddress : String
  advertiseAddress : String
  peers : PeersConfig
  gossip : GossipConfig
  probe : ProbeConfig
  metadata : GoMap String String
  deriving DecidableEq

/-- `MemberlistConfig.Validate`. -/
def MemberlistConfig.validate (m : MemberlistConfig) : Except GoError Unit := do
  refuse (m.bindAddress = "") (.errorf "memberlist bind address is required" [])
  checkAddress (.wrapf "invalid memberlist bind address format: %w" []) m.bindAddress
  if m.advertiseAddress ≠ "" then
    checkAddress (.wrapf "invalid memberlist advertise address format: %w" []) m.advertiseAddress
  wrap (.wrapf "gossip validation failed: %w" []) m.gossip.validate
  wrap (.wrapf "probe validation failed: %w" []) m.probe.validate

/-- `StaticConfig`. -/
structure StaticConfig where
  peers : List String
  deriving DecidableEq, Repr

/-- `StaticConfig.Validate`. -/
def StaticConfig.validate (s : StaticConfig) : Except GoError Unit :=
  each (fun i peer => do
    refuse (peer = "") (.errorf "static peer %d cannot be empty" [.int i])
    checkAddress (.wrapf "invalid static peer %d address format (%s): %w"
      [.int i, .string (str peer)]) peer) 0 s.peers

/-- `MDNSConfig`. -/
structure MDNSConfig where
  enabled : Bool
  serviceName : String
  domain : String
  hostname : String
  port : ℤ
  txtRecords : GoMap String String
  deriving DecidableEq

/-- `MDNSConfig.Validate`. -/
def MDNSConfig.validate (m : MDNSConfig) : Except GoError Unit :=
  if m.enabled then do
    refuse (m.serviceName = "")
      (.errorf "mDNS service name is required when mDNS is enabled" [])
    refuse (m.domain = "") (.errorf "mDNS domain is required when mDNS is enabled" [])
    refuse (m.port ≤ 0)
      (.errorf "mDNS port must be positive when mDNS is enabled, got %d" [.int m.port])
  else .ok ()

/-- `DiscoveryConfig`. -/
structure DiscoveryConfig where
  enabled : Bool
  interval : ℤ
  providers : List String
  static : Option StaticConfig
  mdns : MDNSConfig
  deriving DecidableEq

/-- `DiscoveryConfig.Validate`. -/
def DiscoveryConfig.validate (d : DiscoveryConfig) : Except GoError Unit := do
  positive "discovery interval must be positive, got %v" d.interval
  match d.static with
  | some s => wrap (.wrapf "static discovery validation failed: %w" []) s.validate
  | none => .ok ()
  wrap (.wrapf "mDNS discovery validation failed: %w" []) d.mdns.validate

/-- The configuration of the cluster. -/
structure ClusterConfig where
  memberlist : MemberlistConfig
  discovery : DiscoveryConfig
  deriving DecidableEq

/-- The check of the cluster. -/
def ClusterConfig.validate (c : ClusterConfig) : Except GoError Unit := do
  wrap (.wrapf "memberlist validation failed: %w" []) c.memberlist.validate
  wrap (.wrapf "discovery validation failed: %w" []) c.discovery.validate

end Config

/-! ### The whole -/

/-- The configuration of the gateway, `config.Config`. -/
structure Config where
  metadata : Config.MetadataConfig
  logging : Config.LoggingConfig
  metrics : Config.MetricsConfig
  server : Config.ServerConfig
  proxy : Proxy.Config
  auth : Auth.JWTConfig
  tenants : Tenant.Config
  storage : Config.StorageConfig
  cluster : Config.ClusterConfig
  deriving DecidableEq

namespace Config

open Checks HostPort Clock

/-- The default configuration of the storage. -/
def StorageConfig.getDefaults : StorageConfig where
  type := "local"
  redis :=
    { address := "", password := "", database := 0, keyPrefix := "vm-proxy-auth:"
      pool := ⟨20, 10⟩
      timeouts := ⟨5 * second, 3 * second, 3 * second⟩
      retry := ⟨3, 100000000, second⟩ }
  raft := ⟨"127.0.0.1:9000", "/data/raft", 0, []⟩

/-- The default configuration of the cluster. -/
def ClusterConfig.getDefaults : ClusterConfig where
  memberlist :=
    { bindAddress := "0.0.0.0:7946", advertiseAddress := "", peers := ⟨[], ""⟩
      gossip := ⟨200000000, 3⟩
      probe := ⟨second, 500000000⟩
      metadata := ∅ }
  discovery :=
    { enabled := false, interval := 30 * second, providers := [], static := none
      mdns := ⟨true, "_vm-proxy-auth._tcp", "local.", "", 7946, ∅⟩ }

/-- `GetDefaults`. -/
def getDefaults : Config where
  metadata := ⟨"vm-proxy-auth-1", "gateway", "development", "local"⟩
  logging := ⟨"info", "json"⟩
  metrics := ⟨true, "/metrics"⟩
  server := ⟨"0.0.0.0:8080", ⟨30 * second, 30 * second, 60 * second⟩⟩
  proxy := ⟨[], ⟨str "round-robin", ⟨30 * second, 10 * second, str "/health", 2, 3⟩⟩,
    ⟨30 * second, 3, 100000000, ⟨true, 1000, 5 * second⟩⟩⟩
  auth := ⟨str "RS256", [], [], ⟨false, false, [], []⟩, ⟨3600 * second, 900 * second⟩⟩
  tenants := ⟨⟨str "orConditions", ⟨str "vm_account_id", str "vm_project_id", true⟩⟩, []⟩
  storage := .getDefaults
  cluster := .getDefaults

/-- `IsClusterEnabled`. -/
def isClusterEnabled (c : Config) : Bool := c.storage.type == "raft"

theorem isClusterEnabled_iff (c : Config) :
  c.isClusterEnabled = true ↔ c.storage.type = "raft"
  := beq_iff_eq

section

variable (urlParse : GoString → Except GoError Http.URL)

/-- `Config.Validate`. -/
def validate (c : Config) : Except GoError Unit := do
  c.server.validate
  c.proxy.validate urlParse
  c.auth.validate
  c.tenants.validate
  c.storage.validate
  if c.storage.type = "raft" then c.cluster.validate

/-- `validateCrossModule`. -/
def validateCrossModule (c : Config) : Except GoError Unit := do
  refuse (c.auth.algorithm = str "RS256" ∧ c.auth.jwksURL = [])
    (.errorf "RS256 algorithm requires jwksUrl to be set" [])
  refuse (c.auth.algorithm = str "HS256" ∧ c.auth.secret = [])
    (.errorf "HS256 algorithm requires secret to be set" [])
  refuse (c.proxy.upstreams = []) (.errorf "at least one proxy upstream is required" [])
  if c.storage.type = "redis" then
    refuse (c.storage.redis.address = "")
      (.errorf "redis address is required when storage type is redis" [])
  else if c.storage.type = "raft" then do
    refuse (c.storage.raft.dataDir = "")
      (.errorf "raft data directory is required when storage type is raft" [])
    refuse (c.storage.raft.bindAddress = "")
      (.errorf "raft bind address is required when storage type is raft" [])
  else if c.storage.type = "local" then .ok ()
  else .error (.errorf "unsupported storage type: %s" [.string (str c.storage.type)])

/-- `ValidateConfig`. -/
def validateConfig (c : Config) : Except GoError Unit := do
  wrap (.wrapf "metadata validation failed: %w" []) c.metadata.validate
  wrap (.wrapf "logging validation failed: %w" []) c.logging.validate
  wrap (.wrapf "metrics validation failed: %w" []) c.metrics.validate
  wrap (.wrapf "server validation failed: %w" []) c.server.validate
  wrap (.wrapf "proxy validation failed: %w" []) (c.proxy.validate urlParse)
  wrap (.wrapf "auth validation failed: %w" []) c.auth.validate
  wrap (.wrapf "tenants validation failed: %w" []) c.tenants.validate
  wrap (.wrapf "storage validation failed: %w" []) c.storage.validate
  if c.isClusterEnabled then
    wrap (.wrapf "cluster validation failed: %w" []) c.cluster.validate
  wrap (.wrapf "cross-module validation failed: %w" []) c.validateCrossModule

variable {urlParse} {c : Config}

theorem storage_cases (h : c.storage.validate = .ok ()) :
  c.storage.type = "local" ∨ c.storage.type = "redis" ∧ c.storage.redis.validate = .ok () ∨
    c.storage.type = "raft" ∧ c.storage.raft.validate = .ok ()
  := by
  simp only [StorageConfig.validate, seq_eq_ok_iff, refuse_eq_ok_iff, not_not] at h
  obtain ⟨-, h⟩ := h
  split_ifs at h with hredis hraft hlocal
  · right
    left
    use hredis, h
  · right
    right
    use hraft, h
  · left
    apply hlocal

theorem upstreams_ne_nil (h : c.proxy.validate urlParse = .ok ()) :
  c.proxy.upstreams ≠ []
  := by
  intro hnil
  rw [Proxy.Config.validate, if_pos hnil] at h
  cases h

/-- What is checked across the modules has been checked in them. -/
theorem validateCrossModule_of_validate (hproxy : c.proxy.validate urlParse = .ok ())
    (hauth : c.auth.validate = .ok ()) (hstorage : c.storage.validate = .ok ()) :
  c.validateCrossModule = .ok ()
  := by
  have hne : str "RS256" ≠ str "HS256" := by decide +kernel
  have hkeys : ¬ (c.auth.algorithm = str "RS256" ∧ c.auth.jwksURL = []) ∧
      ¬ (c.auth.algorithm = str "HS256" ∧ c.auth.secret = []) := by
    obtain ⟨halg, hurl⟩ | ⟨halg, hsecret⟩ := Auth.JWTConfig.of_validate hauth
    · rw [halg]
      use fun h => hurl h.2, fun h => hne h.1
    · rw [halg]
      use fun h => hne h.1.symm, fun h => hsecret h.2
  simp only [validateCrossModule, seq_eq_ok_iff, refuse_eq_ok_iff]
  use hkeys.1, hkeys.2, upstreams_ne_nil hproxy
  obtain hlocal | ⟨hredis, hvalid⟩ | ⟨hraft, hvalid⟩ := storage_cases hstorage
  · simp [hlocal]
  · rw [if_pos hredis, refuse_eq_ok_iff]
    simp only [RedisConfig.validate, seq_eq_ok_iff, refuse_eq_ok_iff] at hvalid
    apply hvalid.1
  · rw [Cluster.RaftConfig.validate] at hvalid
    split_ifs at hvalid with haddress hdir
    simp [hraft, haddress, hdir]

theorem validateConfig_passes_iff :
  validateConfig urlParse c = .ok () ↔
    c.metadata.validate = .ok () ∧ c.logging.validate = .ok () ∧ c.metrics.validate = .ok () ∧
      validate urlParse c = .ok ()
  := by
  have hcross := @validateCrossModule_of_validate urlParse c
  simp only [validateConfig, validate, seq_eq_ok_iff, wrap_eq_ok_iff, isClusterEnabled_iff]
  split_ifs with hraft
  · simp only [seq_eq_ok_iff, wrap_eq_ok_iff]
    tauto
  · simp only [wrap_eq_ok_iff, pure, Except.pure]
    tauto

/-- `ValidateConfig` accepts what `Config.Validate` accepts if the metadata, the logging and the
metrics pass their checks, and never fails in the checks across the modules. -/
theorem validateConfig_eq_ok_iff :
  (validateConfig urlParse c = .ok () ↔
      c.metadata.validate = .ok () ∧ c.logging.validate = .ok () ∧ c.metrics.validate = .ok () ∧
        validate urlParse c = .ok ()) ∧
    ∀ err, validateConfig urlParse c
      ≠ .error (.wrapf "cross-module validation failed: %w" [] err)
  := by
  use validateConfig_passes_iff
  intro err h
  -- the errors of the modules are wrapped differently, so all modules have passed
  simp only [validateConfig, bind_eq_error_iff, Unique.exists_iff, wrap_eq_error_iff,
    wrap_eq_ok_iff, GoError.wrapf.injEq, String.reduceEq, false_and, and_false, exists_false,
    false_or] at h
  obtain ⟨-, -, -, -, hproxy, hauth, -, hstorage, h⟩ := h
  rw [validateCrossModule_of_validate hproxy hauth hstorage] at h
  split_ifs at h
  · simp [bind_eq_error_iff, wrap_eq_error_iff] at h
  · simp [wrap_eq_error_iff] at h

/-! ### Defaults -/

/-- The default configuration with a type of storage, upstreams, a key set and mappings. -/
def minimal (type : String) (upstreams : List Proxy.UpstreamConfig) (jwksURL : GoString)
    (mappings : List Auth.MappingConfig) : Config :=
  { getDefaults with
    proxy := { getDefaults.proxy with upstreams := upstreams }
    auth := { getDefaults.auth with jwksURL := jwksURL }
    tenants := { getDefaults.tenants with mappings := mappings }
    storage := { getDefaults.storage with type := type } }

/-- All defaults pass their checks: with valid upstreams, a key set and valid mappings the default
configuration is valid, and so it is with Raft storage. -/
theorem validateConfig_minimal {type : String} (htype : type = "local" ∨ type = "raft")
    {upstreams : List Proxy.UpstreamConfig} {jwksURL : GoString}
    {mappings : List Auth.MappingConfig} (hne : upstreams ≠ [])
    (hupstreams : Proxy.validateUpstreams urlParse 0 upstreams = .ok ()) (hurl : jwksURL ≠ [])
    (hmappings : mappings ≠ [])
    (hvalid : Tenant.validateAll Tenant.validateMapping "mapping %d validation failed: %w" 0
      mappings = .ok ()) :
  validateConfig urlParse (minimal type upstreams jwksURL mappings) = .ok ()
  := by
  have hproxy : (minimal type upstreams jwksURL mappings).proxy.validate urlParse = .ok () := by
    have hrouting : getDefaults.proxy.routing.validate = .ok () := by decide +kernel
    have hreliability : getDefaults.proxy.reliability.validate = .ok () := by decide +kernel
    simp [Proxy.Config.validate, minimal, hne, hupstreams, hrouting, hreliability]
  have hauth : (minimal type upstreams jwksURL mappings).auth.validate = .ok () := by
    have halgorithm : str "RS256" ≠ str "HS256" := by decide +kernel
    simp [Auth.JWTConfig.validate, minimal, getDefaults, hurl, halgorithm, second]
  have htenants : (minimal type upstreams jwksURL mappings).tenants.validate = .ok () := by
    have hfilter : getDefaults.tenants.filter.validate = .ok () := by decide +kernel
    simp [Tenant.Config.validate, minimal, hmappings, hfilter, hvalid]
  have hrest : getDefaults.metadata.validate = .ok () ∧ getDefaults.logging.validate = .ok () ∧
      getDefaults.metrics.validate = .ok () ∧ getDefaults.server.validate = .ok () ∧
      getDefaults.storage.raft.validate = .ok () ∧ getDefaults.cluster.validate = .ok () := by
    decide +kernel
  obtain ⟨hmetadata, hlogging, hmetrics, hserver, hraft, hcluster⟩ := hrest
  have hstorage : (minimal type upstreams jwksURL mappings).storage.validate = .ok () := by
    obtain rfl | rfl := htype
    · simp [StorageConfig.validate, minimal]
    · simp [StorageConfig.validate, minimal, hraft]
  rw [validateConfig_passes_iff]
  simp only [validate, seq_eq_ok_iff]
  use hmetadata, hlogging, hmetrics, hserver, hproxy, hauth, htenants, hstorage
  obtain rfl | rfl := htype
  · rfl
  · apply hcluster

end

/-- The default configuration with one upstream, a key set and one mapping. -/
def oneUpstream (type : String) : Config :=
  minimal type [⟨str "http://vm:8481", 1⟩] (str "https://issuer/keys")
    [⟨[str "users"], [⟨str "1", []⟩], [str "read"]⟩]

end Config

end VmProxyAuth
